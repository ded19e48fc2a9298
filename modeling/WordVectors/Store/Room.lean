import WordVectors.Decimal.Places

/-!
# Room for numbers

Numbers are kept in arrays, and an array is made before its numbers are known. A file that declares
more vectors than memory holds is refused for want of room before they are read. An array has
limits of its own; what memory grants below them depends on the machine and is left open. A copy of
numbers that are in memory already is taken to have room.

## Main definitions

* `RoomError`: why an array cannot be made
* `Memory`: which arrays memory grants
* `Room.checkArray`, `Room.checkSegments`: whether one array, or the segments of a store can be made
* `Memory.Holds`: arrays of given sizes can be made
* `Room.checkRows`: whether an empty array can be seen as rows
-/

namespace WordVectors

/-- Why an array cannot be made. -/
inductive RoomError where
  /-- It would have too many items. -/
  | items
  /-- It would have too many octets. -/
  | octets
  /-- There is no memory for an array of `count` numbers. -/
  | memory (count : Nat)
  /-- The vectors have too many components for an index. -/
  | index
deriving DecidableEq, Repr

/-- **What memory grants.** Which arrays can be made depends on the machine and on what else it
keeps. -/
class Memory where
  /-- Whether memory has an array of `count` numbers while `kept` numbers are kept in others. -/
  grants : (kept count : Nat) → Bool

/-- The memory that has whatever an array can be. -/
@[reducible] def Memory.ample : Memory := ⟨fun _ _ => true⟩

namespace Room

/-! ## Limits -/

/-- The number of items of an array is below this, and so is the number of its octets. -/
def sizeLimit : Nat := 0x8000000000000000

/-- The number of octets of a number. -/
def numberWidth : Nat := 8

/-! ## Sizes in messages -/

/-- The units in which messages give sizes, each 1024 times the one before. -/
def units : List String := ["bytes", "KiB", "MiB", "GiB", "TiB", "PiB", "EiB"]

/-- A number of octets in the unit at place `unit`. -/
def inUnit (octets unit : Nat) : Binary64 := .ofRatio false octets (1 <<< (10 * unit))

/-- A size with three digits, or with a point behind them if there are more in front of it. -/
def shortText (size : Binary64) : List Char :=
  match ([2, 1].map fun places => size.fixedText places).find? (·.length ≤ 4) with
  | some text => text
  | none => size.fixedText 0 ++ ['.']

/-- A number of octets in the greatest unit that it reaches when it is rounded. -/
def sizeText (octets : Nat) : String :=
  let reached := Nat.log2 octets / 10
  let isNext := (inUnit octets reached).fixedText 0 = Text.digits 1024
  let unit := if isNext then reached + 1 else reached
  let size := if unit = 0 then Text.digits octets else shortText (inUnit octets unit)
  String.ofList size ++ " " ++ units.getD unit ""

/-! ## Checks -/

section Checks

variable [Memory]

/-- Check that an array of `count` numbers can be made while `kept` numbers are kept in others. -/
def checkArray (kept count : Nat) : Except RoomError Unit :=
  if sizeLimit ≤ count then .error .items
  else if sizeLimit ≤ count * numberWidth then .error .octets
  else if Memory.grants kept count then .ok ()
  else .error (.memory count)

/-- Check that arrays of the given sizes can be made, one after another. -/
def checkArrays (kept : Nat) : List Nat → Except RoomError Unit
  | [] => .ok ()
  | count :: sizes =>
    match checkArray kept count with
    | .error e => .error e
    | .ok () => checkArrays (kept + count) sizes

/-- Check that `left` arrays of `count` numbers each can be made, one after another. -/
def checkCopies (count : Nat) : (kept left : Nat) → Except RoomError Unit
  | _, 0 => .ok ()
  | kept, left + 1 =>
    match checkArray kept count with
    | .error e => .error e
    | .ok () => checkCopies count (kept + count) left

/-- **Check that segments can be made** for vectors of which `perSegment` fill one: the full
segments, and then one with the remainder. -/
def checkSegments (vectors layerSize perSegment : Nat) : Except RoomError Unit :=
  let full := vectors / perSegment
  let size := perSegment * layerSize
  match checkCopies size 0 full with
  | .error e => .error e
  | .ok () =>
    if vectors % perSegment = 0 then .ok ()
    else checkArray (full * size) (vectors % perSegment * layerSize)

theorem checkArrays_replicate_append (count kept left : Nat) (sizes : List Nat) :
    checkArrays kept (List.replicate left count ++ sizes) =
      match checkCopies count kept left with
      | .error e => .error e
      | .ok () => checkArrays (kept + left * count) sizes := by
  induction left generalizing kept with
  | zero =>
    simp only [List.replicate_zero, List.nil_append, checkCopies, Nat.zero_mul, Nat.add_zero]
  | succ left ih =>
    rw [List.replicate_succ, List.cons_append, checkArrays, checkCopies]
    cases checkArray kept count with
    | error e => rfl
    | ok _ =>
      dsimp only
      rw [ih, Nat.succ_mul, Nat.add_assoc, Nat.add_comm count]

end Checks

/-- **Check that an empty array can be seen as rows** of `layerSize` components of `width` octets
each. A row need not be there to be too large. -/
def checkRows (width layerSize : Nat) : Except RoomError Unit :=
  if sizeLimit ≤ layerSize then .error .items
  else if sizeLimit ≤ width * layerSize then .error .octets
  else .ok ()

end Room

/-- **Memory holds arrays of the given sizes** when they are made one after another. -/
def Memory.Holds [Memory] (sizes : List Nat) : Prop := Room.checkArrays 0 sizes = .ok ()

instance [Memory] (sizes : List Nat) : Decidable (Memory.Holds sizes) :=
  match h : Room.checkArrays 0 sizes with
  | .ok () => .isTrue h
  | .error _ => .isFalse fun hholds => by rw [Memory.Holds, h] at hholds; cases hholds

/-- The wording of a room error. -/
def RoomError.message : RoomError → String
  | items => "Maximum allowed dimension exceeded"
  | octets =>
    "array is too big; `arr.size * arr.dtype.itemsize` is larger than the maximum possible " ++
      "size."
  | memory count =>
    s!"Unable to allocate {Room.sizeText (count * Room.numberWidth)} for an array with shape " ++
      s!"({count},) and data type float64"
  | index =>
    "Wrong number or type of arguments for overloaded function 'new_IndexFlatIP'.\n" ++
      "  Possible C/C++ prototypes are:\n" ++
      "    faiss::IndexFlatIP::IndexFlatIP(faiss::idx_t)\n" ++
      "    faiss::IndexFlatIP::IndexFlatIP()\n"

end WordVectors
