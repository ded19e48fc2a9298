/-!
# Byte strings

A file, a record and a token are lists of octets. This module has the two ways in which the
formats of the library address them: fixed-width unsigned numbers, and slices and searches whose
bounds may be negative. A large file is an array, in which a search walks from place to place.

## Main definitions

* `Bytes.ofNatLE`, `Bytes.toNatLE`: an unsigned number, least significant octet first
* `Bytes.slice`: the part between two bounds, a negative bound counting from the end
* `Bytes.findFrom`: the first place of a pattern at or after a position
* `Bytes.findIn`: the first place of a pattern in a part of an array

## Main results

* `Bytes.ofNatLE_toNatLE`: the octets of a number with the width of a list are that list
* `Bytes.findIn_eq`: a search in an array finds what a search in the list of its octets finds
-/

namespace WordVectors

/-- A byte string, first octet first. -/
abbrev Bytes := List UInt8

namespace Bytes

/-! ## Unsigned numbers -/

/-- The `width` octets of `n`, least significant first; what does not fit is dropped. -/
def ofNatLE : (width : Nat) → (n : Nat) → Bytes
  | 0, _ => []
  | width + 1, n => UInt8.ofNat (n % 256) :: ofNatLE width (n / 256)

/-- The number whose octets are given, least significant first. -/
def toNatLE : Bytes → Nat
  | [] => 0
  | b :: bs => b.toNat + 256 * toNatLE bs

@[simp] theorem length_ofNatLE (width n : Nat) : (ofNatLE width n).length = width := by
  induction width generalizing n with
  | zero => rfl
  | succ width ih => simp [ofNatLE, ih]

theorem ofNatLE_toNatLE (bs : Bytes) : ofNatLE bs.length (toNatLE bs) = bs := by
  induction bs with
  | nil => rfl
  | cons b bs ih =>
    have hb : b.toNat < 256 := b.toNat_lt
    have hmod : (b.toNat + 256 * toNatLE bs) % 256 = b.toNat := by omega
    have hdiv : (b.toNat + 256 * toNatLE bs) / 256 = toNatLE bs := by omega
    simp [ofNatLE, toNatLE, hmod, hdiv, ih]

/-! ## Slices and searches -/

/-- A bound of a slice of `size` octets as a position: a negative bound counts from the end, and
what lies outside is moved to the nearer end. -/
def bound (size : Nat) (i : Int) : Nat :=
  if i < 0 then (i + size).toNat else min i.toNat size

theorem bound_le (size : Nat) (i : Int) : bound size i ≤ size := by
  simp only [bound]
  split <;> omega

/-- The octets from `start` up to `stop`, each bound read by `Bytes.bound`. -/
def slice (bs : Bytes) (start stop : Int) : Bytes :=
  let first := bound bs.length start
  (bs.drop first).take (bound bs.length stop - first)

/-- The first place at which `pattern` stands, counted from the front of `bs`. -/
def find? (pattern : Bytes) : (bs : Bytes) → Option Nat
  | [] => if pattern.isEmpty then some 0 else none
  | b :: bs =>
    if pattern.isPrefixOf (b :: bs) then some 0 else (find? pattern bs).map (· + 1)

/-- The first place of `pattern` in `bs` at or after `start`, where `start` is read by
`Bytes.bound`. -/
def findFrom (pattern bs : Bytes) (start : Int) : Option Nat :=
  let first := bound bs.length start
  (find? pattern (bs.drop first)).map (· + first)

/-! ## Searches in arrays -/

/-- Whether `pattern` stands at place `i` of an array, within the `left` octets from there on. -/
def standsAt (file : Array UInt8) : (pattern : Bytes) → (left i : Nat) → Bool
  | [], _, _ => true
  | _ :: _, 0, _ => false
  | b :: pattern, left + 1, i => file[i]? == some b && standsAt file pattern left (i + 1)

/-- The first place of `pattern` within the `left` octets of an array from place `i` on. -/
def findIn (file : Array UInt8) (pattern : Bytes) : (left i : Nat) → Option Nat
  | 0, i => if pattern.isEmpty then some i else none
  | left + 1, i =>
    if standsAt file pattern (left + 1) i then some i else findIn file pattern left (i + 1)

/-- The octets from place `i` on start with the one there. -/
theorem take_drop_succ {file : Array UInt8} {left i : Nat} (h : i < file.size) :
    (file.toList.drop i).take (left + 1) = file[i] :: (file.toList.drop (i + 1)).take left := by
  rw [List.drop_eq_getElem_cons (by simpa using h), List.take_succ_cons, Array.getElem_toList]

theorem standsAt_eq {file : Array UInt8} {pattern : Bytes} {left i : Nat}
    (h : i + left ≤ file.size) :
    standsAt file pattern left i = pattern.isPrefixOf ((file.toList.drop i).take left) := by
  induction pattern generalizing left i with
  | nil => simp [standsAt]
  | cons b pattern ih =>
    cases left with
    | zero => simp [standsAt]
    | succ left =>
      have hi : i < file.size := by omega
      rw [take_drop_succ hi, standsAt, ih (by omega), List.isPrefixOf_cons_cons,
        Array.getElem?_eq_getElem hi, BEq.comm (a := b)]
      rfl

/-- A search in an array finds what a search in the list of its octets finds. -/
theorem findIn_eq {file : Array UInt8} {pattern : Bytes} {left i : Nat}
    (h : i + left ≤ file.size) :
    findIn file pattern left i =
      (find? pattern ((file.toList.drop i).take left)).map (· + i) := by
  induction left generalizing i with
  | zero => by_cases hp : pattern.isEmpty <;> simp [findIn, find?, hp]
  | succ left ih =>
    rw [findIn, standsAt_eq h, take_drop_succ (by omega), find?, ih (by omega)]
    split
    · simp
    · cases find? pattern ((file.toList.drop (i + 1)).take left) with
      | none => simp
      | some n => simp; omega

end Bytes

end WordVectors
