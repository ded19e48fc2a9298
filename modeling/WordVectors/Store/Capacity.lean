import WordVectors.Store.Room

/-!
# Sizes of segments

The vectors of a model are spread over segments, so that no single allocation exceeds a bound. A
segment holds whole vectors only, and every segment but the last holds as many as the bound
admits.

## Main definitions

* `CapacityError`: why a bound admits no segments
* `vectorsPerSegment`: how many vectors a full segment holds
* `segmentSizes`: the sizes of the segments for a number of vectors, in numbers
* `allocate`: the same, if the segments can be made
* `Memory.HoldsSegments`: memory holds the segments for a number of vectors

## Main results

* `Room.checkSegments_eq`: the segments are made one after another
-/

namespace WordVectors

/-- Why there are no segment sizes. -/
inductive CapacityError where
  | vocabSize (got : Int)
  | layerSize (got : Int)
  /-- A segment cannot hold a single vector. -/
  | tooSmall (capacity layerSize : Int)
  /-- There is no room for the segments. -/
  | room (error : RoomError)
deriving DecidableEq, Repr

namespace CapacityError

/-- The wording of a capacity error. -/
def message : CapacityError → String
  | vocabSize got => s!"vocab_size must not be negative, got {got}"
  | layerSize got => s!"layer_size must be positive, got {got}"
  | tooSmall capacity size =>
    s!"Segment capacity of {capacity} doubles cannot hold a vector of size {size}"
  | room error => error.message

end CapacityError

/-- The number of whole vectors that fit in a segment of `capacity` numbers. -/
def vectorsPerSegment (layerSize capacity : Int) : Except CapacityError Nat :=
  if layerSize ≤ 0 then .error (.layerSize layerSize)
  else if capacity < layerSize then .error (.tooSmall capacity layerSize)
  else .ok (capacity.toNat / layerSize.toNat)

/-- The sizes of the segments for `vectors` vectors of which `perSegment` fill a segment: full
segments, and one with the remainder if there is one. -/
def partition (vectors layerSize perSegment : Nat) : List Nat :=
  let remainder := vectors % perSegment
  List.replicate (vectors / perSegment) (perSegment * layerSize) ++
    if remainder = 0 then [] else [remainder * layerSize]

/-- **The sizes of the segments** for `vocabSize` vectors of `layerSize` numbers, when no segment
holds more than `capacity` numbers. -/
def segmentSizes (vocabSize layerSize capacity : Int) : Except CapacityError (List Nat) :=
  if vocabSize < 0 then .error (.vocabSize vocabSize)
  else do
    let perSegment ← vectorsPerSegment layerSize capacity
    .ok (partition vocabSize.toNat layerSize.toNat perSegment)

section Memory

variable [Memory]

/-- **The sizes of the segments, if they can be made.** -/
def allocate (vocabSize layerSize capacity : Int) : Except CapacityError (List Nat) :=
  if vocabSize < 0 then .error (.vocabSize vocabSize)
  else
    match vectorsPerSegment layerSize capacity with
    | .error e => .error e
    | .ok perSegment =>
      match Room.checkSegments vocabSize.toNat layerSize.toNat perSegment with
      | .error e => .error (.room e)
      | .ok () => .ok (partition vocabSize.toNat layerSize.toNat perSegment)

/-- **Memory holds the segments** for `vocabSize` vectors, if the sizes admit any. -/
def Memory.HoldsSegments (vocabSize layerSize capacity : Int) : Prop :=
  ∀ sizes, segmentSizes vocabSize layerSize capacity = .ok sizes → Memory.Holds sizes

instance (vocabSize layerSize capacity : Int) :
    Decidable (Memory.HoldsSegments vocabSize layerSize capacity) :=
  match h : segmentSizes vocabSize layerSize capacity with
  | .error _ => .isTrue fun sizes hsizes => by rw [h] at hsizes; cases hsizes
  | .ok sizes => decidable_of_iff (Memory.Holds sizes) <| by
      simp only [Memory.HoldsSegments, h, Except.ok.injEq, forall_eq']

/-- **The segments are made one after another**, the one with the remainder last. -/
theorem Room.checkSegments_eq (vectors layerSize perSegment : Nat) :
    checkSegments vectors layerSize perSegment =
      checkArrays 0 (partition vectors layerSize perSegment) := by
  rw [checkSegments, partition, checkArrays_replicate_append, Nat.zero_add]
  cases checkCopies (perSegment * layerSize) 0 (vectors / perSegment) with
  | error e => rfl
  | ok _ =>
    dsimp only
    split
    · rfl
    · rw [checkArrays]
      cases checkArray (vectors / perSegment * (perSegment * layerSize))
        (vectors % perSegment * layerSize) <;> rfl

end Memory

end WordVectors
