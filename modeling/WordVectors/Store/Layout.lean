/-!
# Layouts

A layout is the list of the sizes of the segments of a store. It fits a vocabulary if every
segment holds whole vectors, every segment but the last holds exactly the agreed number, the last
holds no more than that, and all of them together hold one vector per word.

## Main definitions

* `Layout.Fits`: when a layout fits a vocabulary
* `Layout.fault?`: the first reason, segment by segment, why it does not

## Main results

* `Layout.fault?_eq_none_iff`: a layout has no fault exactly if it fits
-/

namespace WordVectors.Layout

/-- Why a layout does not fit. -/
inductive Fault where
  /-- A segment does not hold whole vectors. -/
  | ragged (segment size layerSize : Nat)
  /-- A segment before the last does not hold the agreed number of vectors. -/
  | count (segment got : Nat) (perSegment : Int)
  /-- The last segment holds more vectors than agreed. -/
  | last (got : Nat) (perSegment : Int)
  /-- The segments together do not hold one vector per word. -/
  | total (words vectors : Nat)
deriving DecidableEq, Repr

namespace Fault

/-- The wording of a fault. -/
def message : Fault → String
  | ragged segment size layerSize =>
    s!"Segment {segment} holds {size} doubles, not a multiple of layer size {layerSize}"
  | count segment got perSegment =>
    s!"Segment {segment} holds {got} vectors, expected {perSegment}"
  | last got perSegment => s!"Final segment holds {got} vectors, more than {perSegment}"
  | total words vectors =>
    s!"Vocabulary has {words} entries but segments hold {vectors} vectors"

end Fault

variable (layerSize : Nat) (perSegment : Int)

/-- The number of vectors in segments of the given sizes. -/
def vectorCount : (sizes : List Nat) → Nat
  | [] => 0
  | size :: sizes => size / layerSize + vectorCount sizes

/-- **A layout that fits** a vocabulary of `words` words. -/
structure Fits (words : Nat) (sizes : List Nat) : Prop where
  /-- Every segment holds whole vectors. -/
  whole : ∀ n ∈ sizes, n % layerSize = 0
  /-- Every segment but the last is full. -/
  full : ∀ n ∈ sizes.dropLast, ((n / layerSize : Nat) : Int) = perSegment
  /-- The last segment is at most full. -/
  last : ∀ n ∈ sizes.getLast?, ((n / layerSize : Nat) : Int) ≤ perSegment
  /-- There is one vector per word. -/
  total : vectorCount layerSize sizes = words

/-- The fault of one segment; `isLast` tells whether no segment follows. -/
def segmentFault? (index size : Nat) (isLast : Bool) : Option Fault :=
  let count := size / layerSize
  if size % layerSize ≠ 0 then some (.ragged index size layerSize)
  else if !isLast ∧ (count : Int) ≠ perSegment then some (.count index count perSegment)
  else if isLast ∧ perSegment < count then some (.last count perSegment)
  else none

/-- The fault of the first segment that has one, when the segments are numbered from `index`. -/
def segmentsFault? (index : Nat) : List Nat → Option Fault
  | [] => none
  | size :: sizes =>
    (segmentFault? layerSize perSegment index size sizes.isEmpty).or
      (segmentsFault? (index + 1) sizes)

/-- **The first reason why a layout does not fit**: that of a segment, in order, or else that of
the total. -/
def fault? (words : Nat) (sizes : List Nat) : Option Fault :=
  (segmentsFault? layerSize perSegment 0 sizes).or
    (let vectors := vectorCount layerSize sizes
     if vectors = words then none else some (.total words vectors))

variable {layerSize perSegment}

theorem segmentFault?_last {index size : Nat} :
    segmentFault? layerSize perSegment index size true = none ↔
      size % layerSize = 0 ∧ ((size / layerSize : Nat) : Int) ≤ perSegment := by
  simp only [segmentFault?]
  split <;> simp_all

theorem segmentFault?_inner {index size : Nat} :
    segmentFault? layerSize perSegment index size false = none ↔
      size % layerSize = 0 ∧ ((size / layerSize : Nat) : Int) = perSegment := by
  simp only [segmentFault?]
  split <;> simp_all

theorem segmentsFault?_eq_none_iff {index : Nat} {sizes : List Nat} :
    segmentsFault? layerSize perSegment index sizes = none ↔
      (∀ n ∈ sizes, n % layerSize = 0) ∧
      (∀ n ∈ sizes.dropLast, ((n / layerSize : Nat) : Int) = perSegment) ∧
      ∀ n ∈ sizes.getLast?, ((n / layerSize : Nat) : Int) ≤ perSegment := by
  induction sizes generalizing index with
  | nil => simp [segmentsFault?]
  | cons size sizes ih =>
    cases sizes with
    | nil => simp [segmentsFault?, segmentFault?_last]
    | cons next rest =>
      rw [segmentsFault?, Option.or_eq_none_iff, ih, List.isEmpty_cons, segmentFault?_inner]
      simp only [List.mem_cons, List.dropLast_cons_cons, List.getLast?_cons_cons,
        forall_eq_or_imp]
      constructor
      · rintro ⟨⟨hm, hc⟩, hw, hf, hl⟩
        exact ⟨⟨hm, hw⟩, ⟨hc, hf⟩, hl⟩
      · rintro ⟨⟨hm, hw⟩, ⟨hc, hf⟩, hl⟩
        exact ⟨⟨hm, hc⟩, hw, hf, hl⟩

/-- **A layout has no fault exactly if it fits.** -/
theorem fault?_eq_none_iff {words : Nat} {sizes : List Nat} :
    fault? layerSize perSegment words sizes = none ↔ Fits layerSize perSegment words sizes := by
  rw [fault?, Option.or_eq_none_iff, segmentsFault?_eq_none_iff]
  constructor
  · rintro ⟨⟨hw, hf, hl⟩, ht⟩
    refine ⟨hw, hf, hl, ?_⟩
    by_cases h : vectorCount layerSize sizes = words
    · exact h
    · simp [h] at ht
  · rintro ⟨hw, hf, hl, ht⟩
    exact ⟨⟨hw, hf, hl⟩, by simp [ht]⟩

end WordVectors.Layout
