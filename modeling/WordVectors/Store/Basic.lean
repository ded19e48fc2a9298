import WordVectors.Decimal.Numeral
import WordVectors.Number.Binary
import WordVectors.Store.Capacity
import WordVectors.Store.Layout

/-!
# Segmented stores

A store holds an ordered vocabulary and one vector per word, spread over segments. Its layout
fits its vocabulary, so that a word is found by one division.

## Main definitions

* `Store`: a vocabulary with its segments
* `Store.ofSegments`, `Store.ofDense`: a store from its segments, or from all numbers in one list
* `Store.locate`, `Store.vectorAt`: where a vector is, and the vector
* `Store.flatten`, `Store.rows`, `Store.entries`: all numbers, all vectors, all words with theirs
* `Store.checkRows`: whether the vectors can be laid out at all
* `Store.isTooLong`: whether the sizes are too long to be written
-/

namespace WordVectors

/-- **A vocabulary with its vectors.** Words may repeat. -/
structure Store where
  vocab : List String
  /-- The number of components of a vector. -/
  layerSize : Nat
  /-- The number of vectors of a full segment. -/
  perSegment : Int
  /-- The segments, each holding vectors one after another. -/
  segments : List (List Binary64)
  layerSize_pos : 0 < layerSize
  /-- The segments hold one vector per word. -/
  fits : Layout.Fits layerSize perSegment vocab.length (segments.map List.length)

/-- Why there is no store. -/
inductive StoreError where
  /-- Vectors would have no component. -/
  | layerSize (got : Int)
  /-- The segments do not fit the vocabulary. -/
  | layout (fault : Layout.Fault)
  /-- There are no segment sizes. -/
  | capacity (error : CapacityError)
  /-- The list of all numbers has the wrong length. -/
  | valueCount (words : Nat) (layerSize : Int) (got : Nat)
deriving DecidableEq, Repr

namespace StoreError

/-- The wording of a store error. -/
def message : StoreError → String
  | layerSize got => s!"layer_size must be positive, got {got}"
  | layout fault => fault.message
  | capacity error => error.message
  | valueCount words size got =>
    Numeral.withInteger (words * size)
      s!"Expected {words * size} values for {words} vectors of size {size}, got {got}"

end StoreError

/-- A vector lookup outside the vocabulary. -/
structure IndexError where
  /-- The position asked for. -/
  index : Int
  vocabSize : Nat
deriving DecidableEq, Repr

/-- The wording of an index error. -/
def IndexError.message (e : IndexError) : String :=
  s!"Vector index {e.index} out of range for vocabulary of size {e.vocabSize}"

/-- The first `count` pieces of `size` items each. -/
def chunks {α : Type} (size : Nat) : (count : Nat) → List α → List (List α)
  | 0, _ => []
  | count + 1, xs => xs.take size :: chunks size count (xs.drop size)

/-- The pieces of a list with the given sizes, one after another. -/
def cut {α : Type} : (sizes : List Nat) → List α → List (List α)
  | [], _ => []
  | size :: sizes, xs => xs.take size :: cut sizes (xs.drop size)

namespace Store

/-! ## Construction -/

/-- **The store with the given segments.** When the number of vectors of a full segment is not
given, it is that of the first segment. -/
def ofSegments (vocab : List String) (layerSize : Int) (segments : List (List Binary64))
    (perSegment : Option Int) : Except StoreError Store :=
  if hpos : layerSize ≤ 0 then .error (.layerSize layerSize)
  else
    let size := layerSize.toNat
    let perSegment := perSegment.getD ((segments.head?.map fun s => s.length / size).getD 0 : Nat)
    match h : Layout.fault? size perSegment vocab.length (segments.map List.length) with
    | some fault => .error (.layout fault)
    | none => .ok {
        vocab, layerSize := size, perSegment, segments
        layerSize_pos := by omega
        fits := Layout.fault?_eq_none_iff.1 h }

/-- **The store of all numbers in one list**, in a single segment, or in segments of at most
`capacity` numbers. The segments are a copy of the numbers, which is taken to have room. -/
def ofDense (vocab : List String) (layerSize : Int) (values : List Binary64)
    (capacity : Option Int) : Except StoreError Store :=
  if (values.length : Int) ≠ vocab.length * layerSize then
    .error (.valueCount vocab.length layerSize values.length)
  else match capacity with
    | none => ofSegments vocab layerSize [values] (some vocab.length)
    | some capacity => do
      let sizes ← (segmentSizes vocab.length layerSize capacity).mapError .capacity
      let perSegment ← (vectorsPerSegment layerSize capacity).mapError .capacity
      ofSegments vocab layerSize (cut sizes values) (some perSegment)

/-! ## Lookup -/

variable (store : Store)

/-- The number of words. -/
def vocabSize : Nat := store.vocab.length

/-- The segment that holds the vector at `index`, and the offset of the vector in it. -/
def locate (index : Int) : Except IndexError (Nat × Nat) :=
  if 0 ≤ index ∧ index < store.vocabSize then
    let perSegment := store.perSegment.toNat
    .ok (index.toNat / perSegment, index.toNat % perSegment * store.layerSize)
  else .error ⟨index, store.vocabSize⟩

/-- The vector at `index`. -/
def vectorAt (index : Int) : Except IndexError (List Binary64) := do
  let (segment, offset) ← store.locate index
  .ok (((store.segments[segment]?.getD []).drop offset).take store.layerSize)

/-! ## Views -/

/-- All numbers, in order. -/
def flatten : List Binary64 := store.segments.flatten

/-- The vectors of one segment. -/
def segmentRows (segment : List Binary64) : List (List Binary64) :=
  chunks store.layerSize (segment.length / store.layerSize) segment

/-- All vectors, segment by segment. -/
def rows : List (List Binary64) := store.segments.flatMap store.segmentRows

/-- All words with their vectors. -/
def entries : List (String × List Binary64) := store.vocab.zip store.rows

/-- Check that the segments can be seen as rows of components of `width` octets. Where the first
segment has numbers, its rows are there. -/
def checkRows (width : Nat) : Except RoomError Unit :=
  match store.segments with
  | [] :: _ => Room.checkRows width store.layerSize
  | _ => .ok ()

/-- Whether the number of words or of components has too many digits to be written. -/
def isTooLong : Bool :=
  Numeral.isTooLong store.vocabSize || Numeral.isTooLong store.layerSize

/-- All words with their vectors, if the segments can be seen as rows. -/
def listEntries : Except RoomError (List (String × List Binary64)) := do
  store.checkRows Room.numberWidth
  .ok store.entries

/-- One line that tells the extent of a model. -/
def modelText : String :=
  s!"Word2VecModel(vocab_size={store.vocabSize}, layer_size={store.layerSize})"

/-- One line that tells the extent of a store. -/
def storeText : String :=
  s!"SegmentedVectorStore(vocab_size={store.vocabSize}, layer_size={store.layerSize}, " ++
    s!"segments={store.segments.length})"

end Store

end WordVectors
