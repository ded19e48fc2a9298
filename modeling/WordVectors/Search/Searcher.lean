import WordVectors.Error
import WordVectors.Json.Numbers
import WordVectors.Search.Ranking
import WordVectors.Search.Similarity

/-!
# Searchers

A searcher finds the words of a model that are closest to a word or a vector. The direct searcher
scores the stored vectors themselves; the normalized one keeps a copy of them with numbers of
four octets and norm one in an index, so that a scalar product is a score. The index comes from a
library. What it can be made for, how it normalizes rows and how it is searched is left open, up to
one set of routines that always serves.

## Main definitions

* `Query`: a word or a vector
* `RowSearch`, `flatSearch`: searches of an index, and the one that compares all its rows
* `IndexRoutines`, `IndexRoutines.standard`: what an index is made with, and what always serves
* `Searcher`, `Searcher.ofStore`: a model with a backend
* `Searcher.index`: the rows in which the normalized backend searches
* `Searcher.nearest`: the closest words to a query
* `Searcher.similarity`, `Searcher.offset`, `Searcher.analogies`: questions about pairs of words
-/

namespace WordVectors

/-- What the closest words are asked for. -/
inductive Query where
  | word (word : String)
  | vector (components : List Binary64)

/-- **A word ranked against a query.** -/
structure Hit where
  /-- The position of the word. -/
  index : Nat
  word : String
  /-- The score of the word. -/
  score : Binary64

/-- **A search of an index.** Given the rows, a query and the number of answers that are wanted, it
answers with positions of rows and their scores. An answer may be without a position. -/
abbrev RowSearch := List (List Binary32) → List Binary32 → Nat → List (Option Nat × Binary64)

/-- **The search that compares all rows.** A score that is no number comes without a position. -/
def flatSearch : RowSearch := fun rows query count =>
  let scores := rows.map fun row => (Similarity.dot32 row query).widen
  (Ranking.best count scores).map fun (i, score) => (if score.isNaN then none else some i, score)

/-- **The routines of an index.** -/
structure IndexRoutines where
  /-- Whether an index can be made for vectors of that many components. -/
  admits : (layerSize : Nat) → Bool
  /-- A row with norm one, if it can have that. -/
  normalize : List Binary32 → List Binary32
  search : RowSearch

/-- The routines that compare all rows. Numbers of components are below a limit. -/
def IndexRoutines.standard : IndexRoutines where
  admits layerSize := layerSize < Room.sizeLimit
  normalize := Similarity.normalize32
  search := flatSearch

/-- **A model that is searched.** -/
structure Searcher where
  store : Store
  /-- How it is searched. -/
  backend : Backend

namespace Searcher

variable (routines : IndexRoutines)

/-- **The searcher of a model**, if its vectors can be laid out. The normalized copy has an index of
its own. -/
def ofStore (store : Store) (backend : Backend) : Except RoomError Searcher :=
  match store.checkRows Room.numberWidth with
  | .error e => .error e
  | .ok () =>
    if backend = .normalized && !routines.admits store.layerSize then .error .index
    else .ok ⟨store, backend⟩

variable (s : Searcher)

/-! ## Words -/

/-- Whether a word is in the vocabulary. -/
def contains (word : String) : Bool := s.store.vocab.contains word

/-- The position of a word; of several occurrences, the first. -/
def indexOf (word : String) : Except ModelError Nat :=
  match s.store.vocab.findIdx? (· == word) with
  | some i => .ok i
  | none => .error (.unknownWord word)

/-- The vector of a word. -/
def vectorOf (word : String) : Except ModelError (List Binary64) := do
  let i ← s.indexOf word
  (s.store.vectorAt i).mapError .index

/-- The vector of a query, which has one component per component of the model. -/
def queryVector : Query → Except ModelError (List Binary64)
  | .word word => s.vectorOf word
  | .vector xs =>
    if xs.length ≠ s.store.layerSize then .error (.query xs.length s.store.layerSize)
    else .ok xs

/-! ## The index -/

/-- The index with the rows of one more segment behind its own, narrowed and normalized. A segment
without rows leaves it as it is. -/
def addSegment (index : List (List Binary32)) (segment : List Binary64) : List (List Binary32) :=
  let rows := (s.store.segmentRows segment).map fun row => row.map Binary64.narrow
  if rows.isEmpty then index else index ++ rows.map routines.normalize

/-- **The index of the normalized backend**, to which the segments are added one at a time, so that
only one of them is copied at once. A row has no word: its place is all that tells whose it is. -/
def index : List (List Binary32) := s.store.segments.foldl (addSegment routines s) []

/-! ## Closest words -/

/-- The hits of ranked positions. -/
def hits (ranked : List (Nat × Binary64)) : List Hit :=
  ranked.filterMap fun (i, score) => s.store.vocab[i]?.map fun word => ⟨i, word, score⟩

/-- The scores of all words against a vector. -/
def directScores (query : List Binary64) : List Binary64 :=
  s.store.rows.map fun row => Similarity.score row query

/-- The closest words by the direct scores. -/
def nearestDirect (query : List Binary64) (count : Int) : List Hit :=
  if count ≤ 0 || s.store.vocab.isEmpty then []
  else
    let scores := s.directScores query
    s.hits (Ranking.best (min count.toNat scores.length) scores)

/-- The closest words by the rows of the index. A query of norm zero has no direction and is
answered by the direct scores. -/
def nearestNormalized (query : List Binary64) (count : Int) : List Hit :=
  let rows := s.index routines
  if count ≤ 0 || rows.isEmpty then []
  else
    let norm := Similarity.norm query
    if norm.isZero then s.nearestDirect query count
    else
      let unit := query.map fun x => (x.div norm).narrow
      let answers := routines.search rows unit (min count.toNat rows.length)
      s.hits (answers.filterMap fun (i?, score) => i?.map fun i => (i, score))

/-- The closest words to a query, with given routines of the index. -/
def nearestBy (query : Query) (count : Int) : Except ModelError (List Hit) := do
  let vector ← s.queryVector query
  match s.backend with
  | .direct => .ok (s.nearestDirect vector count)
  | .normalized => .ok (s.nearestNormalized routines vector count)

/-- **The closest words to a query**, at most `count` of them, best first. -/
def nearest (query : Query) (count : Int) : Except ModelError (List Hit) :=
  s.nearestBy .standard query count

/-! ## Pairs of words -/

/-- The similarity of two words. -/
def similarity (first second : String) : Except ModelError Binary64 := do
  let xs ← s.vectorOf first
  let ys ← s.vectorOf second
  .ok (Similarity.score xs ys)

/-- The vector from the second word to the first. -/
def offset (first second : String) : Except ModelError (List Binary64) := do
  let xs ← s.vectorOf first
  let ys ← s.vectorOf second
  .ok (Similarity.sub xs ys)

/-- The closest words to `word` moved back by an offset: those that are to `word` as the second
word of the offset is to the first. -/
def analogies (offset : List Binary64) (word : String) (count : Int) :
    Except ModelError (List Hit) := do
  let xs ← s.vectorOf word
  s.nearest (.vector (Similarity.sub xs offset)) count

end Searcher

end WordVectors
