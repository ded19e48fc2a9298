import WordVectors.Search.Searcher

/-!
# The numeric routines of a search

The direct searcher rests on routines of an array library: scalar products, norms, and a partition
that sets the least keys apart without putting them in order. How a sum is rounded, and in which
order equal keys come, is up to that library, so the routines are left open here. What the searcher
itself does is kept as it is: the norms are computed once for each segment, the scores of the
segments are joined, the negated scores are partitioned, and the chosen part is sorted.

## Main definitions

* `Ranking.Partition`, `Ranking.select`: the best scores by a partition and a sort
* `Numerics`, `Numerics.standard`: the routines, and those that the searcher of the library uses
* `Numerics.score`: the similarity of two vectors by given routines
* `Searcher.scoresWith`, `Searcher.nearestWith`, `Searcher.similarityWith`: the direct searcher with
  given routines
-/

namespace WordVectors

/-! ## Selection -/

namespace Ranking

/-- Whether a key comes before or together with another, the least one first. What is no number
comes last. -/
def precedes (x y : Binary64) : Bool :=
  match Binary64.format.rank? x.pattern, Binary64.format.rank? y.pattern with
  | _, none => true
  | none, some _ => false
  | some m, some n => m ≤ n

/-- **A partition of keys.** Given keys and a place among them, it lists their positions so that the
key at this place is where sorting would put it, behind those that precede it. -/
abbrev Partition := List Binary64 → Nat → List Nat

/-- The partition that sorts the keys, whatever the place. -/
def sortAll : Partition := fun keys _ =>
  (List.range keys.length).mergeSort fun i j =>
    precedes (keys.getD i .zero) (keys.getD j .zero)

/-- **The positions of the `count` best scores**, best first: those of the least negated scores, set
apart by a partition and then sorted. Positions with equal scores stay as the partition has
them. -/
def select (partition : Partition) (count : Nat) (scores : List Binary64) :
    List (Nat × Binary64) :=
  let chosen := (partition (scores.map Binary64.neg) (count - 1)).take count
  (chosen.map fun i => (i, scores.getD i .zero)).mergeSort fun a b => precedes a.2.neg b.2.neg

end Ranking

/-! ## Routines -/

/-- **The numeric routines that a search rests on.** -/
structure Numerics where
  /-- The scalar product of two vectors. -/
  dot : List Binary64 → List Binary64 → Binary64
  /-- The Euclidean norm of a vector. -/
  norm : List Binary64 → Binary64
  partition : Ranking.Partition

/-- The routines with which `Searcher.nearest` searches. -/
def Numerics.standard : Numerics := ⟨Similarity.dot, Similarity.norm, Ranking.sortAll⟩

/-- **The similarity of two vectors**, zero if the product of their norms is zero. -/
def Numerics.score (r : Numerics) (xs ys : List Binary64) : Binary64 :=
  let denominator := (r.norm xs).mul (r.norm ys)
  if denominator.isZero then .zero else (r.dot xs ys).div denominator

/-! ## Searches -/

namespace Searcher

variable (r : Numerics) (s : Searcher)

/-- The norms of the vectors, segment by segment. They are computed before any query is known. -/
def segmentNorms : List (List Binary64) :=
  s.store.segments.map fun segment => (s.store.segmentRows segment).map r.norm

/-- The scores of one segment, given the norms of its vectors and that of the query. The scores are
zero where they are not overwritten, and a quotient is written only where the product of the norms
is not zero. -/
def segmentScores (query : List Binary64) (norm : Binary64) (segment norms : List Binary64) :
    List Binary64 :=
  let dots := (s.store.segmentRows segment).map fun row => r.dot row query
  let denominators := norms.map fun x => x.mul norm
  List.zipWith (fun dot denominator => if denominator.isZero then .zero else dot.div denominator)
    dots denominators

/-- **The scores of all words** against a vector, those of the segments joined. -/
def scoresWith (query : List Binary64) : List Binary64 :=
  let norm := r.norm query
  (s.store.segments.zip (s.segmentNorms r)).flatMap fun (segment, norms) =>
    s.segmentScores r query norm segment norms

/-- **The closest words to a query**, best first, with given routines. -/
def nearestWith (query : Query) (count : Int) : Except ModelError (List Hit) := do
  let vector ← s.queryVector query
  if count ≤ 0 || s.store.vocab.isEmpty then .ok []
  else
    let scores := s.scoresWith r vector
    .ok (s.hits (Ranking.select r.partition (min count.toNat scores.length) scores))

/-- The similarity of two words, by their vectors, with given routines. -/
def similarityWith (first second : String) : Except ModelError Binary64 := do
  let xs ← s.vectorOf first
  let ys ← s.vectorOf second
  let denominator := (r.norm xs).mul (r.norm ys)
  if denominator.isZero then .ok .zero
  else .ok ((r.dot xs ys).div denominator)

end Searcher

end WordVectors
