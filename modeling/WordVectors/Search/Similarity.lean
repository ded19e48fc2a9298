import WordVectors.Number.Binary

/-!
# Similarity of vectors

The similarity of two vectors is their scalar product divided by the product of their norms. A
vector of norm zero has similarity zero to every vector.

## Main definitions

* `Similarity.dot`, `Similarity.norm`: scalar product and Euclidean norm
* `Similarity.score`: the similarity of two vectors
* `Similarity.normalize32`, `Similarity.dot32`: the same with numbers of four octets

## Main results

* `Similarity.dot_comm`: the scalar product is symmetric
-/

namespace WordVectors.Similarity

/-! ## Eight octets -/

/-- The scalar product of two vectors, summed from the front. -/
def dot (xs ys : List Binary64) : Binary64 :=
  (List.zipWith Binary64.mul xs ys).foldl Binary64.add .zero

/-- The Euclidean norm of a vector. -/
def norm (xs : List Binary64) : Binary64 := (dot xs xs).sqrt

/-- The componentwise difference of two vectors. -/
def sub (xs ys : List Binary64) : List Binary64 := List.zipWith Binary64.sub xs ys

/-- **The similarity of two vectors**, zero if the product of their norms is zero. -/
def score (xs ys : List Binary64) : Binary64 :=
  let denominator := (norm xs).mul (norm ys)
  if denominator.isZero then .zero else (dot xs ys).div denominator

theorem dot_comm (xs ys : List Binary64) : dot xs ys = dot ys xs := by
  unfold dot
  rw [List.zipWith_comm_of_comm]
  intro x y
  exact Binary64.mul_comm x y

/-! ## Four octets -/

/-- The scalar product of two vectors, summed from the front. -/
def dot32 (xs ys : List Binary32) : Binary32 :=
  (List.zipWith Binary32.mul xs ys).foldl Binary32.add .zero

/-- A vector divided by its norm; one whose squares do not sum to more than zero is left as it
is. -/
def normalize32 (xs : List Binary32) : List Binary32 :=
  let square := dot32 xs xs
  if square.isAboveZero then
    let factor := Binary32.one.div square.sqrt
    xs.map fun x => x.mul factor
  else xs

end WordVectors.Similarity
