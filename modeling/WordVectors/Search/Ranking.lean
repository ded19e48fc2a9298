import WordVectors.Number.Binary

/-!
# Rankings

A ranking lists positions by their scores, best first. What is not a number ranks below every
number, and positions with equal scores keep their order.

## Main definitions

* `Ranking.outranks`: when a score comes before or together with another
* `Ranking.best`: the first positions of a list of scores

## Main results

* `Ranking.length_best`, `Ranking.nodup_best`, `Ranking.lt_of_mem_best`: as many positions as are
  asked for or there are, and none twice
-/

namespace WordVectors.Ranking

/-- Whether a score ranks at least as high as another. -/
def outranks (x y : Binary64) : Bool :=
  match Binary64.format.rank? x.pattern, Binary64.format.rank? y.pattern with
  | _, none => true
  | none, some _ => false
  | some m, some n => n ≤ m

/-- The positions of a list of scores with the scores, best first. -/
def ranked (scores : List Binary64) : List (Nat × Binary64) :=
  (scores.zipIdx.map fun (x, i) => (i, x)).mergeSort fun a b => outranks a.2 b.2

/-- **The first `count` positions** of a list of scores, best first. -/
def best (count : Nat) (scores : List Binary64) : List (Nat × Binary64) :=
  (ranked scores).take count

variable {scores : List Binary64}

/-- **Every position is ranked once.** -/
theorem map_fst_ranked_perm (scores : List Binary64) :
    ((ranked scores).map Prod.fst).Perm (List.range scores.length) := by
  have hsorted := (List.mergeSort_perm (scores.zipIdx.map fun (x, i) => (i, x))
    fun a b => outranks a.2 b.2).map Prod.fst
  rw [List.map_map] at hsorted
  rw [List.range_eq_range', ← List.zipIdx_map_snd 0 scores]
  exact hsorted

theorem length_best (count : Nat) (scores : List Binary64) :
    (best count scores).length = min count scores.length := by
  have hlength := (map_fst_ranked_perm scores).length_eq
  rw [List.length_map, List.length_range] at hlength
  rw [best, List.length_take, hlength]

/-- No position is among the best twice. -/
theorem nodup_best (count : Nat) (scores : List Binary64) :
    ((best count scores).map Prod.fst).Nodup := by
  have hnodup := (map_fst_ranked_perm scores).nodup_iff.2 List.nodup_range
  rw [best, List.map_take]
  exact hnodup.sublist (List.take_sublist _ _)

theorem lt_of_mem_best {count : Nat} {hit : Nat × Binary64} (h : hit ∈ best count scores) :
    hit.1 < scores.length := by
  have hmem := List.mem_map_of_mem (f := Prod.fst) (List.mem_of_mem_take h)
  exact List.mem_range.1 ((map_fst_ranked_perm scores).mem_iff.1 hmem)

end WordVectors.Ranking
