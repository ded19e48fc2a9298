import WordVectors.Proofs.Number.Narrowing
import WordVectors.Search.Numerics

/-!
# The best of a list of scores

Scores are ranked by what they stand for, and what is no number is worth less than every number.
The best `count` of them can be had without sorting them all: a partition of the negated scores sets
them apart, and only what it sets apart is sorted. Which positions these are is up to the partition
where scores are equal, but what they are worth is not: it is what the first `count` scores are
worth once all of them are sorted.

## Main definitions

* `Binary64.standing`: what a score is worth
* `Ranking.IsTop`: the best positions of a list of scores
* `Ranking.Partition.Lawful`: what is required of a partition

## Main results

* `Ranking.outranks_iff`: scores are ranked by what they are worth
* `Ranking.isTop_select`: a partition and a sort find the best positions
* `Ranking.IsTop.map_standing`: what the best positions are worth, and so, by
  `Ranking.IsTop.map_standing_isPrefix`, more of them begin with the same
* `Ranking.select_sortAll`: the ranking of the library is one of these selections
-/

namespace WordVectors

/-! ## What a score is worth -/

/-- Signed magnitudes are in the order of their codes. -/
theorem FloatFormat.signed_le_iff {f : FloatFormat} (s t : Bool) (m n : ℕ) :
    signed s (f.units m) ≤ signed t (f.units n) ↔ signed s m ≤ signed t n := by
  have hle (a b : ℕ) : f.units a ≤ f.units b ↔ a ≤ b := f.units_strictMono.le_iff_le
  have hzero (a : ℕ) : f.units a = 0 ↔ a = 0 := by
    rw [← f.units_zero, f.units_strictMono.injective.eq_iff, f.units_zero]
  have h₁ := hle m n
  have h₂ := hle n m
  have h₃ := hzero m
  have h₄ := hzero n
  cases s <;> cases t <;> simp only [signed, Bool.false_eq_true, if_true, if_false] <;> omega

/-- The other sign makes the rank its opposite. -/
theorem FloatFormat.rank?_neg {f : FloatFormat} (bits : ℕ) :
    f.rank? (f.neg bits) = (f.rank? bits).map (- ·) := by
  have hlt : f.magnitude bits < f.signWeight :=
    Nat.mod_lt _ (Nat.zero_lt_of_lt f.infinity_lt_signWeight)
  simp only [rank?, neg, magnitude_pattern _ hlt, isNegative_pattern _ hlt]
  split
  · rfl
  · cases f.isNegative bits <;> simp

namespace Binary64

/-- **What a score is worth**: less than every number if it is none, and otherwise the number that
it stands for, in units. The two zeros are worth the same. -/
def standing (x : Binary64) : WithBot (WithBotTop ℤ) :=
  match x.datum with
  | .nan => ⊥
  | .infinite negative => ((if negative then ⊥ else ⊤ : WithBotTop ℤ) :)
  | .finite negative units => ((FloatFormat.signed negative units : ℤ) : WithBotTop ℤ)

/-- The rank of a score and what it is worth, for each kind of number. -/
theorem rank?_cases (x : Binary64) :
    (format.rank? x.pattern = none ∧ x.standing = ⊥) ∨
    (∃ s, format.rank? x.pattern = some (FloatFormat.signed s format.infinity) ∧
      x.standing = ((if s then ⊥ else ⊤ : WithBotTop ℤ) :)) ∨
    ∃ s c, c < format.infinity ∧ format.rank? x.pattern = some (FloatFormat.signed s c) ∧
      x.standing = ((FloatFormat.signed s (format.units c) : ℤ) : WithBotTop ℤ) := by
  rcases Nat.lt_trichotomy (format.magnitude x.pattern) format.infinity with h | h | h
  · right; right
    refine ⟨format.isNegative x.pattern, _, h, ?_, ?_⟩
    · rw [FloatFormat.rank?, if_neg (by omega)]
      rfl
    · simp only [standing, datum, FloatFormat.datum]
      rw [if_neg (by omega), if_neg (by omega)]
  · right; left
    refine ⟨format.isNegative x.pattern, ?_, ?_⟩
    · rw [FloatFormat.rank?, if_neg (by omega), h]
      rfl
    · simp only [standing, datum, FloatFormat.datum]
      rw [if_neg (by omega), if_pos h]
  · left
    constructor
    · rw [FloatFormat.rank?, if_pos h]
    · simp only [standing, datum, FloatFormat.datum]
      rw [if_pos h]

theorem rank?_neg (x : Binary64) :
    format.rank? x.neg.pattern = (format.rank? x.pattern).map (- ·) := by
  have hlt : format.magnitude x.pattern < format.signWeight := Nat.mod_lt _ (by decide)
  rw [neg, pattern_ofPattern, FloatFormat.rank?_neg]
  exact FloatFormat.pattern_lt _ hlt

end Binary64

namespace Ranking

/-- **Scores are ranked by what they are worth.** -/
theorem outranks_iff (x y : Binary64) : outranks x y = true ↔ y.standing ≤ x.standing := by
  have hpos : 0 < Binary64.format.infinity := by decide
  rcases y.rank?_cases with ⟨hy, hy'⟩ | hy
  · simp [outranks, hy, hy']
  · rcases x.rank?_cases with ⟨hx, hx'⟩ | ⟨s, hx, hx'⟩ | ⟨s, m, hm, hx, hx'⟩
    · rcases hy with ⟨t, hy, hy'⟩ | ⟨t, n, hn, hy, hy'⟩
      · simp [outranks, hx, hy, hx', hy']
      · simp [outranks, hx, hy, hx', hy']
    · rcases hy with ⟨t, hy, hy'⟩ | ⟨t, n, hn, hy, hy'⟩
      · cases s <;> cases t <;> simp [outranks, hx, hy, hx', hy', FloatFormat.signed]
        omega
      · cases s <;> cases t <;> simp [outranks, hx, hy, hx', hy', FloatFormat.signed] <;> omega
    · rcases hy with ⟨t, hy, hy'⟩ | ⟨t, n, hn, hy, hy'⟩
      · cases s <;> cases t <;> simp [outranks, hx, hy, hx', hy', FloatFormat.signed] <;> omega
      · simp only [outranks, hx, hy, hx', hy', decide_eq_true_eq, WithBot.coe_le_coe,
          WithBotTop.coe_le_coe, FloatFormat.signed_le_iff]

/-- The order of keys is the ranking of what they negate. -/
theorem precedes_eq (x y : Binary64) : precedes x y = outranks x.neg y.neg := by
  rw [precedes, outranks, x.rank?_neg, y.rank?_neg]
  cases Binary64.format.rank? x.pattern <;> cases Binary64.format.rank? y.pattern <;> simp

/-- Negated scores come in the order in which scores are ranked. -/
theorem precedes_neg (x y : Binary64) : precedes x.neg y.neg = outranks x y := by
  rw [precedes, outranks, x.rank?_neg, y.rank?_neg]
  cases Binary64.format.rank? x.pattern <;> cases Binary64.format.rank? y.pattern <;> simp

theorem outranks_trans {x y z : Binary64} (hxy : outranks x y = true)
    (hyz : outranks y z = true) : outranks x z = true := by
  rw [outranks_iff] at hxy hyz ⊢
  exact hyz.trans hxy

theorem outranks_total (x y : Binary64) : (outranks x y || outranks y x) = true := by
  rw [Bool.or_eq_true, outranks_iff, outranks_iff]
  exact le_total _ _

theorem precedes_trans {x y z : Binary64} (hxy : precedes x y = true)
    (hyz : precedes y z = true) : precedes x z = true := by
  rw [precedes_eq] at hxy hyz ⊢
  exact outranks_trans hxy hyz

theorem precedes_total (x y : Binary64) : (precedes x y || precedes y x) = true := by
  rw [precedes_eq, precedes_eq]
  exact outranks_total _ _

/-! ## Partitions -/

/-- **The laws of a partition**: every position is listed once, and the key at the given place is
where sorting would put it. -/
structure Partition.Lawful (partition : Partition) : Prop where
  perm (keys : List Binary64) {place : ℕ} (h : place < keys.length) :
    (partition keys place).Perm (List.range keys.length)
  /-- The keys in front of the place come before the key at it. -/
  before (keys : List Binary64) {place : ℕ} (h : place < keys.length) :
    ∀ i ∈ (partition keys place).take place, ∀ k ∈ (partition keys place)[place]?,
      ∀ x ∈ keys[i]?, ∀ y ∈ keys[k]?, precedes x y = true
  /-- The keys behind the place come after the key at it. -/
  behind (keys : List Binary64) {place : ℕ} (h : place < keys.length) :
    ∀ k ∈ (partition keys place)[place]?, ∀ j ∈ (partition keys place).drop (place + 1),
      ∀ x ∈ keys[k]?, ∀ y ∈ keys[j]?, precedes x y = true

variable {partition : Partition}

/-- What is set apart comes before all the rest. -/
theorem Partition.Lawful.precedes (h : partition.Lawful) (keys : List Binary64) {place : ℕ}
    (hplace : place < keys.length) {i j : ℕ} (hi : i ∈ (partition keys place).take (place + 1))
    (hj : j ∈ (partition keys place).drop (place + 1)) {x y : Binary64} (hx : keys[i]? = some x)
    (hy : keys[j]? = some y) : Ranking.precedes x y = true := by
  have hperm := h.perm keys hplace
  have hlength : place < (partition keys place).length := by
    rwa [hperm.length_eq, List.length_range]
  have hpivot := List.getElem?_eq_getElem hlength
  have hmem : (partition keys place)[place] < keys.length :=
    List.mem_range.1 (hperm.mem_iff.1 (List.getElem_mem hlength))
  have hkey := List.getElem?_eq_getElem hmem
  have hbehind := h.behind keys hplace _ hpivot j hj _ hkey y hy
  rw [List.take_add_one, hpivot, Option.toList_some, List.mem_append, List.mem_singleton] at hi
  rcases hi with hi | rfl
  · exact precedes_trans (h.before keys hplace i hi _ hpivot x hx _ hkey) hbehind
  · obtain rfl := Option.some.inj (hkey.symm.trans hx)
    exact hbehind

theorem sortAll_perm (keys : List Binary64) (place : ℕ) :
    (sortAll keys place).Perm (List.range keys.length) :=
  List.mergeSort_perm _ _

/-- Sorted keys come in order, wherever they are parted. -/
theorem precedes_of_mem_sortAll {keys : List Binary64} {place n i j : ℕ} {x y : Binary64}
    (hi : i ∈ (sortAll keys place).take n) (hj : j ∈ (sortAll keys place).drop n)
    (hx : keys[i]? = some x) (hy : keys[j]? = some y) : precedes x y = true := by
  have hsorted : (sortAll keys place).Pairwise fun i j =>
      precedes (keys.getD i .zero) (keys.getD j .zero) = true := by
    apply List.pairwise_mergeSort
    · intro a b c hab hbc
      exact precedes_trans hab hbc
    · intro a b
      exact precedes_total _ _
  rw [← List.take_append_drop n (sortAll keys place), List.pairwise_append] at hsorted
  have hparted := hsorted.2.2 i hi j hj
  rwa [List.getD_eq_getElem?_getD, hx, List.getD_eq_getElem?_getD, hy] at hparted

/-- **Sorting all keys is a partition.** -/
theorem sortAll_lawful : Partition.Lawful sortAll where
  perm keys place _ := sortAll_perm keys place
  before keys place _ := by
    intro i hi k hk x hx y hy
    have hmem : k ∈ (sortAll keys place).drop place := by
      apply List.mem_of_getElem? (i := 0)
      rwa [List.getElem?_drop, Nat.add_zero]
    exact precedes_of_mem_sortAll hi hmem hx hy
  behind keys place _ := by
    intro k hk j hj x hx y hy
    have hmem : k ∈ (sortAll keys place).take (place + 1) := by
      apply List.mem_of_getElem? (i := place)
      rwa [List.getElem?_take_of_lt (Nat.lt_succ_self place)]
    exact precedes_of_mem_sortAll hmem hj hx hy

/-! ## The best positions -/

/-- **The best positions of a list of scores**, best first: as many as wanted or as there are, none
twice, each with its score, and none of the others is worth more. -/
structure IsTop (count : ℕ) (scores : List Binary64) (best : List (ℕ × Binary64)) : Prop where
  length_eq : best.length = min count scores.length
  nodup : (best.map Prod.fst).Nodup
  score : ∀ hit ∈ best, scores[hit.1]? = some hit.2
  sorted : best.Pairwise fun a b => b.2.standing ≤ a.2.standing
  top : ∀ hit ∈ best, ∀ i ∉ best.map Prod.fst, ∀ x ∈ scores[i]?, x.standing ≤ hit.2.standing

/-- What is found is what was set apart, each position with its score. -/
theorem select_perm (partition : Partition) (count : ℕ) (scores : List Binary64) :
    (select partition count scores).Perm
      (((partition (scores.map Binary64.neg) (count - 1)).take count).map
        fun i => (i, scores.getD i .zero)) :=
  List.mergeSort_perm _ _

theorem map_fst_select_perm (partition : Partition) (count : ℕ) (scores : List Binary64) :
    ((select partition count scores).map Prod.fst).Perm
      ((partition (scores.map Binary64.neg) (count - 1)).take count) := by
  have hmap := (select_perm partition count scores).map Prod.fst
  have hfirst : Prod.fst ∘ (fun i => (i, scores.getD i .zero)) = id := rfl
  rwa [List.map_map, hfirst, List.map_id] at hmap

/-- What is found is listed by what it is worth. -/
theorem select_pairwise (partition : Partition) (count : ℕ) (scores : List Binary64) :
    (select partition count scores).Pairwise fun a b => b.2.standing ≤ a.2.standing := by
  rw [select]
  refine (List.pairwise_mergeSort ?_ ?_ _).imp ?_
  · intro a b c hab hbc
    exact precedes_trans hab hbc
  · intro a b
    exact precedes_total _ _
  · intro a b hab
    rwa [precedes_neg, outranks_iff] at hab

/-- **A partition and a sort find the best positions.** -/
theorem isTop_select (h : partition.Lawful) {count : ℕ} {scores : List Binary64}
    (hpos : 0 < count) (hle : count ≤ scores.length) :
    IsTop count scores (select partition count scores) := by
  have hplace : count - 1 < (scores.map Binary64.neg).length := by
    rw [List.length_map]
    omega
  have hperm := h.perm (scores.map Binary64.neg) hplace
  have hfound := select_perm partition count scores
  have hpositions := map_fst_select_perm partition count scores
  have hapart := fun {i j : ℕ} {x y : Binary64} =>
    h.precedes (scores.map Binary64.neg) hplace (i := i) (j := j) (x := x) (y := y)
  rw [Nat.sub_add_cancel hpos] at hapart
  rw [List.length_map] at hperm
  generalize partition (scores.map Binary64.neg) (count - 1) = order
    at hperm hfound hpositions hapart
  have hscore : ∀ hit ∈ select partition count scores, scores[hit.1]? = some hit.2 := by
    intro hit hhit
    obtain ⟨i, hi, rfl⟩ := List.mem_map.1 (hfound.mem_iff.1 hhit)
    have hlt : i < scores.length := List.mem_range.1 (hperm.mem_iff.1 (List.mem_of_mem_take hi))
    rw [List.getD_eq_getElem _ _ hlt]
    exact List.getElem?_eq_getElem hlt
  refine ⟨?_, ?_, hscore, select_pairwise partition count scores, ?_⟩
  · rw [hfound.length_eq, List.length_map, List.length_take, hperm.length_eq, List.length_range]
  · rw [hpositions.nodup_iff]
    exact (hperm.nodup_iff.2 List.nodup_range).sublist (List.take_sublist _ _)
  · intro hit hhit i hi x hx
    have hin : hit.1 ∈ order.take count :=
      hpositions.mem_iff.1 (List.mem_map_of_mem hhit)
    rw [hpositions.mem_iff] at hi
    have hlt : i < scores.length := (List.getElem?_eq_some_iff.1 hx).1
    have hmem : i ∈ order := hperm.mem_iff.2 (List.mem_range.2 hlt)
    rw [← List.take_append_drop count order, List.mem_append] at hmem
    have hkeys {j : ℕ} {y : Binary64} (hy : scores[j]? = some y) :
        (scores.map Binary64.neg)[j]? = some y.neg := by
      rw [List.getElem?_map, hy, Option.map_some]
    have hprecedes := hapart hin (hmem.resolve_left hi) (hkeys (hscore hit hhit)) (hkeys hx)
    rwa [precedes_neg, outranks_iff] at hprecedes

variable {count : ℕ} {scores : List Binary64} {best : List (ℕ × Binary64)}

/-- The items of a list are those at its positions. -/
theorem map_getD_range {α β : Type} (f : α → β) (xs : List α) (d : α) :
    (List.range xs.length).map (fun i => f (xs.getD i d)) = xs.map f := by
  apply List.ext_getElem
  · simp
  · intro i hi _
    have hlt : i < xs.length := by simpa using hi
    simp [hlt]

/-- The best positions and the others are all positions. -/
theorem IsTop.positions_perm (h : IsTop count scores best) :
    (best.map Prod.fst ++ (List.range scores.length).filter fun i => i ∉ best.map Prod.fst).Perm
      (List.range scores.length) := by
  have hdisjoint : List.Disjoint (best.map Prod.fst)
      ((List.range scores.length).filter fun i => i ∉ best.map Prod.fst) := by
    intro i hi hother
    obtain ⟨-, hnot⟩ := List.mem_filter.1 hother
    exact of_decide_eq_true hnot hi
  rw [List.perm_ext_iff_of_nodup (h.nodup.append (List.nodup_range.filter _) hdisjoint)
    List.nodup_range]
  intro i
  rw [List.mem_append, List.mem_filter, decide_eq_true_eq]
  constructor
  · rintro (hi | hi)
    · obtain ⟨hit, hhit, rfl⟩ := List.mem_map.1 hi
      exact List.mem_range.2 (List.getElem?_eq_some_iff.1 (h.score hit hhit)).1
    · exact hi.1
  · intro hi
    by_cases hmem : i ∈ best.map Prod.fst
    · exact .inl hmem
    · exact .inr ⟨hi, hmem⟩

/-- **What the best positions are worth** is what the first scores are worth when all of them are
sorted. -/
theorem IsTop.map_standing (h : IsTop count scores best) :
    best.map (fun hit => hit.2.standing) =
      ((scores.map Binary64.standing).mergeSort fun a b => b ≤ a).take count := by
  let worth := fun i => (scores.getD i .zero).standing
  let others := (List.range scores.length).filter fun i => i ∉ best.map Prod.fst
  let rest := (others.map worth).mergeSort fun a b => b ≤ a
  have hworth : best.map (fun hit => hit.2.standing) = (best.map Prod.fst).map worth := by
    rw [List.map_map]
    apply List.map_congr_left
    intro hit hhit
    simp [worth, h.score hit hhit]
  have hperm : (best.map (fun hit => hit.2.standing) ++ rest).Perm
      (scores.map Binary64.standing) := by
    rw [hworth, ← map_getD_range Binary64.standing scores .zero]
    have hall := h.positions_perm.map worth
    rw [List.map_append] at hall
    exact ((List.mergeSort_perm _ _).append_left _).trans hall
  have hdescending (xs : List (WithBot (WithBotTop ℤ))) :
      (xs.mergeSort fun a b => b ≤ a).Pairwise fun a b => b ≤ a := by
    refine (List.pairwise_mergeSort ?_ ?_ xs).imp of_decide_eq_true
    · intro a b c hab hbc
      exact decide_eq_true ((of_decide_eq_true hbc).trans (of_decide_eq_true hab))
    · intro a b
      simpa using le_total b a
  have hsorted : (best.map (fun hit => hit.2.standing) ++ rest).Pairwise fun a b => b ≤ a := by
    rw [List.pairwise_append, List.pairwise_map]
    refine ⟨h.sorted, hdescending _, ?_⟩
    intro a ha b hb
    obtain ⟨hit, hhit, rfl⟩ := List.mem_map.1 ha
    obtain ⟨i, hi, rfl⟩ := List.mem_map.1 ((List.mergeSort_perm _ _).mem_iff.1 hb)
    obtain ⟨hrange, hother⟩ := List.mem_filter.1 hi
    have hlt : i < scores.length := List.mem_range.1 hrange
    have hscore : scores[i]? = some (scores.getD i .zero) := by
      simp [hlt]
    exact h.top hit hhit i (of_decide_eq_true hother) _ hscore
  have heq := List.Perm.eq_of_pairwise (fun a b _ _ hab hba => le_antisymm hba hab) hsorted
    (hdescending (scores.map Binary64.standing)) (hperm.trans (List.mergeSort_perm _ _).symm)
  rw [← heq, List.take_eq_take_min, hperm.length_eq, List.length_map, ← h.length_eq,
    List.take_left' (List.length_map _)]

/-- **More of the best positions begin with the same worth.** -/
theorem IsTop.map_standing_isPrefix {count' : ℕ} {best' : List (ℕ × Binary64)}
    (h : IsTop count scores best) (h' : IsTop count' scores best') (hle : count ≤ count') :
    best.map (fun hit => hit.2.standing) <+: best'.map fun hit => hit.2.standing := by
  rw [h.map_standing, h'.map_standing]
  exact List.take_prefix_take_left hle

/-- **The ranking of the library is the selection by the partition that sorts.** -/
theorem select_sortAll (count : ℕ) (scores : List Binary64) :
    select sortAll count scores = Ranking.best count scores := by
  have horder : (fun a b : ℕ × Binary64 => precedes a.2.neg b.2.neg) =
      fun a b => outranks a.2 b.2 := by
    funext a b
    exact precedes_neg a.2 b.2
  have hitems : (List.range scores.length).map (fun i => (i, scores.getD i .zero)) =
      scores.zipIdx.map Prod.swap := by
    apply List.ext_getElem
    · simp
    · intro i hi _
      have hlt : i < scores.length := by simpa using hi
      simp [hlt]
  -- Sorting the positions by their keys is sorting them with their scores.
  have hsorted : (sortAll (scores.map Binary64.neg) (count - 1)).map
      (fun i => (i, scores.getD i .zero)) = ranked scores := by
    have hranked : ranked scores =
        (scores.zipIdx.map Prod.swap).mergeSort fun a b => outranks a.2 b.2 := rfl
    rw [sortAll, hranked, ← hitems, ← horder, List.length_map]
    apply List.map_mergeSort
    intro i hi j hj
    rw [List.mem_range] at hi hj
    simp [hi, hj]
  have hranked : ((ranked scores).take count).Pairwise fun a b => outranks a.2 b.2 = true := by
    refine (List.pairwise_mergeSort ?_ ?_ _).sublist (List.take_sublist _ _)
    · intro a b c hab hbc
      exact outranks_trans hab hbc
    · intro a b
      exact outranks_total _ _
  rw [select, List.map_take, hsorted, horder, best, List.mergeSort_of_pairwise hranked]

end Ranking

end WordVectors
