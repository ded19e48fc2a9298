import WordVectors.Proofs.Search.Backends
import WordVectors.Proofs.Search.Selection

/-!
# The direct searcher

The direct searcher finds the words whose vectors have the best scores, whichever way an array
library rounds its sums and parts equal keys. A score is computed in two ways: in a ranking from the
norms of a segment, computed in advance, and for a pair of words from their two vectors. Both come
to the same number at every position, wherever the segments end and whatever the norms are.

## Main definitions

* `Numerics.Lawful`: what is required of the numeric routines

## Main results

* `Searcher.scoresWith_eq`: the scores of the segments are those of the vectors
* `Searcher.indexOf_eq_ok_iff`, `Searcher.indexOf_eq_error_iff`: where a word is
* `Searcher.queryVector_word_eq_ok_iff`, `Searcher.queryVector_vector_eq_ok_iff`: which vector a
  query has
* `Searcher.nearest_top`: the closest words are the best of the scores
* `Searcher.scores_agree`: a score in a ranking and the similarity of two words
-/

namespace WordVectors

/-! ## Numeric routines -/

/-- **The laws of the numeric routines**: a scalar product does not depend on the order of its
vectors, and a partition parts the keys. -/
structure Numerics.Lawful (r : Numerics) : Prop where
  dot_comm (xs ys : List Binary64) (h : xs.length = ys.length) : r.dot xs ys = r.dot ys xs
  partition : r.partition.Lawful

theorem Numerics.standard_lawful : Numerics.standard.Lawful where
  dot_comm xs ys _ := Similarity.dot_comm xs ys
  partition := Ranking.sortAll_lawful

theorem Numerics.Lawful.score_comm {r : Numerics} (h : r.Lawful) {xs ys : List Binary64}
    (hlength : xs.length = ys.length) : r.score xs ys = r.score ys xs := by
  simp only [Numerics.score, h.dot_comm xs ys hlength, Binary64.mul_comm (r.norm xs)]

/-- The vector at the place of a row. -/
theorem Store.vectorAt_eq_of_rows {store : Store} {i : ℕ} {xs : List Binary64}
    (h : store.rows[i]? = some xs) : store.vectorAt i = .ok xs := by
  rw [← store.map_snd_entries, List.getElem?_map, Option.map_eq_some_iff] at h
  obtain ⟨entry, hentry, rfl⟩ := h
  exact vectorAt_eq_of_entries hentry

theorem Store.exists_row {store : Store} {i : ℕ} (h : i < store.vocabSize) :
    ∃ xs, store.rows[i]? = some xs ∧ xs.length = store.layerSize := by
  rw [← store.length_rows] at h
  exact ⟨_, List.getElem?_eq_getElem h, store.length_of_mem_rows _ (List.getElem_mem h)⟩

namespace Searcher

variable {r : Numerics} {s : Searcher} {word : String} {query : Query} {vector : List Binary64}
  {count : ℤ}

/-! ## Scores -/

/-- Where the norms are those of its vectors, the scores of a segment are those of its vectors. -/
theorem segmentScores_eq (r : Numerics) (s : Searcher) (vector segment : List Binary64) :
    s.segmentScores r vector (r.norm vector) segment
        ((s.store.segmentRows segment).map r.norm) =
      (s.store.segmentRows segment).map fun row => r.score row vector := by
  simp only [segmentScores, List.map_map, List.zipWith_map, List.zipWith_self]
  rfl

/-- **The scores of the segments, joined, are those of all vectors**, in order. -/
theorem scoresWith_eq (r : Numerics) (s : Searcher) (vector : List Binary64) :
    s.scoresWith r vector = s.store.rows.map fun row => r.score row vector := by
  have hzip : s.store.segments.zip (s.segmentNorms r) = s.store.segments.map fun segment =>
      (segment, (s.store.segmentRows segment).map r.norm) := by
    symm
    apply List.zip_of_prod
    · simp [Function.comp_def]
    · simp [Function.comp_def, segmentNorms]
  simp only [scoresWith, hzip, List.flatMap_map, segmentScores_eq, Store.rows, List.map_flatMap]

@[simp] theorem length_scoresWith (r : Numerics) (s : Searcher) (vector : List Binary64) :
    (s.scoresWith r vector).length = s.store.vocabSize := by
  rw [scoresWith_eq, List.length_map, s.store.length_rows]

/-- A score is that of the vector at its position. -/
theorem exists_of_getElem?_scoresWith {i : ℕ} {score : Binary64}
    (h : (s.scoresWith r vector)[i]? = some score) :
    ∃ xs, s.store.vectorAt i = .ok xs ∧ score = r.score xs vector := by
  rw [scoresWith_eq, List.getElem?_map, Option.map_eq_some_iff] at h
  obtain ⟨xs, hrow, rfl⟩ := h
  exact ⟨xs, Store.vectorAt_eq_of_rows hrow, rfl⟩

theorem scoresWith_standard (s : Searcher) (vector : List Binary64) :
    s.scoresWith .standard vector = s.directScores vector :=
  s.scoresWith_eq .standard vector

/-! ## Words -/

/-- **A word is found at its first position.** -/
theorem indexOf_eq_ok_iff {i : ℕ} :
    s.indexOf word = .ok i ↔
      s.store.vocab[i]? = some word ∧ ∀ j < i, s.store.vocab[j]? ≠ some word := by
  have hfirst : s.store.vocab.findIdx? (· == word) = some i ↔
      s.store.vocab[i]? = some word ∧ ∀ j < i, s.store.vocab[j]? ≠ some word := by
    rw [List.findIdx?_eq_some_iff_getElem]
    constructor
    · rintro ⟨hlt, hword, hbefore⟩
      refine ⟨by simpa [hlt] using hword, ?_⟩
      intro j hj
      have hlt' : j < s.store.vocab.length := hj.trans hlt
      simpa [hlt'] using hbefore j hj
    · rintro ⟨hword, hbefore⟩
      obtain ⟨hlt, hword⟩ := List.getElem?_eq_some_iff.1 hword
      refine ⟨hlt, by simpa using hword, ?_⟩
      intro j hj
      have hlt' : j < s.store.vocab.length := hj.trans hlt
      simpa [hlt'] using hbefore j hj
  rw [← hfirst, indexOf]
  cases s.store.vocab.findIdx? (· == word) <;> simp

theorem exists_indexOf (h : word ∈ s.store.vocab) :
    ∃ i, s.indexOf word = .ok i ∧ i < s.store.vocabSize := by
  rw [indexOf]
  cases hfind : s.store.vocab.findIdx? (· == word) with
  | none =>
    have hnot := List.findIdx?_eq_none_iff.1 hfind word h
    simp at hnot
  | some i =>
    obtain ⟨hlt, -⟩ := List.findIdx?_eq_some_iff_getElem.1 hfind
    exact ⟨i, rfl, hlt⟩

theorem indexOf_of_notMem (h : word ∉ s.store.vocab) :
    s.indexOf word = .error (.unknownWord word) := by
  have hnone : s.store.vocab.findIdx? (· == word) = none := by
    rw [List.findIdx?_eq_none_iff]
    intro other hother
    rw [beq_eq_false_iff_ne]
    rintro rfl
    exact h hother
  rw [indexOf, hnone]

/-- **A word is not found exactly if it is not there.** -/
theorem indexOf_eq_error_iff {e : ModelError} :
    s.indexOf word = .error e ↔ word ∉ s.store.vocab ∧ e = .unknownWord word := by
  by_cases hmem : word ∈ s.store.vocab
  · obtain ⟨i, hindex, -⟩ := exists_indexOf hmem
    simp [hindex, hmem]
  · simp [indexOf_of_notMem hmem, hmem, eq_comm]

/-- The vector of a word is that at its first position. -/
theorem exists_vectorOf (h : word ∈ s.store.vocab) :
    ∃ i xs, s.indexOf word = .ok i ∧ i < s.store.vocabSize ∧ s.store.vectorAt i = .ok xs ∧
      xs.length = s.store.layerSize ∧ s.vectorOf word = .ok xs := by
  obtain ⟨i, hindex, hlt⟩ := exists_indexOf h
  obtain ⟨xs, hrow, hlength⟩ := Store.exists_row hlt
  have hvector := Store.vectorAt_eq_of_rows hrow
  refine ⟨i, xs, hindex, hlt, hvector, hlength, ?_⟩
  rw [vectorOf, hindex]
  simp only [bind, Except.bind, hvector, Except.mapError]

theorem vectorOf_of_notMem (h : word ∉ s.store.vocab) :
    s.vectorOf word = .error (.unknownWord word) := by
  rw [vectorOf, indexOf_of_notMem h]
  rfl

theorem vectorOf_eq_error_iff {e : ModelError} :
    s.vectorOf word = .error e ↔ word ∉ s.store.vocab ∧ e = .unknownWord word := by
  by_cases hmem : word ∈ s.store.vocab
  · obtain ⟨i, xs, -, -, -, -, hvector⟩ := exists_vectorOf hmem
    simp [hvector, hmem]
  · simp [vectorOf_of_notMem hmem, hmem, eq_comm]

/-- **The vector of a word** is that at its first position. -/
theorem queryVector_word_eq_ok_iff :
    s.queryVector (.word word) = .ok vector ↔
      ∃ i : ℕ, s.store.vocab[i]? = some word ∧ (∀ j < i, s.store.vocab[j]? ≠ some word) ∧
        s.store.vectorAt i = .ok vector := by
  have hquery : s.queryVector (.word word) = s.vectorOf word := rfl
  rw [hquery]
  constructor
  · intro hvector
    have hword : word ∈ s.store.vocab := by
      by_contra hnot
      rw [vectorOf_of_notMem hnot] at hvector
      cases hvector
    obtain ⟨i, xs, hindex, -, hat, -, hxs⟩ := exists_vectorOf hword
    obtain rfl := Except.ok.inj (hxs.symm.trans hvector)
    obtain ⟨hi, hfirst⟩ := indexOf_eq_ok_iff.1 hindex
    exact ⟨i, hi, hfirst, hat⟩
  · rintro ⟨i, hi, hfirst, hat⟩
    rw [vectorOf, indexOf_eq_ok_iff.2 ⟨hi, hfirst⟩]
    simp only [bind, Except.bind, hat, Except.mapError]

/-- A vector is its own, if it has one component per component of the model. -/
theorem queryVector_vector_eq_ok_iff {xs : List Binary64} :
    s.queryVector (.vector xs) = .ok vector ↔ xs.length = s.store.layerSize ∧ vector = xs := by
  rw [queryVector]
  by_cases hlength : xs.length = s.store.layerSize
  · simp [hlength, eq_comm]
  · simp [hlength]

/-! ## Closest words -/

theorem nearestWith_of_nonpos (hvector : s.queryVector query = .ok vector)
    (h : count ≤ 0 ∨ s.store.vocab = []) : s.nearestWith r query count = .ok [] := by
  have hnone : (count ≤ 0 || s.store.vocab.isEmpty) = true := by
    simpa using h
  simp only [nearestWith, hvector, bind, Except.bind, hnone, if_true]

theorem nearestWith_of_pos (hvector : s.queryVector query = .ok vector) (hcount : 0 < count)
    (hne : s.store.vocab ≠ []) :
    s.nearestWith r query count = .ok (s.hits (Ranking.select r.partition
      (min count.toNat s.store.vocabSize) (s.scoresWith r vector))) := by
  have hsome : (count ≤ 0 || s.store.vocab.isEmpty) = false := by
    simpa using ⟨hcount, hne⟩
  simp only [nearestWith, hvector, bind, Except.bind, hsome, Bool.false_eq_true, if_false,
    length_scoresWith]

theorem nearestWith_eq_error_iff {e : ModelError} :
    s.nearestWith r query count = .error e ↔ s.queryVector query = .error e := by
  cases hvector : s.queryVector query with
  | error e' => simp [nearestWith, hvector, bind, Except.bind]
  | ok vector =>
    by_cases hnone : count ≤ 0 ∨ s.store.vocab = []
    · simp [nearestWith_of_nonpos hvector hnone]
    · rw [not_or] at hnone
      simp [nearestWith_of_pos hvector (not_le.1 hnone.1) hnone.2]

theorem map_fst_pairs (hits : List Hit) :
    (hits.map fun hit => (hit.index, hit.score)).map Prod.fst = hits.map Hit.index := by
  rw [List.map_map]
  rfl

/-- **The closest words are hits of the best scores.** -/
theorem exists_isTop (hpartition : r.partition.Lawful) (hvector : s.queryVector query = .ok vector)
    (hcount : 0 < count) :
    ∃ hits, s.nearestWith r query count = .ok hits ∧
      (∀ hit ∈ hits, s.store.vocab[hit.index]? = some hit.word) ∧
      Ranking.IsTop count.toNat (s.scoresWith r vector)
        (hits.map fun hit => (hit.index, hit.score)) := by
  by_cases hnil : s.store.vocab = []
  · have hnone : s.scoresWith r vector = [] := by
      rw [← List.length_eq_zero_iff, length_scoresWith, Store.vocabSize, hnil, List.length_nil]
    refine ⟨[], nearestWith_of_nonpos hvector (.inr hnil), by simp, ?_⟩
    rw [hnone]
    constructor <;> simp
  · have hwords : 0 < s.store.vocabSize := List.length_pos_iff.2 hnil
    have hlength := s.length_scoresWith r vector
    have hpos : 0 < min count.toNat s.store.vocabSize := by omega
    have htop := Ranking.isTop_select hpartition hpos ((Nat.min_le_right _ _).trans_eq hlength.symm)
    refine ⟨_, nearestWith_of_pos hvector hcount hnil, fun hit => word_of_mem_hits, ?_⟩
    rw [map_hits]
    · refine ⟨?_, htop.nodup, htop.score, htop.sorted, htop.top⟩
      rw [htop.length_eq, hlength]
      omega
    · intro hit hhit
      rw [← hlength]
      exact (List.getElem?_eq_some_iff.1 (htop.score hit hhit)).1

/-- The searcher of the library searches with the standard routines. -/
theorem nearestWith_standard (hbackend : s.backend = .direct) (query : Query) (count : ℤ) :
    s.nearestWith .standard query count = s.nearest query count := by
  rw [nearest, nearestBy_eq, hbackend]
  cases hvector : s.queryVector query with
  | error e =>
    rw [nearestWith_eq_error_iff.2 hvector]
    rfl
  | ok vector =>
    by_cases hnone : count ≤ 0 ∨ s.store.vocab = []
    · rw [nearestWith_of_nonpos hvector hnone, Except.map, nearestDirect_eq_nil_iff.2 hnone]
    · have hsome : (count ≤ 0 || s.store.vocab.isEmpty) = false := by
        simpa using hnone
      rw [not_or] at hnone
      rw [nearestWith_of_pos hvector (not_le.1 hnone.1) hnone.2, Except.map, nearestDirect,
        hsome, scoresWith_standard]
      simp only [Bool.false_eq_true, if_false, length_directScores]
      rw [← Ranking.select_sortAll]
      rfl

/-- **The closest words are the best of the scores**, whichever way an array library computes and
parts them. There are as many as are asked for or as there are words, none twice, each with its word
and its score, best first; and none of the others has a better score. So the scores of fewer of them
are the first scores of more of them, where the two zeros count as one score, as do all scores that
are no number. The scores are those against the vector of the query: a vector itself, and for a word
the vector at its first position. -/
theorem nearest_top (r : Numerics) (hpartition : r.partition.Lawful) (s : Searcher) (query : Query)
    (vector : List Binary64) (hvector : s.queryVector query = .ok vector) (count : ℤ)
    (hcount : 0 < count) :
    ∃ hits, s.nearestWith r query count = .ok hits ∧
      hits.length = min count.toNat s.store.vocabSize ∧ (hits.map Hit.index).Nodup ∧
      (∀ hit ∈ hits, s.store.vocab[hit.index]? = some hit.word ∧
        (s.scoresWith r vector)[hit.index]? = some hit.score) ∧
      hits.Pairwise (fun a b => b.score.standing ≤ a.score.standing) ∧
      (∀ hit ∈ hits, ∀ i ∉ hits.map Hit.index, ∀ score ∈ (s.scoresWith r vector)[i]?,
        ¬ hit.score.standing < score.standing) ∧
      (∀ count' ≥ count, ∃ hits', s.nearestWith r query count' = .ok hits' ∧
        hits.map (fun hit => hit.score.standing) <+:
          hits'.map fun hit => hit.score.standing) ∧
      (s.backend = .direct → s.nearest query count = s.nearestWith .standard query count) ∧
      (∀ xs, query = .vector xs → xs.length = s.store.layerSize ∧ vector = xs) ∧
      ∀ word, query = .word word → ∃ i : ℕ, s.store.vocab[i]? = some word ∧
        (∀ j < i, s.store.vocab[j]? ≠ some word) ∧ s.store.vectorAt i = .ok vector := by
  obtain ⟨hits, hhits, hwords, htop⟩ := exists_isTop hpartition hvector hcount
  have hpair : ∀ hit ∈ hits, (hit.index, hit.score) ∈ hits.map fun hit => (hit.index, hit.score) :=
    fun hit hhit => List.mem_map_of_mem hhit
  refine ⟨hits, hhits, ?_, ?_, ?_, ?_, ?_, ?_,
    fun hbackend => (nearestWith_standard hbackend query count).symm, ?_, ?_⟩
  · have hlength := htop.length_eq
    rwa [List.length_map, length_scoresWith] at hlength
  · rw [← map_fst_pairs]
    exact htop.nodup
  · intro hit hhit
    exact ⟨hwords hit hhit, htop.score _ (hpair hit hhit)⟩
  · have hsorted := htop.sorted
    rwa [List.pairwise_map] at hsorted
  · intro hit hhit i hi score hscore
    rw [← map_fst_pairs] at hi
    exact not_lt.2 (htop.top _ (hpair hit hhit) i hi score hscore)
  · intro count' hle
    obtain ⟨hits', hhits', -, htop'⟩ := exists_isTop hpartition hvector (hcount.trans_le hle)
    refine ⟨hits', hhits', ?_⟩
    have hworth := htop.map_standing_isPrefix htop' (Int.toNat_le_toNat hle)
    rwa [List.map_map, List.map_map] at hworth
  · rintro xs rfl
    exact queryVector_vector_eq_ok_iff.1 hvector
  · rintro word rfl
    exact queryVector_word_eq_ok_iff.1 hvector

/-- Four words in two segments, of which the first is zero and the last is no number: the two best
are among the three best. -/
theorem nearest_top_four :
    let one : Binary64 := .ofPattern 0x3FF0000000000000
    let store : Store := ⟨["zero", "one", "minus", "none"], 1, 2, [[.zero, one], [one.neg, .nan]],
      by decide, Layout.fault?_eq_none_iff.1 (by decide)⟩
    ∃ hits hits', nearestWith .standard ⟨store, .direct⟩ (.vector [one]) 2 = .ok hits ∧
      nearest ⟨store, .direct⟩ (.vector [one]) 2 = .ok hits ∧ hits.length = 2 ∧
      nearestWith .standard ⟨store, .direct⟩ (.vector [one]) 3 = .ok hits' ∧
      hits.map (fun hit => hit.score.standing) <+: hits'.map fun hit => hit.score.standing := by
  intro one store
  obtain ⟨hits, hhits, hlength, -, -, -, -, hmore, hdirect, -, -⟩ :=
    nearest_top .standard Ranking.sortAll_lawful ⟨store, .direct⟩ (.vector [one]) [one] rfl 2
      (by decide)
  obtain ⟨hits', hhits', hbegins⟩ := hmore 3 (by decide)
  exact ⟨hits, hits', hhits, (hdirect rfl).trans hhits, hlength, hhits', hbegins⟩

/-! ## Pairs of words -/

theorem similarityWith_eq (r : Numerics) (s : Searcher) (first second : String) :
    s.similarityWith r first second = (s.vectorOf first).bind fun xs =>
      (s.vectorOf second).map fun ys => r.score xs ys := by
  rw [similarityWith]
  cases s.vectorOf first with
  | error e => rfl
  | ok xs =>
    cases s.vectorOf second with
    | error e => rfl
    | ok ys =>
      simp only [bind, Except.bind, Except.map, Numerics.score]
      split <;> rfl

theorem similarityWith_standard (s : Searcher) (first second : String) :
    s.similarityWith .standard first second = s.similarity first second := by
  rw [similarityWith_eq, similarity]
  cases s.vectorOf first with
  | error e => rfl
  | ok xs => cases s.vectorOf second <;> rfl

theorem similarityWith_eq_error_iff {first second : String} {e : ModelError} :
    s.similarityWith r first second = .error e ↔
      (first ∉ s.store.vocab ∧ e = .unknownWord first) ∨
        first ∈ s.store.vocab ∧ second ∉ s.store.vocab ∧ e = .unknownWord second := by
  rw [similarityWith_eq]
  by_cases hfirst : first ∈ s.store.vocab
  · obtain ⟨i, xs, -, -, -, -, hxs⟩ := exists_vectorOf hfirst
    simp only [hxs, Except.bind, map_eq_error_iff, vectorOf_eq_error_iff, hfirst, not_true,
      false_and, false_or, true_and]
  · simp [vectorOf_of_notMem hfirst, Except.bind, hfirst, eq_comm]

/-- **A score in a ranking is that of the vector at its position.** -/
theorem score_of_mem_nearestWith (hpartition : r.partition.Lawful)
    (hvector : s.queryVector query = .ok vector) {hits : List Hit}
    (hhits : s.nearestWith r query count = .ok hits) {hit : Hit} (hhit : hit ∈ hits) :
    ∃ xs, s.store.vectorAt hit.index = .ok xs ∧ hit.score = r.score xs vector := by
  by_cases hcount : 0 < count
  · obtain ⟨hits', hhits', -, htop⟩ := exists_isTop hpartition hvector hcount
    obtain rfl := Except.ok.inj (hhits.symm.trans hhits')
    exact exists_of_getElem?_scoresWith (htop.score _ (List.mem_map_of_mem hhit))
  · rw [nearestWith_of_nonpos hvector (.inl (not_lt.1 hcount)), Except.ok.injEq] at hhits
    subst hhits
    exact absurd hhit List.not_mem_nil

/-- **All positions are in a ranking of all words.** -/
theorem exists_nearestWith_all (hpartition : r.partition.Lawful)
    (hvector : s.queryVector query = .ok vector) :
    ∃ hits, s.nearestWith r query s.store.vocabSize = .ok hits ∧
      (hits.map Hit.index).Perm (List.range s.store.vocabSize) := by
  by_cases hnil : s.store.vocab = []
  · refine ⟨[], nearestWith_of_nonpos hvector (.inr hnil), ?_⟩
    rw [Store.vocabSize, hnil]
    exact List.Perm.refl []
  · have hwords : 0 < s.store.vocabSize := List.length_pos_iff.2 hnil
    obtain ⟨hits, hhits, hmem, htop⟩ :=
      exists_isTop hpartition hvector (Int.natCast_pos.2 hwords)
    refine ⟨hits, hhits, ?_⟩
    have hnodup := htop.nodup
    have hlength := htop.length_eq
    rw [map_fst_pairs] at hnodup
    rw [List.length_map, length_scoresWith] at hlength
    have hsub : hits.map Hit.index ⊆ List.range s.store.vocabSize := by
      intro i hi
      obtain ⟨hit, hhit, rfl⟩ := List.mem_map.1 hi
      exact List.mem_range.2 (List.getElem?_eq_some_iff.1 (hmem hit hhit)).1
    apply (hnodup.subperm hsub).perm_of_length_le
    rw [List.length_range, List.length_map, hlength]
    omega

/-- **The score at the first position of a word is the similarity of the words.** -/
theorem similarityWith_eq_ok (hr : r.Lawful) {a b : String} (ha : a ∈ s.store.vocab) {i : ℕ}
    (hindex : s.indexOf b = .ok i) {hits : List Hit}
    (hhits : s.nearestWith r (.word a) count = .ok hits) {hit : Hit} (hhit : hit ∈ hits)
    (hi : hit.index = i) : s.similarityWith r a b = .ok hit.score := by
  have hb : b ∈ s.store.vocab := List.mem_of_getElem? (indexOf_eq_ok_iff.1 hindex).1
  obtain ⟨-, xs, -, -, -, hxlength, hxs⟩ := exists_vectorOf ha
  obtain ⟨j, ys, hj, -, hat, hylength, hys⟩ := exists_vectorOf hb
  obtain rfl := Except.ok.inj (hj.symm.trans hindex)
  have hquery : s.queryVector (.word a) = .ok xs := hxs
  obtain ⟨ys', hat', hscore⟩ := score_of_mem_nearestWith hr.partition hquery hhits hhit
  rw [hi, hat, Except.ok.injEq] at hat'
  subst hat'
  -- The ranking has the vector of the query second, and the pair has it first.
  rw [similarityWith_eq, hxs, hys, hscore, hr.score_comm (hylength.trans hxlength.symm)]
  rfl

/-- **A score in a ranking is that of two vectors**, and at the first position of a word it is the
similarity of the words. For every segmentation, the score of a position depends on the query and
the vector there alone, and all positions are in a ranking of all words. A ranking for a word
together with the position of another fails exactly where their similarity does: where one of them
is missing, and for the first that is. -/
theorem scores_agree (r : Numerics) (hr : r.Lawful) (s : Searcher) :
    (∀ query vector count hits, s.queryVector query = .ok vector →
      s.nearestWith r query count = .ok hits → ∀ hit ∈ hits, ∃ xs,
        s.store.vectorAt hit.index = .ok xs ∧
        hit.score = if ((r.norm xs).mul (r.norm vector)).isZero then .zero
          else (r.dot xs vector).div ((r.norm xs).mul (r.norm vector))) ∧
    (∀ query vector, s.queryVector query = .ok vector → ∃ hits,
      s.nearestWith r query s.store.vocabSize = .ok hits ∧
      (hits.map Hit.index).Perm (List.range s.store.vocabSize)) ∧
    (∀ a ∈ s.store.vocab, ∀ b ∈ s.store.vocab, ∃ hits i,
      s.nearestWith r (.word a) s.store.vocabSize = .ok hits ∧ s.indexOf b = .ok i ∧
      s.store.vocab[i]? = some b ∧ (∀ j < i, s.store.vocab[j]? ≠ some b) ∧
      (∃ hit ∈ hits, hit.index = i) ∧
      ∀ hit ∈ hits, hit.index = i → s.similarityWith r a b = .ok hit.score) ∧
    (∀ a b e, s.similarityWith r a b = .error e ↔
      (s.nearestWith r (.word a) s.store.vocabSize = .error e ∨
        a ∈ s.store.vocab ∧ s.indexOf b = .error e)) ∧
    (∀ a b e, s.similarityWith r a b = .error e ↔
      (a ∉ s.store.vocab ∧ e = .unknownWord a) ∨
        a ∈ s.store.vocab ∧ b ∉ s.store.vocab ∧ e = .unknownWord b) ∧
    (∀ a b, s.similarityWith .standard a b = s.similarity a b) ∧
    (s.backend = .direct → ∀ query count,
      s.nearestWith .standard query count = s.nearest query count) := by
  refine ⟨?_, ?_, ?_, ?_, fun a b e => similarityWith_eq_error_iff,
    s.similarityWith_standard, nearestWith_standard⟩
  · intro query vector count hits hvector hhits hit hhit
    exact score_of_mem_nearestWith hr.partition hvector hhits hhit
  · intro query vector hvector
    exact exists_nearestWith_all hr.partition hvector
  · intro a ha b hb
    obtain ⟨-, xs, -, -, -, -, hxs⟩ := exists_vectorOf ha
    have hquery : s.queryVector (.word a) = .ok xs := hxs
    obtain ⟨hits, hhits, hperm⟩ := exists_nearestWith_all hr.partition hquery
    obtain ⟨i, hindex, hlt⟩ := exists_indexOf hb
    obtain ⟨hword, hfirst⟩ := indexOf_eq_ok_iff.1 hindex
    refine ⟨hits, i, hhits, hindex, hword, hfirst, ?_, ?_⟩
    · have hmem : i ∈ hits.map Hit.index := hperm.mem_iff.2 (List.mem_range.2 hlt)
      obtain ⟨hit, hhit, hi⟩ := List.mem_map.1 hmem
      exact ⟨hit, hhit, hi⟩
    · intro hit hhit hi
      exact similarityWith_eq_ok hr ha hindex hhits hhit hi
  · intro a b e
    have hvector : s.queryVector (.word a) = s.vectorOf a := rfl
    rw [similarityWith_eq_error_iff, nearestWith_eq_error_iff, hvector, vectorOf_eq_error_iff,
      indexOf_eq_error_iff]

/-- Words that repeat, with a vector of norm zero at a first position: the ranking has the
similarity of the words there, and a word that is missing fails both. -/
theorem scores_agree_four :
    let one : Binary64 := .ofPattern 0x3FF0000000000000
    let store : Store := ⟨["a", "b", "b", "a"], 1, 2, [[one, .zero], [one.neg, .nan]], by decide,
      Layout.fault?_eq_none_iff.1 (by decide)⟩
    let s : Searcher := ⟨store, .direct⟩
    (∃ hits, s.nearest (.word "a") 4 = .ok hits ∧
      ∃ hit ∈ hits, hit.index = 1 ∧ s.similarity "a" "b" = .ok hit.score) ∧
    s.similarityWith .standard "a" "c" = .error (.unknownWord "c") := by
  intro one store s
  obtain ⟨-, -, hpairs, -, herror, hsimilarity, hnearest⟩ :=
    scores_agree .standard Numerics.standard_lawful s
  obtain ⟨hits, i, hhits, hindex, -, -, ⟨hit, hhit, hi⟩, hscore⟩ :=
    hpairs "a" (by decide) "b" (by decide)
  have hfirst : s.indexOf "b" = .ok 1 := rfl
  obtain rfl := Except.ok.inj (hfirst.symm.trans hindex)
  constructor
  · refine ⟨hits, (hnearest rfl _ _).symm.trans hhits, hit, hhit, hi, ?_⟩
    rw [← hsimilarity]
    exact hscore hit hhit hi
  · exact (herror "a" "c" _).2 (.inr ⟨by decide, by decide, rfl⟩)

end Searcher

end WordVectors
