import WordVectors.Proofs.Store.Addressing
import WordVectors.Search.Searcher

/-!
# The two backends

The normalized backend finds rows of an index, and a row has no word but the one at its place. The
index is filled segment by segment, so this place has to be that of the vector in the model: no row
may be lost or be there twice. Then the backend fails, is silent and falls back where the direct one
does, and what it finds are words of the model, whichever way the index is searched.

## Main definitions

* `RowSearch.Lawful`: what is required of a search of the index
* `Searcher.AreHits`: whether answers are words of the model at positions of their own

## Main results

* `Searcher.index_eq`: the index has one row per vector, in order
* `Searcher.ofStore_eq_ok_iff`: which models can be searched
* `Searcher.backends_agree`: the normalized backend against the direct one
* `Searcher.backends_apart`: a model that only the direct backend can search
-/

namespace WordVectors

/-! ## Searches of an index -/

/-- **The laws of a search**: there are no more answers than wanted, the position in an answer is
that of a row, and no two answers have the same. -/
structure RowSearch.Lawful (search : RowSearch) : Prop where
  length_le (rows : List (List Binary32)) (query : List Binary32) (count : ℕ) :
    (search rows query count).length ≤ count
  lt_length (rows : List (List Binary32)) (query : List Binary32) (count : ℕ) :
    ∀ answer ∈ search rows query count, ∀ i ∈ answer.1, i < rows.length
  nodup (rows : List (List Binary32)) (query : List Binary32) (count : ℕ) :
    ((search rows query count).filterMap Prod.fst).Nodup

theorem flatSearch_lawful : RowSearch.Lawful flatSearch where
  length_le rows query count := by
    rw [flatSearch, List.length_map, Ranking.length_best]
    exact Nat.min_le_left _ _
  lt_length rows query count := by
    intro answer hanswer i hi
    obtain ⟨hit, hhit, rfl⟩ := List.mem_map.1 hanswer
    have hlt := Ranking.lt_of_mem_best hhit
    rw [List.length_map] at hlt
    dsimp only at hi
    split at hi
    · cases hi
    · obtain rfl := Option.some.inj hi
      exact hlt
  nodup rows query count := by
    have hfilter (ranked : List (ℕ × Binary64)) :
        (ranked.map fun hit => (if hit.2.isNaN then none else some hit.1, hit.2)).filterMap
          Prod.fst = (ranked.filter fun hit => !hit.2.isNaN).map Prod.fst := by
      induction ranked with
      | nil => rfl
      | cons hit ranked ih =>
        rw [List.map_cons, List.filterMap_cons, List.filter_cons, ih]
        cases hit.2.isNaN <;> rfl
    rw [flatSearch, hfilter]
    exact (Ranking.nodup_best count _).sublist (List.filter_sublist.map _)

namespace Searcher

variable {routines : IndexRoutines} {s : Searcher} {store : Store} {backend : Backend}

/-! ## Searchers -/

/-- **Which models can be searched**: those whose vectors can be laid out, by the normalized
backend only if an index can be made for them. -/
theorem ofStore_eq_ok_iff :
    ofStore routines store backend = .ok s ↔
      s = ⟨store, backend⟩ ∧ store.HasRows Room.numberWidth ∧
        (backend = .normalized → routines.admits store.layerSize = true) := by
  rw [← store.checkRows_eq_ok_iff (by decide), ofStore]
  cases store.checkRows Room.numberWidth with
  | error e => simp
  | ok _ =>
    cases backend with
    | direct => simp [eq_comm (a := s)]
    | normalized => cases routines.admits store.layerSize <;> simp [eq_comm]

theorem ofStore_direct (h : store.HasRows Room.numberWidth) :
    ofStore routines store .direct = .ok ⟨store, .direct⟩ :=
  ofStore_eq_ok_iff.2 ⟨rfl, h, nofun⟩

/-! ## The index -/

/-- **The index has one row per vector**, in order. -/
theorem index_eq (routines : IndexRoutines) (s : Searcher) :
    s.index routines = s.store.rows.map fun row =>
      routines.normalize (row.map Binary64.narrow) := by
  have hfold (segments : List (List Binary64)) (index : List (List Binary32)) :
      segments.foldl (s.addSegment routines) index =
        index ++ (segments.flatMap s.store.segmentRows).map fun row =>
          routines.normalize (row.map Binary64.narrow) := by
    induction segments generalizing index with
    | nil => rw [List.foldl_nil, List.flatMap_nil, List.map_nil, List.append_nil]
    | cons segment segments ih =>
      rw [List.foldl_cons, ih, List.flatMap_cons, List.map_append, ← List.append_assoc]
      congr 1
      rw [addSegment, List.map_map]
      cases s.store.segmentRows segment with
      | nil =>
        rw [List.map_nil, List.map_nil, List.map_nil, List.isEmpty_nil, if_pos rfl,
          List.append_nil]
      | cons row rows => rfl
  rw [index, hfold, List.nil_append, Store.rows]

@[simp] theorem length_index (routines : IndexRoutines) (s : Searcher) :
    (s.index routines).length = s.store.vocabSize := by
  rw [s.index_eq, List.length_map, s.store.length_rows]

/-- The row at a place of the index is the vector at this place, narrowed and normalized. -/
theorem getElem?_index (routines : IndexRoutines) (s : Searcher) {i : ℕ}
    (h : i < s.store.vocabSize) :
    ∃ xs, s.store.vectorAt i = .ok xs ∧
      (s.index routines)[i]? = some (routines.normalize (xs.map Binary64.narrow)) := by
  have hlt : i < s.store.entries.length := by rwa [s.store.length_entries]
  have hentry := List.getElem?_eq_getElem hlt
  refine ⟨_, Store.vectorAt_eq_of_entries hentry, ?_⟩
  rw [s.index_eq, ← s.store.map_snd_entries, List.map_map, List.getElem?_map, hentry]
  rfl

/-! ## Hits -/

/-- Ranked positions of words are hits with their words. -/
theorem map_hits {ranked : List (ℕ × Binary64)} (h : ∀ hit ∈ ranked, hit.1 < s.store.vocabSize) :
    (s.hits ranked).map (fun hit => (hit.index, hit.score)) = ranked := by
  induction ranked with
  | nil => rfl
  | cons hit ranked ih =>
    obtain ⟨i, score⟩ := hit
    obtain ⟨hlt, hranked⟩ := List.forall_mem_cons.1 h
    have hword : s.store.vocab[i]? = some s.store.vocab[i] := List.getElem?_eq_getElem hlt
    simp only [hits, List.filterMap_cons, hword, Option.map_some, List.map_cons]
    exact congrArg _ (ih hranked)

theorem length_hits {ranked : List (ℕ × Binary64)}
    (h : ∀ hit ∈ ranked, hit.1 < s.store.vocabSize) : (s.hits ranked).length = ranked.length := by
  rw [← List.length_map, map_hits h]

theorem word_of_mem_hits {ranked : List (ℕ × Binary64)} {hit : Hit} (h : hit ∈ s.hits ranked) :
    s.store.vocab[hit.index]? = some hit.word := by
  obtain ⟨⟨i, score⟩, -, heq⟩ := List.mem_filterMap.1 h
  obtain ⟨word, hword, rfl⟩ := Option.map_eq_some_iff.1 heq
  exact hword

/-- **What a list of hits must be**: hits of words of the model, no word twice, and no more than
are wanted or there are. -/
structure AreHits (s : Searcher) (count : ℤ) (hits : List Hit) : Prop where
  length_le : hits.length ≤ min count.toNat s.store.vocabSize
  nodup : (hits.map Hit.index).Nodup
  word : ∀ hit ∈ hits, s.store.vocab[hit.index]? = some hit.word

theorem areHits_hits {ranked : List (ℕ × Binary64)} {count : ℤ}
    (hlength : ranked.length ≤ min count.toNat s.store.vocabSize)
    (hlt : ∀ hit ∈ ranked, hit.1 < s.store.vocabSize) (hnodup : (ranked.map Prod.fst).Nodup) :
    s.AreHits count (s.hits ranked) where
  length_le := by rwa [length_hits hlt]
  nodup := by
    have hmap := congrArg (List.map Prod.fst) (map_hits hlt)
    rw [List.map_map] at hmap
    rwa [← hmap] at hnodup
  word hit hhit := word_of_mem_hits hhit

/-- What a search answers are hits of the rows that it tells. -/
theorem areHits_answers {answers : List (Option ℕ × Binary64)} {count : ℤ}
    (hlength : answers.length ≤ min count.toNat s.store.vocabSize)
    (hlt : ∀ answer ∈ answers, ∀ i ∈ answer.1, i < s.store.vocabSize)
    (hnodup : (answers.filterMap Prod.fst).Nodup) :
    s.AreHits count (s.hits (answers.filterMap fun (i?, score) => i?.map fun i => (i, score))) := by
  refine areHits_hits ((List.length_filterMap_le _ _).trans hlength) (fun hit hhit => ?_) ?_
  · obtain ⟨⟨i?, score⟩, hanswer, heq⟩ := List.mem_filterMap.1 hhit
    obtain ⟨i, hi, rfl⟩ := Option.map_eq_some_iff.1 heq
    exact hlt _ hanswer i hi
  · rw [List.map_filterMap]
    have hfirst : (fun answer : Option ℕ × Binary64 =>
        (answer.1.map fun i => (i, answer.2)).map Prod.fst) = Prod.fst := by
      funext ⟨i?, score⟩
      cases i? <;> rfl
    exact hfirst ▸ hnodup

/-! ## Closest words -/

variable {vector : List Binary64} {count : ℤ}

theorem areHits_nil (s : Searcher) (count : ℤ) : s.AreHits count [] where
  length_le := Nat.zero_le _
  nodup := List.nodup_nil
  word _ hhit := absurd hhit List.not_mem_nil

@[simp] theorem length_directScores (s : Searcher) (vector : List Binary64) :
    (s.directScores vector).length = s.store.vocabSize := by
  rw [directScores, List.length_map, s.store.length_rows]

theorem lt_of_mem_best_directScores (s : Searcher) {n : ℕ} {hit : ℕ × Binary64}
    (h : hit ∈ Ranking.best n (s.directScores vector)) : hit.1 < s.store.vocabSize := by
  rw [← s.length_directScores vector]
  exact Ranking.lt_of_mem_best h

theorem areHits_nearestDirect (s : Searcher) (vector : List Binary64) (count : ℤ) :
    s.AreHits count (s.nearestDirect vector count) := by
  rw [nearestDirect]
  split
  · exact s.areHits_nil count
  · refine areHits_hits ?_ (fun hit hhit => ?_) (Ranking.nodup_best _ _)
    · rw [Ranking.length_best, length_directScores]
      exact Nat.min_le_left _ _
    · exact s.lt_of_mem_best_directScores hhit

/-- **Whichever way the index is searched**, the normalized backend finds words of the model. -/
theorem areHits_nearestNormalized (hsearch : routines.search.Lawful) (s : Searcher)
    (vector : List Binary64) (count : ℤ) :
    s.AreHits count (s.nearestNormalized routines vector count) := by
  rw [nearestNormalized]
  split
  · exact s.areHits_nil count
  · dsimp only
    split
    · exact s.areHits_nearestDirect vector count
    · have hsize := s.length_index routines
      refine areHits_answers ?_ ?_ (hsearch.nodup _ _ _)
      · rw [← hsize]
        exact hsearch.length_le _ _ _
      · rw [← hsize]
        exact hsearch.lt_length _ _ _

/-- The direct backend is silent only where there is nothing to find. -/
theorem nearestDirect_eq_nil_iff :
    s.nearestDirect vector count = [] ↔ count ≤ 0 ∨ s.store.vocab = [] := by
  rw [nearestDirect]
  split
  · next hnone => simpa using hnone
  · next hsome =>
    refine iff_of_false (fun hnil => hsome ?_) (by simpa using hsome)
    have hlength := congrArg List.length hnil
    rw [length_hits fun _ => s.lt_of_mem_best_directScores, Ranking.length_best,
      length_directScores, List.length_nil] at hlength
    rw [Bool.or_eq_true, decide_eq_true_eq, List.isEmpty_iff_length_eq_zero]
    simp only [Store.vocabSize] at hlength
    omega

/-- The index is empty exactly if there are no words. -/
theorem nothing_iff (routines : IndexRoutines) (s : Searcher) (count : ℤ) :
    (count ≤ 0 || (s.index routines).isEmpty) = true ↔ count ≤ 0 ∨ s.store.vocab = [] := by
  rw [Bool.or_eq_true, decide_eq_true_eq, List.isEmpty_iff_length_eq_zero, length_index,
    Store.vocabSize, List.length_eq_zero_iff]

theorem nearestNormalized_of_none (h : count ≤ 0 ∨ s.store.vocab = []) :
    s.nearestNormalized routines vector count = [] := by
  rw [nearestNormalized, if_pos ((s.nothing_iff routines count).2 h)]

/-- A query of norm zero is answered by the direct scores. -/
theorem nearestNormalized_of_isZero (h : (Similarity.norm vector).isZero = true) :
    s.nearestNormalized routines vector count = s.nearestDirect vector count := by
  by_cases hnone : count ≤ 0 ∨ s.store.vocab = []
  · rw [nearestNormalized_of_none hnone, nearestDirect_eq_nil_iff.2 hnone]
  · rw [nearestNormalized, if_neg (mt (s.nothing_iff routines count).1 hnone)]
    exact if_pos h

/-- **A searcher answers a query if it can tell its vector**, by its backend. -/
theorem nearestBy_eq (routines : IndexRoutines) (s : Searcher) (query : Query) (count : ℤ) :
    s.nearestBy routines query count = (s.queryVector query).map fun vector =>
      match s.backend with
      | .direct => s.nearestDirect vector count
      | .normalized => s.nearestNormalized routines vector count := by
  rw [nearestBy]
  cases s.queryVector query with
  | error e => rfl
  | ok vector => cases s.backend <;> rfl

/-- **The two backends on one model.** The normalized one can be had exactly if the direct one can
and an index can be made for the vectors. Then there is one row of the index per word, which is the
vector at its place, narrowed and normalized. Whichever way the index is searched, both backends
fail with the same error on the same queries; where the direct one finds nothing, so does the other,
and a query of norm zero has the same answer; and always there are no more hits than are wanted or
than there are words, none of them twice, and each with its word. -/
theorem backends_agree (routines : IndexRoutines) (store : Store) :
    ((∃ s, ofStore routines store .normalized = .ok s) ↔
      (∃ d, ofStore routines store .direct = .ok d) ∧ routines.admits store.layerSize = true) ∧
    ∀ s d, ofStore routines store .normalized = .ok s → ofStore routines store .direct = .ok d →
      ((s.index routines).length = store.vocabSize ∧ ∀ i < store.vocabSize, ∃ xs,
        store.vectorAt i = .ok xs ∧
          (s.index routines)[i]? = some (routines.normalize (xs.map Binary64.narrow))) ∧
      (routines.search.Lawful → ∀ query count,
        (∀ e, s.nearestBy routines query count = .error e ↔
          d.nearestBy routines query count = .error e) ∧
        (d.nearestBy routines query count = .ok [] → s.nearestBy routines query count = .ok []) ∧
        (∀ vector, s.queryVector query = .ok vector → (Similarity.norm vector).isZero = true →
          s.nearestBy routines query count = d.nearestBy routines query count) ∧
        ∀ hits, s.nearestBy routines query count = .ok hits →
          hits.length ≤ min count.toNat store.vocabSize ∧ (hits.map Hit.index).Nodup ∧
            ∀ hit ∈ hits, store.vocab[hit.index]? = some hit.word) := by
  refine ⟨⟨?_, ?_⟩, ?_⟩
  · rintro ⟨s, hs⟩
    obtain ⟨-, hrows, hindex⟩ := ofStore_eq_ok_iff.1 hs
    exact ⟨⟨_, ofStore_direct hrows⟩, hindex rfl⟩
  · rintro ⟨⟨d, hd⟩, hindex⟩
    obtain ⟨-, hrows, -⟩ := ofStore_eq_ok_iff.1 hd
    exact ⟨_, ofStore_eq_ok_iff.2 ⟨rfl, hrows, fun _ => hindex⟩⟩
  intro s d hs hd
  obtain ⟨rfl, -, -⟩ := ofStore_eq_ok_iff.1 hs
  obtain ⟨rfl, -, -⟩ := ofStore_eq_ok_iff.1 hd
  refine ⟨⟨length_index _ _, fun i hi => getElem?_index routines ⟨store, .normalized⟩ hi⟩,
    fun hsearch query count => ?_⟩
  have hvector : queryVector ⟨store, .normalized⟩ query = queryVector ⟨store, .direct⟩ query := by
    cases query <;> rfl
  rw [nearestBy_eq, nearestBy_eq, ← hvector]
  cases queryVector ⟨store, .normalized⟩ query with
  | error e =>
    exact ⟨fun _ => Iff.rfl, nofun, nofun, nofun⟩
  | ok vector =>
    refine ⟨fun e => iff_of_false nofun nofun, fun hnil => ?_,
      fun vector' hvector' hzero => ?_, fun hits hhits => ?_⟩
    · have hnone := nearestDirect_eq_nil_iff.1 (Except.ok.inj hnil)
      exact congrArg Except.ok (nearestNormalized_of_none hnone)
    · obtain rfl := Except.ok.inj hvector'
      exact congrArg Except.ok (nearestNormalized_of_isZero hzero)
    · obtain rfl := Except.ok.inj hhits
      obtain ⟨hlength, hnodup, hword⟩ :=
        areHits_nearestNormalized hsearch ⟨store, .normalized⟩ vector count
      exact ⟨hlength, hnodup, hword⟩

/-- Two full segments and an empty one behind them: the index has the rows of both, and a word is
looked for among them. -/
theorem backends_agree_two :
    let store : Store := ⟨["a", "b"], 1, 1, [[.zero], [.ofPattern 0x3FF0000000000000], []],
      by decide, Layout.fault?_eq_none_iff.1 (by decide)⟩
    ∃ s, ofStore .standard store .normalized = .ok s ∧ (s.index .standard).length = 2 ∧
      s.nearest (.word "c") 5 = .error (.unknownWord "c") ∧
      ∃ hits, s.nearest (.word "b") 5 = .ok hits ∧ hits.length ≤ 2 := by
  intro store
  have hrows : store.HasRows Room.numberWidth := .inl (List.cons_ne_nil _ _)
  have hd := @ofStore_direct .standard _ hrows
  obtain ⟨hmakes, hboth⟩ := backends_agree .standard store
  obtain ⟨s, hs⟩ := hmakes.2 ⟨⟨_, hd⟩, by decide⟩
  obtain ⟨⟨hlength, -⟩, hnearest⟩ := hboth s _ hs hd
  refine ⟨s, hs, hlength, ?_, ?_⟩
  · obtain ⟨herror, -⟩ := hnearest flatSearch_lawful (.word "c") 5
    exact (herror _).2 rfl
  · obtain ⟨herror, -, -, hanswer⟩ := hnearest flatSearch_lawful (.word "b") 5
    cases hhits : s.nearestBy .standard (.word "b") 5 with
    | error e => exact absurd ((herror e).1 hhits) nofun
    | ok hits => exact ⟨hits, hhits, (hanswer hits hhits).1⟩

/-- **A model that only the direct backend can search.** Its vectors have too many components for
an index, and one is made though there are none. -/
theorem backends_apart :
    ∃ store, Store.ofDense [] Room.sizeLimit [] (some Room.sizeLimit) = .ok store ∧
      (∃ d, ofStore .standard store .direct = .ok d) ∧
      ofStore .standard store .normalized = .error .index := by
  have hbound : ∀ b ∈ some (Room.sizeLimit : ℤ), (Room.sizeLimit : ℤ) ≤ b := by
    rintro b ⟨⟩
    exact Int.le_refl _
  have hlength : ([] : List Binary64).length = ([] : List String).length * Room.sizeLimit :=
    (Nat.zero_mul _).symm
  obtain ⟨store, hstore, -, hlayer, -, hnone⟩ :=
    Store.ofDense_eq_ok (by decide : 0 < Room.sizeLimit) hbound hlength
  have hrows : store.HasRows Room.numberWidth := .inr (.inl (hnone rfl))
  refine ⟨store, hstore, ⟨_, ofStore_direct hrows⟩, ?_⟩
  have hadmits : IndexRoutines.standard.admits store.layerSize = false :=
    decide_eq_false (hlayer ▸ Nat.lt_irrefl _)
  rw [ofStore, (store.checkRows_eq_ok_iff (by decide)).2 hrows, hadmits]
  rfl

end Searcher

end WordVectors
