import WordVectors.Proofs.Store

/-!
# Addresses in segments

Every segment but the last is full, so the segment of a vector and its place there are the quotient
and the remainder of its index. The vectors lie in the segments without gaps and without overlaps,
and each is the piece of all numbers that its index tells. Nothing else is known of the segments:
the last may be empty, and without words the number of vectors of a full segment need not be
positive.

## Main definitions

* `Store.Covers`: whether a vector takes up a place in a segment

## Main results

* `Layout.Fits.exists_slot`: the vector with a given index lies inside a segment
* `Layout.Fits.index_lt`: a place in a segment is that of a vector
* `Store.vectorAt_eq`: a vector is a piece of all numbers, whatever the segments are
* `Store.ofSegments_addressing`: addresses in the store of given segments
-/

namespace WordVectors

variable {layerSize : Nat}

/-! ## Vectors in segments -/

namespace Layout.Fits

variable {words perSegment : Nat} {segments : List (List Binary64)}

/-- Behind a full segment the others hold the vectors that are left. -/
theorem of_cons_cons {size next : Nat} {sizes : List Nat}
    (h : Fits layerSize perSegment words (size :: next :: sizes)) :
    size = perSegment * layerSize ∧ perSegment ≤ words ∧
      Fits layerSize perSegment (words - perSegment) (next :: sizes) := by
  have hcount : size / layerSize = perSegment :=
    Int.ofNat_inj.1 (h.full size List.mem_cons_self)
  have hwhole := Nat.div_mul_cancel (Nat.dvd_of_mod_eq_zero (h.whole size List.mem_cons_self))
  have htotal := h.total
  rw [vectorCount, hcount] at htotal
  refine ⟨by rw [← hcount, hwhole], by omega, ?_, ?_, ?_, by omega⟩
  · exact fun n hn => h.whole n (List.mem_cons_of_mem _ hn)
  · intro n hn
    apply h.full n
    rw [List.dropLast_cons_cons]
    exact List.mem_cons_of_mem _ hn
  · intro n hn
    apply h.last n
    rwa [List.getLast?_cons_cons]

/-- **The vector with a given index lies inside a segment**, where it is the same piece as in all
numbers. -/
theorem exists_slot (hper : 0 < perSegment)
    (h : Fits layerSize perSegment words (segments.map List.length)) {i : Nat} (hi : i < words) :
    ∃ segment, segments[i / perSegment]? = some segment ∧
      i % perSegment * layerSize + layerSize ≤ segment.length ∧
      (segment.drop (i % perSegment * layerSize)).take layerSize =
        (segments.flatten.drop (i * layerSize)).take layerSize := by
  -- By induction on the segments: an index that is not in the first one is looked for in the
  -- others, lower by the number of vectors of a full segment.
  induction segments generalizing words i with
  | nil =>
    have htotal := h.total
    rw [List.map_nil, vectorCount] at htotal
    omega
  | cons segment segments ih =>
    by_cases hfirst : i < perSegment
    · have hsize : (i + 1) * layerSize ≤ segment.length := by
        have hwhole := Nat.div_mul_cancel
          (Nat.dvd_of_mod_eq_zero (h.whole segment.length List.mem_cons_self))
        rw [← hwhole]
        apply Nat.mul_le_mul_right
        cases segments with
        | nil =>
          have htotal := h.total
          rw [List.map_singleton, vectorCount, vectorCount] at htotal
          omega
        | cons next segments =>
          have hcount := Int.ofNat_inj.1 (h.full segment.length List.mem_cons_self)
          omega
      rw [Nat.succ_mul] at hsize
      rw [Nat.div_eq_of_lt hfirst, Nat.mod_eq_of_lt hfirst, List.flatten_cons,
        List.drop_append_of_le_length (by omega), List.take_append_of_le_length]
      · exact ⟨segment, rfl, hsize, rfl⟩
      · rw [List.length_drop]
        omega
    · cases segments with
      | nil =>
        have hlast := h.last segment.length rfl
        have htotal := h.total
        rw [List.map_singleton, vectorCount, vectorCount] at htotal
        rw [Int.ofNat_le] at hlast
        omega
      | cons next segments =>
        obtain ⟨hfull, hle, hrest⟩ := of_cons_cons h
        obtain ⟨j, rfl⟩ := Nat.exists_eq_add_of_le (Nat.le_of_not_lt hfirst)
        obtain ⟨slot, hslot, hinside, hpiece⟩ := ih hrest (i := j) (by omega)
        rw [Nat.add_div_left j hper, Nat.add_mod_left, List.flatten_cons, Nat.add_mul, ← hfull,
          ← List.drop_drop, List.drop_left]
        exact ⟨slot, hslot, hinside, hpiece⟩

/-- **A place in a segment is that of a vector.** -/
theorem index_lt (hlayer : 0 < layerSize)
    (h : Fits layerSize perSegment words (segments.map List.length)) {s k : Nat}
    {segment : List Binary64} (hs : segments[s]? = some segment) (hk : k < segment.length) :
    k / layerSize < perSegment ∧ s * perSegment + k / layerSize < words := by
  induction segments generalizing words s with
  | nil => cases hs
  | cons first segments ih =>
    have hwhole := Nat.div_mul_cancel
      (Nat.dvd_of_mod_eq_zero (h.whole first.length List.mem_cons_self))
    have hle := Int.ofNat_le.1 (h.le_perSegment first.length List.mem_cons_self)
    cases s with
    | zero =>
      obtain rfl : first = segment := Option.some.inj hs
      have hlt : k / layerSize < first.length / layerSize := by
        rw [Nat.div_lt_iff_lt_mul hlayer, hwhole]
        exact hk
      have htotal := h.total
      rw [List.map_cons, vectorCount] at htotal
      omega
    | succ s =>
      cases segments with
      | nil => cases hs
      | cons next segments =>
        obtain ⟨-, hper, hrest⟩ := of_cons_cons h
        obtain ⟨hlt, hindex⟩ := ih hrest hs
        rw [Nat.succ_mul]
        omega

end Layout.Fits

/-! ## Addresses -/

namespace Store

variable (store : Store) {index : Int}

/-- A lookup that succeeds divides by a positive number. -/
theorem perSegment_pos (h₀ : 0 ≤ index) (h : index < store.vocabSize) : 0 < store.perSegment := by
  by_contra hper
  have hnone := store.fits.eq_zero_of_nonpos (Int.not_lt.1 hper)
  rw [← vocabSize] at hnone
  omega

theorem locate_eq_error_iff :
    store.locate index = .error ⟨index, store.vocabSize⟩ ↔
      ¬ (0 ≤ index ∧ index < store.vocabSize) := by
  rw [locate]
  split
  · next h => exact iff_of_false (fun heq => by cases heq) (not_not_intro h)
  · next h => exact iff_of_true rfl h

/-- **An index in range is that of a vector inside a segment**, which is a piece of all numbers. -/
theorem exists_locate {i : Nat} (h : i < store.vocabSize) :
    ∃ s offset segment, store.locate i = .ok (s, offset) ∧ store.segments[s]? = some segment ∧
      offset + store.layerSize ≤ segment.length ∧
      (segment.drop offset).take store.layerSize =
        (store.flatten.drop (i * store.layerSize)).take store.layerSize := by
  have hper := store.perSegment_pos (Int.natCast_nonneg i) (Int.ofNat_lt.2 h)
  have hfits := store.fits
  rw [← Int.toNat_of_nonneg (Int.le_of_lt hper)] at hfits
  obtain ⟨segment, hsegment, hinside, hpiece⟩ := hfits.exists_slot (by omega) h
  refine ⟨_, _, segment, ?_, hsegment, hinside, hpiece⟩
  rw [locate, if_pos ⟨Int.natCast_nonneg i, Int.ofNat_lt.2 h⟩, Int.toNat_natCast]

/-- **A vector is a piece of all numbers**, whatever the segments are. -/
theorem vectorAt_eq (index : Int) :
    store.vectorAt index =
      if 0 ≤ index ∧ index < store.vocabSize then
        .ok ((store.flatten.drop (index.toNat * store.layerSize)).take store.layerSize)
      else .error ⟨index, store.vocabSize⟩ := by
  split
  · next h =>
    obtain ⟨i, rfl⟩ := Int.eq_ofNat_of_zero_le h.1
    obtain ⟨s, offset, segment, hlocate, hsegment, -, hpiece⟩ :=
      store.exists_locate (Int.ofNat_lt.1 h.2)
    simp only [vectorAt, hlocate, bind, Except.bind, hsegment, Option.getD_some, hpiece,
      Int.toNat_natCast]
  · next h =>
    simp only [vectorAt, store.locate_eq_error_iff.2 h, bind, Except.bind]

/-- **Whether the vector at `index` takes up place `k` of segment `s`.** -/
def Covers (index : Int) (s k : Nat) : Prop :=
  ∃ offset, store.locate index = .ok (s, offset) ∧ offset ≤ k ∧ k < offset + store.layerSize

variable {store} {s k : Nat}

theorem covers_iff :
    store.Covers index s k ↔ (0 ≤ index ∧ index < store.vocabSize) ∧
      index.toNat / store.perSegment.toNat = s ∧
      index.toNat % store.perSegment.toNat = k / store.layerSize := by
  have hlayer := store.layerSize_pos
  have hslot := Nat.div_eq_iff hlayer (x := k) (y := index.toNat % store.perSegment.toNat)
  rw [Covers, locate]
  split
  · next hrange =>
    rw [and_iff_right hrange, eq_comm (b := k / _), hslot]
    constructor
    · rintro ⟨offset, hlocate, hle, hlt⟩
      simp only [Except.ok.injEq, Prod.mk.injEq] at hlocate
      obtain ⟨rfl, rfl⟩ := hlocate
      exact ⟨rfl, hle, by omega⟩
    · rintro ⟨rfl, hle, hlt⟩
      exact ⟨_, rfl, hle, by omega⟩
  · next hrange =>
    refine iff_of_false ?_ fun h => hrange h.1
    rintro ⟨offset, hlocate, -⟩
    cases hlocate

/-- **No gaps**: every place of every segment is taken up. -/
theorem exists_covers {segment : List Binary64} (hs : store.segments[s]? = some segment)
    (hk : k < segment.length) : ∃ index, store.Covers index s k := by
  have hfits := store.fits
  have hper : 0 < store.perSegment := by
    have hsize := store.whole_of_mem_segments (List.mem_of_getElem? hs)
    have hle := hfits.le_perSegment segment.length
      (List.mem_map_of_mem (List.mem_of_getElem? hs))
    have hpos : 0 < segment.length / store.layerSize := by
      apply Nat.pos_of_mul_pos_right
      rw [hsize]
      omega
    omega
  rw [← Int.toNat_of_nonneg (Int.le_of_lt hper)] at hfits
  obtain ⟨hlt, hindex⟩ := hfits.index_lt store.layerSize_pos hs hk
  refine ⟨(s * store.perSegment.toNat + k / store.layerSize : Nat), covers_iff.2 ⟨?_, ?_, ?_⟩⟩
  · exact ⟨Int.natCast_nonneg _, Int.ofNat_lt.2 hindex⟩
  · rw [Int.toNat_natCast, Nat.mul_comm, Nat.mul_add_div (by omega), Nat.div_eq_of_lt hlt,
      Nat.add_zero]
  · rw [Int.toNat_natCast, Nat.mul_comm, Nat.mul_add_mod, Nat.mod_eq_of_lt hlt]

/-- **No overlaps**: a place is taken up by one vector only. -/
theorem Covers.unique {index' : Int} (h : store.Covers index s k) (h' : store.Covers index' s k) :
    index = index' := by
  obtain ⟨⟨h₀, -⟩, hdiv, hmod⟩ := covers_iff.1 h
  obtain ⟨⟨h₀', -⟩, hdiv', hmod'⟩ := covers_iff.1 h'
  have hnat : index.toNat = index'.toNat := by
    rw [← Nat.div_add_mod index.toNat store.perSegment.toNat, hdiv, hmod, ← hdiv', ← hmod',
      Nat.div_add_mod]
  rw [← Int.toNat_of_nonneg h₀, hnat, Int.toNat_of_nonneg h₀']

/-! ## Vectors in order -/

theorem getElem?_chunks {α : Type} (size : Nat) {count i : Nat} (xs : List α) (h : i < count) :
    (chunks size count xs)[i]? = some ((xs.drop (i * size)).take size) := by
  induction count generalizing i xs with
  | zero => omega
  | succ count ih =>
    cases i with
    | zero => rw [chunks, List.getElem?_cons_zero, Nat.zero_mul, List.drop_zero]
    | succ i =>
      rw [chunks, List.getElem?_cons_succ, ih _ (by omega), List.drop_drop, Nat.succ_mul,
        Nat.add_comm]

variable (store)

/-- **The words come with the pieces of all numbers**, in order. -/
theorem getElem?_entries {i : Nat} {word : String} (h : store.vocab[i]? = some word) :
    store.entries[i]? =
      some (word, (store.flatten.drop (i * store.layerSize)).take store.layerSize) := by
  have hlt : i < store.vocabSize := (List.getElem?_eq_some_iff.1 h).1
  have hrow := getElem?_chunks store.layerSize store.flatten hlt
  rw [← store.rows_eq_chunks] at hrow
  rw [entries, List.getElem?_zip_eq_some]
  exact ⟨h, hrow⟩

theorem listEntries_of_ne_nil (h : store.vocab ≠ []) : store.listEntries = .ok store.entries := by
  rw [listEntries, (store.checkRows_eq_ok_iff (by decide)).2 (.inl h)]
  rfl

variable {store}

/-- **Vectors one after another are the entries of a store** with their words. -/
theorem entries_eq_of_flatten {entries : List (String × List Binary64)}
    (hall : ∀ entry ∈ entries, entry.2.length = store.layerSize)
    (hvocab : store.vocab = entries.map Prod.fst)
    (hvalues : store.flatten = entries.flatMap Prod.snd) : store.entries = entries := by
  have hlength : ∀ vector ∈ entries.map Prod.snd, vector.length = store.layerSize := by
    intro vector hvector
    obtain ⟨entry, hentry, rfl⟩ := List.mem_map.1 hvector
    exact hall entry hentry
  have hchunks := chunks_flatten hlength []
  rw [List.length_map, List.append_nil, ← List.flatMap_def] at hchunks
  have hrows : store.rows = entries.map Prod.snd := by
    rw [store.rows_eq_chunks, Store.vocabSize, hvocab, List.length_map, hvalues, hchunks]
  rw [Store.entries, hvocab, hrows]
  exact (List.zip_of_prod rfl rfl).symm

/-- The vector of an entry. -/
theorem vectorAt_eq_of_entries {i : Nat} {entry : String × List Binary64}
    (h : store.entries[i]? = some entry) : store.vectorAt i = .ok entry.2 := by
  have hlt : i < store.vocabSize := by
    rw [← store.length_entries]
    exact (List.getElem?_eq_some_iff.1 h).1
  have hword : store.vocab[i]? = some store.vocab[i] := List.getElem?_eq_getElem hlt
  rw [store.getElem?_entries hword, Option.some.injEq] at h
  rw [store.vectorAt_eq, if_pos (by omega), ← h, Int.toNat_natCast]

/-! ## Stores of given segments -/

theorem of_ofSegments_eq_ok {vocab : List String} {layerSize : Int}
    {segments : List (List Binary64)} {perSegment : Option Int}
    (h : ofSegments vocab layerSize segments perSegment = .ok store) :
    store.vocab = vocab ∧ (store.layerSize : Int) = layerSize ∧ store.segments = segments ∧
      ∀ n ∈ perSegment, store.perSegment = n := by
  simp only [ofSegments] at h
  split at h
  · cases h
  · split at h
    · cases h
    · obtain rfl := Except.ok.inj h
      refine ⟨rfl, Int.toNat_of_nonneg (by omega), rfl, ?_⟩
      rintro n hn
      show perSegment.getD _ = n
      rw [Option.mem_def.1 hn, Option.getD_some]

/-- **Addresses in the store of given segments.** The segments are full but for the last, and hold
one vector per word. A lookup fails exactly if the index is out of range; otherwise it divides by a
positive number, and the vector lies inside its segment. The vectors take up every place of every
segment, each place once. The vector at an index is the piece of all numbers with that index, and
is the one that comes with its word. -/
theorem ofSegments_addressing {vocab : List String} {layerSize : Int}
    {segments : List (List Binary64)} {perSegment : Option Int}
    (h : ofSegments vocab layerSize segments perSegment = .ok store) :
    (store.vocab = vocab ∧ (store.layerSize : Int) = layerSize ∧ store.segments = segments ∧
      ∀ n ∈ perSegment, store.perSegment = n) ∧
    ((∀ segment ∈ segments.dropLast, (segment.length : Int) = store.perSegment * layerSize) ∧
      (∀ segment ∈ segments.getLast?, ∃ count : Nat,
        (segment.length : Int) = count * layerSize ∧ count ≤ store.perSegment) ∧
      (segments.flatten.length : Int) = vocab.length * layerSize) ∧
    (∀ index, store.locate index = .error ⟨index, vocab.length⟩ ↔
      ¬ (0 ≤ index ∧ index < vocab.length)) ∧
    (∀ index : Int, 0 ≤ index → index < vocab.length → 0 < store.perSegment ∧
      ∃ s offset segment, store.locate index = .ok (s, offset) ∧ segments[s]? = some segment ∧
        offset + layerSize ≤ segment.length) ∧
    ((∀ index index' s k, store.Covers index s k → store.Covers index' s k → index = index') ∧
      ∀ s segment k, segments[s]? = some segment → k < segment.length →
        ∃ index, store.Covers index s k) ∧
    ∀ (i : Nat) (word : String), vocab[i]? = some word →
      store.vectorAt i = .ok ((store.flatten.drop (i * store.layerSize)).take store.layerSize) ∧
      ∃ entries, store.listEntries = .ok entries ∧ entries[i]? =
        some (word, (store.flatten.drop (i * store.layerSize)).take store.layerSize) := by
  obtain ⟨rfl, rfl, rfl, hper⟩ := of_ofSegments_eq_ok h
  have hfits := store.fits
  refine ⟨⟨rfl, rfl, rfl, hper⟩, ⟨?full, ?last, ?total⟩, ?fails, ?inside, ⟨?once, ?all⟩, ?vector⟩
  case full =>
    intro segment hsegment
    have hmem : segment.length ∈ (store.segments.map List.length).dropLast := by
      rw [← List.map_dropLast]
      exact List.mem_map_of_mem hsegment
    rw [← hfits.full _ hmem, ← Int.natCast_mul,
      store.whole_of_mem_segments (List.dropLast_subset _ hsegment)]
  case last =>
    intro segment hsegment
    have hmem : segment.length ∈ (store.segments.map List.length).getLast? := by
      rw [List.getLast?_map, Option.mem_def.1 hsegment]
      rfl
    refine ⟨segment.length / store.layerSize, ?_, hfits.last _ hmem⟩
    rw [← Int.natCast_mul, store.whole_of_mem_segments (List.mem_of_getLast? hsegment)]
  case total => rw [← Int.natCast_mul, ← store.length_flatten, flatten]
  case fails => exact fun index => store.locate_eq_error_iff
  case inside =>
    intro index h₀ hlt
    obtain ⟨i, rfl⟩ := Int.eq_ofNat_of_zero_le h₀
    obtain ⟨s, offset, segment, hlocate, hsegment, hinside, -⟩ :=
      store.exists_locate (Int.ofNat_lt.1 hlt)
    exact ⟨store.perSegment_pos h₀ hlt, s, offset, segment, hlocate, hsegment, by omega⟩
  case once => exact fun index index' s k hcovers hcovers' => hcovers.unique hcovers'
  case all => exact fun s segment k hs hk => exists_covers hs hk
  case vector =>
    intro i word hword
    have hlt : i < store.vocabSize := (List.getElem?_eq_some_iff.1 hword).1
    refine ⟨?_, store.entries, ?_, store.getElem?_entries hword⟩
    · rw [store.vectorAt_eq, if_pos ⟨Int.natCast_nonneg i, Int.ofNat_lt.2 hlt⟩, Int.toNat_natCast]
    · apply store.listEntries_of_ne_nil
      rintro hnil
      rw [vocabSize, hnil] at hlt
      cases hlt

/-- Two full segments and an empty one behind them. -/
theorem ofSegments_addressing_three :
    let x := Binary64.ofPattern 0x3FF0000000000000
    ∃ store, ofSegments ["a", "b"] 2 [[x, .zero], [.nan, x], []] (some 1) = .ok store ∧
      0 < store.perSegment ∧ store.locate 2 = .error ⟨2, 2⟩ ∧
      store.vectorAt 1 = .ok [.nan, x] ∧ ∃ index, store.Covers index 1 1 ∧
        ∀ index', store.Covers index' 1 1 → index' = index := by
  intro x
  have hfits : Layout.Fits 2 1 ["a", "b"].length
      ([[x, .zero], [.nan, x], []].map List.length) := Layout.fault?_eq_none_iff.1 (by decide)
  have h := ofSegments_of_fits (by decide) hfits
  obtain ⟨-, -, hfails, hinside, ⟨honce, hall⟩, hvector⟩ := ofSegments_addressing h
  obtain ⟨index, hcovers⟩ := hall 1 [.nan, x] 1 rfl (by decide)
  exact ⟨_, h, (hinside 0 (by decide) (by decide)).1, (hfails 2).2 (by decide),
    (hvector 1 "b" rfl).1, index, hcovers, fun index' h' => honce _ _ _ _ h' hcovers⟩

end Store

end WordVectors
