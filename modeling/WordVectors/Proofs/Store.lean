import Mathlib
import WordVectors.Payload.Basic

/-!
# Vectors of a store

The vectors of a store are its numbers in order, cut into pieces of equal size, whatever its
segments are; and the numbers of a model, cut into the sizes of its segments, make a store.

## Main definitions

* `Store.SameContent`: stores that differ in their segments only
* `Store.HasRows`: whether a store can be seen as rows

## Main results

* `flatten_chunks`, `chunks_flatten`, `flatten_cut`: pieces of a list, one after another
* `sum_partition`, `fits_partition`: the sizes of segments cover all vectors and fit them
* `checkSegments_eq_ok_iff`: when the segments for a number of vectors can be made
* `Store.flatten_rows`, `Store.length_rows`, `Store.length_of_mem_rows`: a store has one vector
  per word
* `Store.checkRows_eq_ok_iff`: when the vectors of a store can be listed
* `Store.ofSegments_cut`, `Store.ofDense_eq_ok`: numbers are the numbers of a store, in segments
  or in one list
* `Store.of_ofDense_eq_ok`: what is known of a store of numbers in one list
-/

namespace WordVectors

variable {α : Type}

/-! ## Pieces -/

@[simp] theorem length_chunks (size count : Nat) (xs : List α) :
    (chunks size count xs).length = count := by
  induction count generalizing xs with
  | zero => rfl
  | succ count ih => rw [chunks, List.length_cons, ih]

theorem flatten_chunks (size count : Nat) (xs : List α) :
    (chunks size count xs).flatten = xs.take (count * size) := by
  induction count generalizing xs with
  | zero => rw [chunks, Nat.zero_mul, List.take_zero, List.flatten_nil]
  | succ count ih =>
    rw [chunks, List.flatten_cons, ih, Nat.succ_mul, Nat.add_comm, List.take_add]

theorem length_of_mem_chunks {size count : Nat} {xs : List α} (h : count * size ≤ xs.length) :
    ∀ x ∈ chunks size count xs, x.length = size := by
  induction count generalizing xs with
  | zero =>
    intro x hx
    cases hx
  | succ count ih =>
    rw [Nat.succ_mul] at h
    intro x hx
    rcases List.mem_cons.1 hx with rfl | hx
    · rw [List.length_take]
      omega
    · refine ih ?_ x hx
      rw [List.length_drop]
      omega

/-- Pieces of one size, put together, are cut into the same pieces. -/
theorem chunks_flatten {size : Nat} {xss : List (List α)} (h : ∀ xs ∈ xss, xs.length = size)
    (rest : List α) : chunks size xss.length (xss.flatten ++ rest) = xss := by
  induction xss with
  | nil => rfl
  | cons xs xss ih =>
    have hxs : xs.length = size := h xs List.mem_cons_self
    rw [List.length_cons, chunks, List.flatten_cons, List.append_assoc,
      List.take_left' hxs, List.drop_left' hxs, ih fun ys hys => h ys (List.mem_cons_of_mem _ hys)]

/-- The vectors of entries have as many components as each times the number of words. -/
theorem length_flatMap_snd {β : Type} {size : Nat} {entries : List (β × List α)}
    (h : ∀ entry ∈ entries, entry.2.length = size) :
    (entries.flatMap Prod.snd).length = (entries.map Prod.fst).length * size := by
  rw [List.length_flatMap, List.map_congr_left h, List.map_const', List.sum_replicate_nat,
    List.length_map]

theorem flatten_cut (sizes : List Nat) (xs : List α) :
    (cut sizes xs).flatten = xs.take sizes.sum := by
  induction sizes generalizing xs with
  | nil => rw [cut, List.sum_nil, List.take_zero, List.flatten_nil]
  | cons size sizes ih => rw [cut, List.flatten_cons, ih, List.sum_cons, List.take_add]

theorem map_length_cut {sizes : List Nat} {xs : List α} (h : sizes.sum ≤ xs.length) :
    (cut sizes xs).map List.length = sizes := by
  induction sizes generalizing xs with
  | nil => rfl
  | cons size sizes ih =>
    rw [List.sum_cons] at h
    have hrest : sizes.sum ≤ (xs.drop size).length := by
      rw [List.length_drop]
      omega
    rw [cut, List.map_cons, ih hrest, List.length_take, Nat.min_eq_left (by omega)]

/-! ## Sizes of segments -/

theorem sum_partition (vectors layerSize perSegment : Nat) :
    (partition vectors layerSize perSegment).sum = vectors * layerSize := by
  have hsum : vectors / perSegment * (perSegment * layerSize) +
      vectors % perSegment * layerSize = vectors * layerSize := by
    rw [← Nat.mul_assoc, ← Nat.add_mul, Nat.mul_comm _ perSegment, Nat.div_add_mod]
  rw [← hsum, partition, List.sum_append, List.sum_replicate_nat]
  by_cases h : vectors % perSegment = 0
  · simp only [h, if_true, List.sum_nil, Nat.zero_mul]
  · simp only [h, if_false, List.sum_singleton]

/-- A capacity that holds a vector gives segments that do. -/
theorem vectorsPerSegment_of_le {layerSize : Nat} {capacity : Int} (hlayer : 0 < layerSize)
    (hle : (layerSize : Int) ≤ capacity) :
    vectorsPerSegment layerSize capacity = .ok (capacity.toNat / layerSize) ∧
      0 < capacity.toNat / layerSize := by
  refine ⟨?_, Nat.div_pos (by omega) hlayer⟩
  rw [vectorsPerSegment, if_neg (by omega), if_neg (by omega), Int.toNat_natCast]

theorem le_of_vectorsPerSegment_eq_ok {layerSize perSegment : Nat} {capacity : Int}
    (h : vectorsPerSegment layerSize capacity = .ok perSegment) :
    0 < layerSize ∧ (layerSize : Int) ≤ capacity := by
  rw [vectorsPerSegment] at h
  split_ifs at h
  omega

theorem holds_singleton_iff [Memory] {count : Nat} :
    Memory.Holds [count] ↔ Room.checkArray 0 count = .ok () := by
  simp only [Memory.Holds, Room.checkArrays]
  cases Room.checkArray 0 count <;> rfl

theorem segmentSizes_of_le {layerSize : Nat} {capacity : Int} (hlayer : 0 < layerSize)
    (hle : (layerSize : Int) ≤ capacity) (vectors : Nat) :
    segmentSizes vectors layerSize capacity =
      .ok (partition vectors layerSize (capacity.toNat / layerSize)) := by
  rw [segmentSizes, if_neg (by omega), (vectorsPerSegment_of_le hlayer hle).1]
  rfl

/-- **Segments can be made exactly if memory holds them.** -/
theorem checkSegments_eq_ok_iff [Memory] {layerSize : Nat} {capacity : Int} (hlayer : 0 < layerSize)
    (hle : (layerSize : Int) ≤ capacity) (vectors : Nat) :
    Room.checkSegments vectors layerSize (capacity.toNat / layerSize) = .ok () ↔
      Memory.HoldsSegments vectors layerSize capacity := by
  rw [Room.checkSegments_eq, Memory.HoldsSegments, segmentSizes_of_le hlayer hle]
  constructor
  · rintro h _ ⟨⟩
    exact h
  · intro h
    exact h _ rfl

namespace Layout

variable {layerSize perSegment : Nat}

theorem vectorCount_eq_sum (sizes : List Nat) :
    vectorCount layerSize sizes = (sizes.map (· / layerSize)).sum := by
  induction sizes with
  | nil => rfl
  | cons size sizes ih => rw [vectorCount, ih, List.map_cons, List.sum_cons]

theorem vectorCount_append (sizes sizes' : List Nat) :
    vectorCount layerSize (sizes ++ sizes') =
      vectorCount layerSize sizes + vectorCount layerSize sizes' := by
  rw [vectorCount_eq_sum, vectorCount_eq_sum, vectorCount_eq_sum, List.map_append,
    List.sum_append]

/-- **The sizes of the segments for a number of vectors fit them.** -/
theorem fits_partition (hlayer : 0 < layerSize) (hper : 0 < perSegment) (vectors : Nat) :
    Fits layerSize perSegment vectors (partition vectors layerSize perSegment) := by
  have hfull : perSegment * layerSize / layerSize = perSegment := Nat.mul_div_cancel _ hlayer
  have hlast : vectors % perSegment * layerSize / layerSize = vectors % perSegment :=
    Nat.mul_div_cancel _ hlayer
  have hlt : vectors % perSegment < perSegment := Nat.mod_lt _ hper
  have hcount : vectorCount layerSize
      (List.replicate (vectors / perSegment) (perSegment * layerSize)) =
        vectors / perSegment * perSegment := by
    rw [vectorCount_eq_sum, List.map_replicate, hfull, List.sum_replicate_nat]
  have hwhole := Nat.div_add_mod' vectors perSegment
  by_cases hrest : vectors % perSegment = 0
  · simp only [partition, hrest, if_true, List.append_nil]
    constructor
    case whole =>
      intro n hn
      rw [List.eq_of_mem_replicate hn, Nat.mul_mod_left]
    case full =>
      intro n hn
      rw [List.eq_of_mem_replicate (List.dropLast_subset _ hn), hfull]
    case last =>
      intro n hn
      have hlen := List.eq_of_mem_replicate (List.mem_of_getLast? hn)
      exact Int.le_of_eq (by rw [hlen, hfull])
    case total => omega
  · simp only [partition, hrest, if_false]
    constructor
    case whole =>
      intro n hn
      rcases List.mem_append.1 hn with hn | hn
      · rw [List.eq_of_mem_replicate hn, Nat.mul_mod_left]
      · rw [List.mem_singleton.1 hn, Nat.mul_mod_left]
    case full =>
      intro n hn
      rw [List.dropLast_concat] at hn
      rw [List.eq_of_mem_replicate hn, hfull]
    case last =>
      intro n hn
      rw [List.getLast?_concat, Option.mem_some_iff] at hn
      rw [← hn, hlast]
      omega
    case total =>
      rw [vectorCount_append, hcount, vectorCount, vectorCount, hlast]
      omega

/-- So does the size of a single segment. -/
theorem fits_singleton (hlayer : 0 < layerSize) (vectors : Nat) :
    Fits layerSize vectors vectors [vectors * layerSize] := by
  have hcount : vectors * layerSize / layerSize = vectors := Nat.mul_div_cancel _ hlayer
  constructor
  case whole =>
    intro n hn
    rw [List.mem_singleton.1 hn, Nat.mul_mod_left]
  case full =>
    intro n hn
    cases hn
  case last =>
    intro n hn
    rw [List.getLast?_singleton, Option.mem_some_iff] at hn
    exact Int.le_of_eq (by rw [← hn, hcount])
  case total => rw [vectorCount, vectorCount, hcount, Nat.add_zero]

/-- No segment holds more vectors than agreed. -/
theorem Fits.le_perSegment {perSegment : Int} {words : Nat} {sizes : List Nat}
    (h : Fits layerSize perSegment words sizes) :
    ∀ n ∈ sizes, ((n / layerSize : Nat) : Int) ≤ perSegment := by
  intro n hn
  rcases List.eq_nil_or_concat sizes with rfl | ⟨init, last, rfl⟩
  · cases hn
  · rw [List.concat_eq_append] at hn h
    rcases List.mem_append.1 hn with hn | hn
    · apply Int.le_of_eq
      apply h.full n
      rwa [List.dropLast_concat]
    · apply h.last n
      rw [List.getLast?_concat, List.mem_singleton.1 hn]
      rfl

/-- Segments without room hold no vectors. -/
theorem Fits.eq_zero_of_nonpos {perSegment : Int} {words : Nat} {sizes : List Nat}
    (h : Fits layerSize perSegment words sizes) (hper : perSegment ≤ 0) : words = 0 := by
  rw [← h.total, vectorCount_eq_sum, List.sum_eq_zero_iff_forall_eq_nat]
  intro n hn
  obtain ⟨size, hsize, rfl⟩ := List.mem_map.1 hn
  exact Nat.le_zero.1 (Int.ofNat_le.1 ((h.le_perSegment size hsize).trans hper))

/-- When the first segment is empty there are no vectors. -/
theorem Fits.eq_zero_of_head {perSegment : Int} {words : Nat} {sizes : List Nat}
    (h : Fits layerSize perSegment words (0 :: sizes)) : words = 0 := by
  cases sizes with
  | nil =>
    rw [← h.total, vectorCount, vectorCount, Nat.zero_div]
  | cons size sizes =>
    have hper : ((0 / layerSize : Nat) : Int) = perSegment := h.full 0 List.mem_cons_self
    rw [Nat.zero_div] at hper
    exact h.eq_zero_of_nonpos (Int.le_of_eq hper.symm)

end Layout

/-! ## Vectors -/

namespace Store

variable (store : Store)

theorem whole_of_mem_segments {segment : List Binary64} (h : segment ∈ store.segments) :
    segment.length / store.layerSize * store.layerSize = segment.length :=
  Nat.div_mul_cancel (Nat.dvd_of_mod_eq_zero (store.fits.whole _ (List.mem_map_of_mem h)))

theorem flatten_segmentRows {segment : List Binary64} (h : segment ∈ store.segments) :
    (store.segmentRows segment).flatten = segment := by
  rw [segmentRows, flatten_chunks, store.whole_of_mem_segments h, List.take_length]

/-- **The vectors of a store are its numbers**, one vector after another. -/
theorem flatten_rows : store.rows.flatten = store.flatten := by
  have hrows : store.segments.map (fun s => (store.segmentRows s).flatten) = store.segments :=
    (List.map_congr_left fun s hs => store.flatten_segmentRows hs).trans (List.map_id _)
  rw [rows, flatten, List.flatMap_def, List.flatten_flatten, List.map_map, Function.comp_def, hrows]

/-- **Every vector has all components.** -/
theorem length_of_mem_rows : ∀ row ∈ store.rows, row.length = store.layerSize := by
  intro row hrow
  obtain ⟨segment, hsegment, hrow⟩ := List.mem_flatMap.1 hrow
  exact length_of_mem_chunks (Nat.le_of_eq (store.whole_of_mem_segments hsegment)) row hrow

/-- **There is one vector per word.** -/
theorem length_rows : store.rows.length = store.vocabSize := by
  have hcount : ∀ segments : List (List Binary64),
      (segments.flatMap store.segmentRows).length =
        Layout.vectorCount store.layerSize (segments.map List.length) := by
    intro segments
    induction segments with
    | nil => rfl
    | cons segment segments ih =>
      rw [List.flatMap_cons, List.length_append, ih, segmentRows, length_chunks, List.map_cons,
        Layout.vectorCount]
  rw [rows, hcount, store.fits.total, vocabSize]

/-- The vectors of a store do not depend on its segments. -/
theorem rows_eq_chunks : store.rows = chunks store.layerSize store.vocabSize store.flatten := by
  have hchunks := chunks_flatten store.length_of_mem_rows []
  rw [List.append_nil, store.flatten_rows, store.length_rows] at hchunks
  exact hchunks.symm

theorem map_fst_entries : store.entries.map Prod.fst = store.vocab :=
  List.map_fst_zip (Nat.le_of_eq store.length_rows.symm)

theorem map_snd_entries : store.entries.map Prod.snd = store.rows :=
  List.map_snd_zip (Nat.le_of_eq store.length_rows)

theorem length_entries : store.entries.length = store.vocabSize := by
  rw [← List.length_map Prod.fst, store.map_fst_entries, vocabSize]

theorem flatMap_snd_entries : store.entries.flatMap Prod.snd = store.flatten := by
  rw [List.flatMap_def, store.map_snd_entries, store.flatten_rows]

theorem length_of_mem_entries : ∀ entry ∈ store.entries, entry.2.length = store.layerSize := by
  intro entry hentry
  apply store.length_of_mem_rows entry.2
  rw [← store.map_snd_entries]
  exact List.mem_map_of_mem hentry

/-- **Whether two stores have the same content**, however it is spread over segments. -/
structure SameContent (s t : Store) : Prop where
  vocab : s.vocab = t.vocab
  layerSize : s.layerSize = t.layerSize
  flatten : s.flatten = t.flatten

theorem SameContent.symm {s t : Store} (h : s.SameContent t) : t.SameContent s :=
  ⟨h.vocab.symm, h.layerSize.symm, h.flatten.symm⟩

theorem SameContent.trans {s t u : Store} (h : s.SameContent t) (h' : t.SameContent u) :
    s.SameContent u :=
  ⟨h.vocab.trans h'.vocab, h.layerSize.trans h'.layerSize, h.flatten.trans h'.flatten⟩

/-- **Whether a store can be seen as rows** of components of `width` octets: it has words, or no
segments, or its rows are short enough. -/
def HasRows (width : Nat) : Prop :=
  store.vocab ≠ [] ∨ store.segments = [] ∨ width * store.layerSize < Room.sizeLimit

/-- Rows of shorter components are shorter. -/
theorem HasRows.mono {store : Store} {width width' : Nat} (h : store.HasRows width)
    (hle : width' ≤ width) : store.HasRows width' :=
  h.imp_right (Or.imp_right (Nat.mul_le_mul_right store.layerSize hle).trans_lt)

theorem checkRows_eq_ok_iff {width : Nat} (hwidth : 0 < width) :
    store.checkRows width = .ok () ↔ store.HasRows width := by
  have hfits := store.fits
  have hle := Nat.le_mul_of_pos_left store.layerSize hwidth
  rw [checkRows, HasRows]
  rcases hsegments : store.segments with _ | ⟨_ | ⟨x, xs⟩, rest⟩
  · exact iff_of_true rfl (.inr (.inl rfl))
  · rw [hsegments, List.map_cons, List.length_nil] at hfits
    have hnil : store.vocab = [] := List.length_eq_zero_iff.1 hfits.eq_zero_of_head
    dsimp only
    rw [Room.checkRows, hnil]
    split
    · exact iff_of_false (fun h => by cases h) (by simp; omega)
    · split
      · exact iff_of_false (fun h => by cases h) (by simp; omega)
      · exact iff_of_true rfl (.inr (.inr (by omega)))
  · refine iff_of_true rfl (.inl ?_)
    intro hnil
    have hlength := store.length_flatten
    rw [hnil, List.length_nil, Nat.zero_mul, flatten, hsegments] at hlength
    cases List.length_eq_zero_iff.1 hlength

/-! ## Construction -/

/-- Segments that fit are those of a store. -/
theorem ofSegments_of_fits {vocab : List String} {layerSize : Nat} {perSegment : Int}
    {segments : List (List Binary64)} (hlayer : 0 < layerSize)
    (hfits : Layout.Fits layerSize perSegment vocab.length (segments.map List.length)) :
    ofSegments vocab layerSize segments (some perSegment) =
      .ok ⟨vocab, layerSize, perSegment, segments, hlayer, hfits⟩ := by
  have hnone := Layout.fault?_eq_none_iff.2 hfits
  rw [ofSegments, dif_neg (by omega)]
  dsimp only [Int.toNat_natCast, Option.getD_some]
  split
  · next fault hsome =>
    rw [hnone] at hsome
    cases hsome
  · rfl

/-- **Numbers cut into segments are the numbers of a store.** -/
theorem ofSegments_cut {vocab : List String} {layerSize perSegment : Nat}
    {values : List Binary64} (hlayer : 0 < layerSize) (hper : 0 < perSegment)
    (hlength : values.length = vocab.length * layerSize) :
    ∃ store, ofSegments vocab layerSize
        (cut (partition vocab.length layerSize perSegment) values) (some perSegment) = .ok store ∧
      store.vocab = vocab ∧ store.layerSize = layerSize ∧ store.flatten = values ∧
      store.segments = cut (partition vocab.length layerSize perSegment) values := by
  have hsum := sum_partition vocab.length layerSize perSegment
  have hfits : Layout.Fits layerSize perSegment vocab.length
      ((cut (partition vocab.length layerSize perSegment) values).map List.length) := by
    rw [map_length_cut (by omega)]
    exact Layout.fits_partition hlayer hper vocab.length
  refine ⟨_, ofSegments_of_fits hlayer hfits, rfl, rfl, ?_, rfl⟩
  rw [flatten, flatten_cut, hsum, ← hlength, List.take_length]

/-- **Numbers in one list are the numbers of a store**, whatever the capacity, if it holds a
vector. Without vectors there is one empty segment, or none if there is a capacity. -/
theorem ofDense_eq_ok {vocab : List String} {layerSize : Nat} {values : List Binary64}
    {capacity : Option Int} (hlayer : 0 < layerSize)
    (hcapacity : ∀ c ∈ capacity, (layerSize : Int) ≤ c)
    (hlength : values.length = vocab.length * layerSize) :
    ∃ store, ofDense vocab layerSize values capacity = .ok store ∧ store.vocab = vocab ∧
      store.layerSize = layerSize ∧ store.flatten = values ∧
      (vocab = [] → store.segments = if capacity = none then [[]] else []) := by
  have hcount : ¬ (values.length : Int) ≠ vocab.length * layerSize := by
    rw [hlength]
    exact fun hne => hne (Int.natCast_mul _ _)
  cases capacity with
  | none =>
    simp only [ofDense, if_neg hcount]
    have hfits : Layout.Fits layerSize vocab.length vocab.length ([values].map List.length) := by
      rw [List.map_singleton, hlength]
      exact Layout.fits_singleton hlayer vocab.length
    refine ⟨_, ofSegments_of_fits hlayer hfits, rfl, rfl, List.append_nil _, ?_⟩
    rintro rfl
    rw [List.length_nil, Nat.zero_mul] at hlength
    rw [if_pos trivial]
    exact congrArg ([·]) (List.length_eq_zero_iff.1 hlength)
  | some c =>
    obtain ⟨hper, hpos⟩ := vectorsPerSegment_of_le hlayer (hcapacity c rfl)
    obtain ⟨store, hstore, hvocab, hsize, hvalues, hsegments⟩ := ofSegments_cut hlayer hpos hlength
    refine ⟨store, ?_, hvocab, hsize, hvalues, ?_⟩
    · have hsizes := segmentSizes_of_le hlayer (hcapacity c rfl) vocab.length
      simp only [ofDense, if_neg hcount, hsizes, hper]
      exact hstore
    · rintro rfl
      rw [hsegments, if_neg (Option.some_ne_none c), List.length_nil, partition, Nat.zero_div,
        Nat.zero_mod, List.replicate_zero, if_pos rfl]
      rfl

theorem length_of_ofDense_eq_ok {vocab : List String} {layerSize : Nat}
    {values : List Binary64} {capacity : Option Int} {store : Store}
    (h : ofDense vocab layerSize values capacity = .ok store) :
    values.length = vocab.length * layerSize := by
  by_contra hne
  have hcount : (values.length : Int) ≠ vocab.length * layerSize := by exact_mod_cast hne
  simp only [ofDense, if_pos hcount] at h
  cases h

theorem le_of_ofDense_eq_ok {vocab : List String} {layerSize : Nat} {values : List Binary64}
    {capacity : Option Int} {store : Store}
    (h : ofDense vocab layerSize values capacity = .ok store) :
    0 < layerSize ∧ ∀ c ∈ capacity, (layerSize : Int) ≤ c := by
  have hcount : ¬ (values.length : Int) ≠ vocab.length * layerSize := by
    rw [length_of_ofDense_eq_ok h]
    exact fun hne => hne (Int.natCast_mul _ _)
  simp only [ofDense, if_neg hcount] at h
  cases capacity with
  | none =>
    simp only [ofSegments] at h
    split at h
    · cases h
    · exact ⟨by omega, fun c hc => by cases hc⟩
  | some c =>
    obtain ⟨sizes, -, h⟩ := exists_of_bind_eq_ok h
    obtain ⟨perSegment, hper, -⟩ := exists_of_bind_eq_ok h
    obtain ⟨hlayer, hle⟩ := le_of_vectorsPerSegment_eq_ok (eq_ok_of_mapError_eq_ok hper)
    refine ⟨hlayer, ?_⟩
    rintro c' hc
    obtain rfl := Option.some.inj hc
    exact hle

/-- **Numbers in one list that make a store** are those of the store, which has one vector per
word. -/
theorem of_ofDense_eq_ok {vocab : List String} {layerSize : Nat} {values : List Binary64}
    {capacity : Option Int} {store : Store}
    (h : ofDense vocab layerSize values capacity = .ok store) :
    store.vocab = vocab ∧ store.layerSize = layerSize ∧ store.flatten = values ∧
      (vocab = [] → store.segments = if capacity = none then [[]] else []) := by
  obtain ⟨hlayer, hcapacity⟩ := le_of_ofDense_eq_ok h
  obtain ⟨store', hstore, hsame⟩ :=
    ofDense_eq_ok hlayer hcapacity (length_of_ofDense_eq_ok h)
  obtain rfl := Except.ok.inj (h.symm.trans hstore)
  exact hsame

end Store

/-! ## Writing -/

/-- **When a model is written**: its sizes are not too long, and its vectors can be laid out. -/
theorem WriteError.eq_ok_iff {β : Type} {isTooLong : Bool} {rows : Except RoomError Unit}
    {written out : β} :
    (if isTooLong then .error numeral
      else match rows with
        | .error e => .error (room e)
        | .ok () => .ok written) = (.ok out : Except WriteError β) ↔
      isTooLong = false ∧ rows = .ok () ∧ out = written := by
  cases isTooLong
  · rw [if_neg Bool.false_ne_true]
    cases rows with
    | error e => exact iff_of_false (fun h => by cases h) fun h => by cases h.2.1
    | ok _ => exact ⟨fun h => ⟨rfl, rfl, (Except.ok.inj h).symm⟩, fun h => by rw [h.2.2]⟩
  · rw [if_pos rfl]
    exact iff_of_false (fun h => by cases h) fun h => by cases h.1

end WordVectors
