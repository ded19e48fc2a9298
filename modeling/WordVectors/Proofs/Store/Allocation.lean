import WordVectors.Proofs.Binary.Segments

/-!
# Allocation of segments

Segments are allocated by quotient and remainder before their numbers are known, and a store looks
at their sizes once more when it is made of them. The two agree: segments that were allocated are
never refused, whether their numbers come in one list or from the records of a file. Where memory
holds the segments, nothing but the sizes decides whether they are allocated.

## Main definitions

* `Layout.IsPartition`: sizes of segments that hold a number of vectors under a bound

## Main results

* `allocate_eq_ok_iff`, `exists_room_error`: what memory has to do with it
* `Layout.isPartition_partition`: quotient and remainder give sizes of segments
* `Binary.decode_segments`: the segments of a model that was read are those allocated for it
* `allocate_partitions`: when segments are allocated, and what is known of them
-/

namespace WordVectors

/-! ## Sizes of segments -/

namespace Layout

/-- **Sizes of segments for a number of vectors**: no segment is empty, all hold whole vectors and
no more numbers than the bound, all but the last hold the same number of vectors, and together they
hold all. -/
structure IsPartition (vectors layerSize perSegment : ℕ) (capacity : Int) (sizes : List ℕ) :
    Prop where
  pos : ∀ n ∈ sizes, 0 < n
  whole : ∀ n ∈ sizes, layerSize ∣ n
  le_capacity : ∀ n ∈ sizes, (n : Int) ≤ capacity
  full : ∀ n ∈ sizes.dropLast, n = perSegment * layerSize
  length_eq : sizes.length = vectors ⌈/⌉ perSegment
  sum_eq : sizes.sum = vectors * layerSize

variable {vectors layerSize perSegment : ℕ}

theorem eq_of_mem_partition {n : ℕ} (h : n ∈ partition vectors layerSize perSegment) :
    n = perSegment * layerSize ∨
      n = vectors % perSegment * layerSize ∧ vectors % perSegment ≠ 0 := by
  rcases List.mem_append.1 h with h | h
  · exact .inl (List.eq_of_mem_replicate h)
  · split at h
    · cases h
    · next hne => exact .inr ⟨List.mem_singleton.1 h, hne⟩

theorem length_partition (hper : 0 < perSegment) :
    (partition vectors layerSize perSegment).length = vectors ⌈/⌉ perSegment := by
  have hwhole := Nat.div_add_mod vectors perSegment
  have hlt := Nat.mod_lt vectors hper
  rw [partition, List.length_append, List.length_replicate]
  apply Nat.le_antisymm
  · have hle := (ceilDiv_le_iff_le_mul hper).1 (le_refl (vectors ⌈/⌉ perSegment))
    split
    · exact Nat.div_le_of_le_mul hle
    · next hne =>
      have hlt : vectors / perSegment < vectors ⌈/⌉ perSegment := by
        refine Nat.lt_of_mul_lt_mul_left (a := perSegment) ?_
        omega
      exact hlt
  · rw [ceilDiv_le_iff_le_mul hper, Nat.mul_add]
    split
    · omega
    · rw [List.length_singleton, Nat.mul_one]
      omega

/-- **Quotient and remainder give sizes of segments.** -/
theorem isPartition_partition {capacity : Int} (hlayer : 0 < layerSize) (hper : 0 < perSegment)
    (hle : ((perSegment * layerSize : ℕ) : Int) ≤ capacity) (vectors : ℕ) :
    IsPartition vectors layerSize perSegment capacity (partition vectors layerSize perSegment) where
  pos n hn := by
    rcases eq_of_mem_partition hn with rfl | ⟨rfl, hne⟩
    · exact Nat.mul_pos hper hlayer
    · exact Nat.mul_pos (Nat.pos_of_ne_zero hne) hlayer
  whole n hn := by
    rcases eq_of_mem_partition hn with rfl | ⟨rfl, -⟩ <;> exact Nat.dvd_mul_left ..
  le_capacity n hn := by
    rcases eq_of_mem_partition hn with rfl | ⟨rfl, -⟩
    · exact hle
    · have hrest := Nat.mul_le_mul_right layerSize (Nat.mod_lt vectors hper).le
      omega
  full n hn := by
    rw [partition] at hn
    split at hn
    · rw [List.append_nil] at hn
      exact List.eq_of_mem_replicate (List.dropLast_subset _ hn)
    · rw [List.dropLast_concat] at hn
      exact List.eq_of_mem_replicate hn
  length_eq := length_partition hper
  sum_eq := sum_partition vectors layerSize perSegment

end Layout

/-! ## Allocation -/

section

variable {vocabSize layerSize capacity : Int}

theorem segmentSizes_eq_ok_iff {sizes : List ℕ} :
    segmentSizes vocabSize layerSize capacity = .ok sizes ↔
      0 ≤ vocabSize ∧ 0 < layerSize ∧ layerSize ≤ capacity ∧
        sizes = partition vocabSize.toNat layerSize.toNat (capacity.toNat / layerSize.toNat) := by
  rw [segmentSizes, vectorsPerSegment]
  split_ifs with hvocab hlayer hcapacity
  · exact iff_of_false (fun h => by cases h) (by omega)
  · exact iff_of_false (fun h => by cases h) (by omega)
  · exact iff_of_false (fun h => by cases h) (by omega)
  · constructor
    · intro h
      exact ⟨by omega, by omega, by omega, (Except.ok.inj h).symm⟩
    · rintro ⟨-, -, -, rfl⟩
      rfl

variable [Memory]

/-- Where there are sizes, memory is asked for the segments one after another. -/
theorem allocate_of_segmentSizes {sizes : List ℕ}
    (h : segmentSizes vocabSize layerSize capacity = .ok sizes) :
    allocate vocabSize layerSize capacity =
      match Room.checkArrays 0 sizes with
      | .error e => .error (.room e)
      | .ok () => .ok sizes := by
  obtain ⟨hvocab, hlayer, hcapacity, hsizes⟩ := segmentSizes_eq_ok_iff.1 h
  rw [allocate, if_neg (by omega), vectorsPerSegment, if_neg (by omega), if_neg (by omega)]
  cases hroom : Room.checkArrays 0 sizes with
  | error e => simp only [Room.checkSegments_eq, ← hsizes, hroom]
  | ok _ => simp only [Room.checkSegments_eq, ← hsizes, hroom]

/-- **When segments are allocated**: there are sizes for them, and memory holds them. -/
theorem allocate_eq_ok_iff {sizes : List ℕ} :
    allocate vocabSize layerSize capacity = .ok sizes ↔
      segmentSizes vocabSize layerSize capacity = .ok sizes ∧ Memory.Holds sizes := by
  rcases hsizes : segmentSizes vocabSize layerSize capacity with e | sizes'
  · refine iff_of_false (fun h => ?_) fun h => by cases h.1
    rw [segmentSizes] at hsizes
    rw [allocate] at h
    split at h
    · cases h
    · rcases hper : vectorsPerSegment layerSize capacity with e' | perSegment
      · rw [hper] at h
        cases h
      · rw [if_neg ‹_›, hper] at hsizes
        cases hsizes
  · rw [allocate_of_segmentSizes hsizes, Memory.Holds, Except.ok.injEq]
    constructor
    · intro h
      split at h
      · cases h
      · next hroom =>
        obtain rfl := Except.ok.inj h
        exact ⟨rfl, hroom⟩
    · rintro ⟨rfl, hroom⟩
      rw [hroom]

/-- **Where memory holds the segments, they are allocated exactly if there are sizes for them.** -/
theorem exists_allocate_iff (h : Memory.HoldsSegments vocabSize layerSize capacity) :
    (∃ sizes, allocate vocabSize layerSize capacity = .ok sizes) ↔
      0 ≤ vocabSize ∧ 0 < layerSize ∧ layerSize ≤ capacity := by
  simp only [allocate_eq_ok_iff]
  constructor
  · rintro ⟨sizes, hsizes, -⟩
    obtain ⟨hvocab, hlayer, hcapacity, -⟩ := segmentSizes_eq_ok_iff.1 hsizes
    exact ⟨hvocab, hlayer, hcapacity⟩
  · rintro ⟨hvocab, hlayer, hcapacity⟩
    have hsizes := segmentSizes_eq_ok_iff.2 ⟨hvocab, hlayer, hcapacity, rfl⟩
    exact ⟨_, hsizes, h _ hsizes⟩

/-- **Where it does not, the cause is want of room.** -/
theorem exists_room_error (h : ¬ Memory.HoldsSegments vocabSize layerSize capacity) :
    ∃ e, allocate vocabSize layerSize capacity = .error (.room e) := by
  rw [Memory.HoldsSegments] at h
  push Not at h
  obtain ⟨sizes, hsizes, hroom⟩ := h
  rw [allocate_of_segmentSizes hsizes]
  rcases hcheck : Room.checkArrays 0 sizes with e | ⟨⟩
  · exact ⟨e, rfl⟩
  · exact absurd hcheck hroom

end

/-! ## Stores of allocated segments -/

namespace Store

/-- **Segments of allocated sizes are those of a store**, for any words of that number. -/
theorem ofSegments_partition {vocab : List String} {layerSize perSegment : ℕ}
    {segments : List (List Binary64)} (hlayer : 0 < layerSize) (hper : 0 < perSegment)
    (hsizes : segments.map List.length = partition vocab.length layerSize perSegment) :
    Layout.fault? layerSize perSegment vocab.length (segments.map List.length) = none ∧
      ∃ store, ofSegments vocab layerSize segments (some perSegment) = .ok store ∧
        store.vocab = vocab ∧ store.layerSize = layerSize ∧ store.perSegment = perSegment ∧
        store.segments = segments := by
  have hfits : Layout.Fits layerSize perSegment vocab.length (segments.map List.length) :=
    hsizes ▸ Layout.fits_partition hlayer hper vocab.length
  exact ⟨Layout.fault?_eq_none_iff.2 hfits, _, ofSegments_of_fits hlayer hfits, rfl, rfl, rfl, rfl⟩

variable {vocab : List String} {layerSize : Int} {values : List Binary64} {e : StoreError}

/-- **Numbers in one list are cut into segments of allocated sizes.** -/
theorem segmentSizes_of_ofDense_eq_ok {capacity : Int} {store : Store}
    (h : ofDense vocab layerSize values (some capacity) = .ok store) :
    vectorsPerSegment layerSize capacity = .ok store.perSegment.toNat ∧
      segmentSizes vocab.length layerSize capacity = .ok (store.segments.map List.length) := by
  by_cases hcount : (values.length : Int) ≠ vocab.length * layerSize
  · rw [ofDense, if_pos hcount] at h
    cases h
  · simp only [ofDense, if_neg hcount] at h
    obtain ⟨sizes, hsizes, h⟩ := exists_of_bind_eq_ok h
    obtain ⟨perSegment, hper, h⟩ := exists_of_bind_eq_ok h
    replace hsizes := eq_ok_of_mapError_eq_ok hsizes
    replace hper := eq_ok_of_mapError_eq_ok hper
    obtain ⟨-, hlayer, hcapacity, rfl⟩ := segmentSizes_eq_ok_iff.1 hsizes
    lift layerSize to ℕ using hlayer.le
    obtain ⟨heq, hpos⟩ := vectorsPerSegment_of_le (Int.natCast_pos.1 hlayer) hcapacity
    obtain rfl := Except.ok.inj (heq.symm.trans hper)
    have hlength : values.length = vocab.length * layerSize := by exact_mod_cast not_not.1 hcount
    have hcut := map_length_cut
      (by rw [sum_partition, hlength] : (partition vocab.length layerSize
        (capacity.toNat / layerSize)).sum ≤ values.length)
    obtain ⟨-, made, hmade, -, -, hfull, hsegments⟩ :=
      ofSegments_partition (Int.natCast_pos.1 hlayer) hpos hcut
    obtain rfl := Except.ok.inj (hmade.symm.trans h)
    rw [hfull, hsegments, hcut]
    exact ⟨hper, hsizes⟩

/-- Numbers in one list are refused under a bound only for their number, or because the bound
admits no segments. -/
theorem cases_of_ofDense_eq_error {capacity : Int}
    (h : ofDense vocab layerSize values (some capacity) = .error e) :
    e = .valueCount vocab.length layerSize values.length ∨
      ∃ cause, segmentSizes vocab.length layerSize capacity = .error cause ∧
        e = .capacity cause := by
  by_cases hcount : (values.length : Int) ≠ vocab.length * layerSize
  · rw [ofDense, if_pos hcount] at h
    exact .inl (Except.error.inj h).symm
  · rcases hsizes : segmentSizes vocab.length layerSize capacity with cause | sizes
    · simp only [ofDense, if_neg hcount, hsizes] at h
      exact .inr ⟨cause, rfl, (Except.error.inj h).symm⟩
    · obtain ⟨-, hlayer, hcapacity, -⟩ := segmentSizes_eq_ok_iff.1 hsizes
      lift layerSize to ℕ using hlayer.le
      have hbound : ∀ c ∈ some capacity, (layerSize : Int) ≤ c := by simpa using hcapacity
      obtain ⟨store, hstore, -⟩ := ofDense_eq_ok (by omega) hbound
        (by exact_mod_cast not_not.1 hcount : values.length = vocab.length * layerSize)
      rw [hstore] at h
      cases h

/-- Without a bound they are refused for their number, or because vectors would be empty. -/
theorem cases_of_ofDense_none_eq_error (h : ofDense vocab layerSize values none = .error e) :
    e = .valueCount vocab.length layerSize values.length ∨
      layerSize ≤ 0 ∧ e = .layerSize layerSize := by
  by_cases hcount : (values.length : Int) ≠ vocab.length * layerSize
  · rw [ofDense, if_pos hcount] at h
    exact .inl (Except.error.inj h).symm
  · rcases Int.lt_or_le 0 layerSize with hlayer | hlayer
    · lift layerSize to ℕ using hlayer.le
      have hbound : ∀ c ∈ (none : Option Int), (layerSize : Int) ≤ c := by simp
      obtain ⟨store, hstore, -⟩ := ofDense_eq_ok (by omega) hbound
        (by exact_mod_cast not_not.1 hcount : values.length = vocab.length * layerSize)
      rw [hstore] at h
      cases h
    · simp only [ofDense, if_neg hcount, ofSegments, dif_pos hlayer] at h
      exact .inr ⟨hlayer, (Except.error.inj h).symm⟩

end Store

/-! ## Binary models in allocated segments -/

namespace Binary

variable {plan : Plan} {w w' : Window} {layerSize : ℕ} {p : Progress} {e : ModelError}

theorem ne_store_of_readRecord_eq_error (h : readRecord plan layerSize w = .error e)
    (cause : StoreError) : e ≠ .store cause := by
  rintro rfl
  rcases cases_of_bind_eq_error h with h | ⟨token, -, h⟩
  · obtain ⟨_, -, h⟩ := exists_of_mapError_eq_error h
    cases h
  · rcases cases_of_bind_eq_error h with h | ⟨word, -, h⟩
    · obtain ⟨_, -, h⟩ := exists_of_mapError_eq_error h
      cases h
    · rcases cases_of_bind_eq_error h with h | ⟨floats, -, h⟩
      · obtain ⟨_, -, h⟩ := exists_of_mapError_eq_error h
        cases h
      · cases h

theorem ne_store_of_moveOn_eq_error {q : Progress} (h : moveOn w p = (q, .error e))
    (cause : StoreError) : e ≠ .store cause := by
  rintro rfl
  simp only [moveOn] at h
  repeat' split at h
  all_goals cases h

/-- Reading records does not make a store yet. -/
theorem ne_store_of_readRecords_eq_error {vocabSize count : ℕ}
    (h : (readRecords plan vocabSize layerSize count w p).2 = .error e) (cause : StoreError) :
    e ≠ .store cause := by
  induction count generalizing w p with
  | zero => cases h
  | succ count ih =>
    simp only [readRecords] at h
    split at h
    · next e' hrecord =>
      obtain rfl := Except.error.inj h
      exact ne_store_of_readRecord_eq_error hrecord cause
    · split at h
      · next q e' hmove =>
        obtain rfl := Except.error.inj h
        exact ne_store_of_moveOn_eq_error hmove cause
      · next q w₂ hmove =>
        split at h
        · next r e' hrest =>
          obtain rfl := Except.error.inj h
          exact ih (congrArg Prod.snd hrest)
        · cases h

/-- **Records that were read make a store**, in the segments allocated for them. -/
theorem ofReading_segments (hplace : w.InPlace) {vocabSize perSegment : ℕ} (hlayer : 0 < layerSize)
    (hper : 0 < perSegment) :
    (∃ e, (ofReading layerSize perSegment
        (readRecords plan vocabSize layerSize vocabSize w p)).2 = .error e ∧
          ∀ cause, e ≠ .store cause) ∨
      ∃ decoded, (ofReading layerSize perSegment
        (readRecords plan vocabSize layerSize vocabSize w p)).2 = .ok decoded ∧
          decoded.store.vocabSize = vocabSize ∧ decoded.store.layerSize = layerSize ∧
          decoded.store.perSegment = perSegment ∧
          decoded.store.segments.map List.length = partition vocabSize layerSize perSegment := by
  rcases hread : readRecords plan vocabSize layerSize vocabSize w p with ⟨q, e | ⟨records, w'⟩⟩
  · exact .inl ⟨e, rfl, ne_store_of_readRecords_eq_error (congrArg Prod.snd hread)⟩
  · obtain ⟨hcount, hall⟩ := of_readRecords_eq_ok hplace (congrArg Prod.snd hread)
    have hlength := length_flatMap_snd hall
    have hsizes : (cut (partition records.length layerSize perSegment)
        (records.flatMap Prod.snd)).map List.length =
          partition (records.map Prod.fst).length layerSize perSegment := by
      rw [map_length_cut, List.length_map]
      rw [sum_partition, hlength, List.length_map]
    obtain ⟨-, store, hstore, hvocab, hsize, hfull, hsegments⟩ :=
      Store.ofSegments_partition hlayer hper hsizes
    refine .inr ⟨⟨store, w'.moves⟩, ?_, ?_, hsize, hfull, ?_⟩
    · simp only [ofReading, storeOf, hstore]
    · rw [Store.vocabSize, hvocab, List.length_map, hcount]
    · rw [hsegments, hsizes, List.length_map, hcount]

/-- The model behind the first line: what it lies in was allocated, and no store is refused. -/
theorem decodeFrom_segments [Memory] (hplace : w.InPlace) {file : String} :
    (∀ cause, (decodeFrom plan file w p).2 = .error (.store cause) →
        ∃ refused, cause = .capacity refused) ∧
      ∀ decoded, (decodeFrom plan file w p).2 = .ok decoded →
        vectorsPerSegment decoded.store.layerSize plan.capacity =
          .ok decoded.store.perSegment.toNat ∧
        allocate decoded.store.vocabSize decoded.store.layerSize plan.capacity =
          .ok (decoded.store.segments.map List.length) := by
  simp only [decodeFrom]
  split
  · exact ⟨fun _ h => (by cases h), fun _ h => by cases h⟩
  · next line w₁ hline =>
    obtain ⟨-, -, rfl⟩ := Window.of_readUntil_eq_ok hplace hline
    split
    · exact ⟨fun _ h => (by cases h), fun _ h => by cases h⟩
    · next vocabSize layerSize hheader =>
      rcases hper : vectorsPerSegment layerSize plan.capacity with refused | perSegment
      · refine ⟨fun _ h => ?_, fun _ h => by cases h⟩
        obtain rfl := ModelError.store.inj (Except.error.inj h)
        exact ⟨refused, rfl⟩
      · dsimp only
        split
        · exact ⟨fun _ h => (by cases h), fun _ h => by cases h⟩
        · next hroom =>
          obtain ⟨hlayer, hcapacity⟩ := le_of_vectorsPerSegment_eq_ok hper
          obtain ⟨heq, hpos⟩ := vectorsPerSegment_of_le hlayer hcapacity
          obtain rfl := Except.ok.inj (heq.symm.trans hper)
          rcases ofReading_segments (hplace.forward _) hlayer hpos with
            ⟨e, hfail, hne⟩ | ⟨decoded, hdecoded, hvocab, hsize, hfull, hsizes⟩
          · rw [hfail]
            exact ⟨fun cause h => absurd (Except.error.inj h) (hne cause), fun _ h => by cases h⟩
          · rw [hdecoded]
            refine ⟨fun _ h => (by cases h), ?_⟩
            rintro _ h
            obtain rfl := Except.ok.inj h
            rw [hvocab, hsize, hfull, hsizes]
            refine ⟨hper, ?_⟩
            simp only [allocate, hper, Int.toNat_natCast, hroom]
            rw [if_neg (by omega)]

/-- **The segments of a model that was read are those allocated for it**, and a model is never
refused because its segments do not fit. -/
theorem decode_segments [Memory] (plan : Plan) (file : String) (content : Bytes) (p : Progress) :
    (∀ cause, (decode plan file content p).2 = .error (.store cause) →
        ∃ refused, cause = .capacity refused) ∧
      ∀ decoded, (decode plan file content p).2 = .ok decoded →
        vectorsPerSegment decoded.store.layerSize plan.capacity =
          .ok decoded.store.perSegment.toNat ∧
        allocate decoded.store.vocabSize decoded.store.layerSize plan.capacity =
          .ok (decoded.store.segments.map List.length) := by
  simp only [decode, Progress.within]
  split
  · exact ⟨fun _ h => (by cases h), fun _ h => by cases h⟩
  · rcases hopen : Window.ofFile content plan.limit plan.stride with e | w
    · exact ⟨fun _ h => (by cases h), fun _ h => by cases h⟩
    · exact decodeFrom_segments (Window.inPlace_of_ofFile_eq_ok hopen)

end Binary

/-! ## What is known of allocated segments -/

/-- Segments that are not allocated are refused for the first size that admits none. -/
theorem allocate_eq_error [Memory] (vocabSize layerSize capacity : Int) :
    (vocabSize < 0 →
        allocate vocabSize layerSize capacity = .error (.vocabSize vocabSize)) ∧
      (0 ≤ vocabSize → layerSize ≤ 0 →
        allocate vocabSize layerSize capacity = .error (.layerSize layerSize)) ∧
      (0 ≤ vocabSize → 0 < layerSize → capacity < layerSize →
        allocate vocabSize layerSize capacity = .error (.tooSmall capacity layerSize)) := by
  refine ⟨fun hvocab => ?_, fun hvocab hlayer => ?_, fun hvocab hlayer hcapacity => ?_⟩
  · rw [allocate, if_pos hvocab]
  · rw [allocate, if_neg (by omega), vectorsPerSegment, if_pos hlayer]
  · rw [allocate, if_neg (by omega), vectorsPerSegment, if_neg (by omega), if_pos hcapacity]

/-- **Allocated segments are sizes for the vectors, and are never refused.** If memory holds the
segments, they are allocated exactly if the sizes admit them, and otherwise there is a cause for
each size; if memory does not hold them, it is want of room. A segment then holds whole vectors, and
as many as the bound admits but for the last. With that number of vectors they are the segments of a
store for any words of that number. So neither numbers in one list nor the records of a file make a
store that is refused for its segments, and the store is in the segments allocated for it. -/
theorem allocate_partitions [Memory] (vocabSize layerSize capacity : Int) :
    (Memory.HoldsSegments vocabSize layerSize capacity →
        ((∃ sizes, allocate vocabSize layerSize capacity = .ok sizes) ↔
          0 ≤ vocabSize ∧ 0 < layerSize ∧ layerSize ≤ capacity)) ∧
      ((vocabSize < 0 →
          allocate vocabSize layerSize capacity = .error (.vocabSize vocabSize)) ∧
        (0 ≤ vocabSize → layerSize ≤ 0 →
          allocate vocabSize layerSize capacity = .error (.layerSize layerSize)) ∧
        (0 ≤ vocabSize → 0 < layerSize → capacity < layerSize →
          allocate vocabSize layerSize capacity = .error (.tooSmall capacity layerSize)) ∧
        (¬ Memory.HoldsSegments vocabSize layerSize capacity →
          ∃ e, allocate vocabSize layerSize capacity = .error (.room e))) ∧
      (∀ sizes, allocate vocabSize layerSize capacity = .ok sizes →
        ∃ perSegment, vectorsPerSegment layerSize capacity = .ok perSegment ∧
          Layout.IsPartition vocabSize.toNat layerSize.toNat perSegment capacity sizes ∧
          ∀ vocab segments, (vocab.length : Int) = vocabSize → segments.map List.length = sizes →
            Layout.fault? layerSize.toNat perSegment vocab.length (segments.map List.length) =
                none ∧
              ∃ store, Store.ofSegments vocab layerSize segments (some perSegment) = .ok store ∧
                store.vocab = vocab ∧ store.layerSize = layerSize ∧
                store.perSegment = perSegment ∧ store.segments = segments) ∧
      (∀ vocab values,
        (∀ e, Store.ofDense vocab layerSize values (some capacity) = .error e →
          e = .valueCount vocab.length layerSize values.length ∨
            ∃ cause, segmentSizes vocab.length layerSize capacity = .error cause ∧
              e = .capacity cause) ∧
        ∀ store, Store.ofDense vocab layerSize values (some capacity) = .ok store →
          vectorsPerSegment layerSize capacity = .ok store.perSegment.toNat ∧
            segmentSizes vocab.length layerSize capacity =
              .ok (store.segments.map List.length)) ∧
      (∀ vocab values e, Store.ofDense vocab layerSize values none = .error e →
        e = .valueCount vocab.length layerSize values.length ∨
          layerSize ≤ 0 ∧ e = .layerSize layerSize) ∧
      ∀ plan file content p,
        (∀ cause, (Binary.decode plan file content p).2 = .error (.store cause) →
          ∃ refused, cause = .capacity refused) ∧
        ∀ decoded, (Binary.decode plan file content p).2 = .ok decoded →
          vectorsPerSegment decoded.store.layerSize plan.capacity =
              .ok decoded.store.perSegment.toNat ∧
            allocate decoded.store.vocabSize decoded.store.layerSize plan.capacity =
              .ok (decoded.store.segments.map List.length) := by
  obtain ⟨hvocabError, hlayerError, hcapacityError⟩ :=
    allocate_eq_error vocabSize layerSize capacity
  refine ⟨exists_allocate_iff, ⟨hvocabError, hlayerError, hcapacityError, exists_room_error⟩,
    fun sizes hsizes => ?_, fun vocab values => ⟨fun e => Store.cases_of_ofDense_eq_error,
      fun store => Store.segmentSizes_of_ofDense_eq_ok⟩,
    fun vocab values e => Store.cases_of_ofDense_none_eq_error, Binary.decode_segments⟩
  obtain ⟨hvocab, hlayer, hcapacity, rfl⟩ :=
    segmentSizes_eq_ok_iff.1 (allocate_eq_ok_iff.1 hsizes).1
  lift vocabSize to ℕ using hvocab
  lift layerSize to ℕ using hlayer.le
  obtain ⟨hper, hpos⟩ := vectorsPerSegment_of_le (Int.natCast_pos.1 hlayer) hcapacity
  refine ⟨_, hper, ?_, fun vocab segments hlength hsegments => ?_⟩
  · refine Layout.isPartition_partition (Int.natCast_pos.1 hlayer) hpos ?_ _
    have hle := Nat.div_mul_le_self capacity.toNat layerSize
    omega
  · obtain rfl := Int.ofNat_inj.1 hlength
    obtain ⟨hfault, store, hstore, hwords, hsize, hfull, hsame⟩ :=
      Store.ofSegments_partition (Int.natCast_pos.1 hlayer) hpos hsegments
    exact ⟨hfault, store, hstore, hwords, congrArg Nat.cast hsize, hfull, hsame⟩

/-- Five vectors under a bound that two of them do not fill: the last segment holds one. -/
theorem allocate_partitions_short :
    letI : Memory := .ample
    Memory.HoldsSegments 5 3 7 ∧ allocate 5 3 7 = .ok [6, 6, 3] ∧
      Layout.IsPartition 5 3 2 7 [6, 6, 3] ∧
      ∃ store, Store.ofSegments ["a", "b", "c", "d", "e"] 3
        ([6, 6, 3].map fun n => List.replicate n .zero) (some 2) = .ok store := by
  let memory : Memory := .ample
  have hroom : Memory.HoldsSegments 5 3 7 := by decide
  obtain ⟨hwhen, -, hall, -⟩ := allocate_partitions 5 3 7
  obtain ⟨sizes, hsizes⟩ := (hwhen hroom).2 (by decide)
  obtain rfl : [6, 6, 3] = sizes := Except.ok.inj hsizes
  obtain ⟨perSegment, hper, hpartition, hstores⟩ := hall _ hsizes
  obtain rfl := Except.ok.inj hper
  obtain ⟨-, store, hstore, -⟩ := hstores ["a", "b", "c", "d", "e"]
    ([6, 6, 3].map fun n => List.replicate n .zero) rfl rfl
  exact ⟨hroom, hsizes, hpartition, store, hstore⟩

/-- Sizes that admit segments do not make room for them, not even where memory has whatever an array
can be: one vector with more components than an array has items is not allocated. -/
theorem allocate_partitions_room :
    letI : Memory := .ample
    allocate 1 0x8000000000000000 0x8000000000000000 = .error (.room .items) ∧
      ¬ ∀ vocabSize layerSize capacity : Int,
        (∃ sizes, allocate vocabSize layerSize capacity = .ok sizes) ↔
          0 ≤ vocabSize ∧ 0 < layerSize ∧ layerSize ≤ capacity := by
  let memory : Memory := .ample
  have hrefused : allocate 1 0x8000000000000000 0x8000000000000000 = .error (.room .items) := by
    decide
  refine ⟨hrefused, fun hall => ?_⟩
  obtain ⟨sizes, hsizes⟩ := (hall 1 0x8000000000000000 0x8000000000000000).2 (by decide)
  rw [hrefused] at hsizes
  cases hsizes

end WordVectors
