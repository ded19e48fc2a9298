import WordVectors.Proofs.Binary.Sequential
import WordVectors.Proofs.Store

/-!
# Binary models in segments of any size

The segments are filled behind the reading, so a bound on their size changes neither what is read
nor when it fails; memory only has to hold them. This is so for windows of any kind, also for those
that hardly move.

## Main definitions

* `Window.InPlace`: what holds of a window however it moves
* `Binary.Plan.withCapacity`: a plan with another bound on the segments

## Main results

* `Binary.of_readRecords_eq_ok`: records that were read are as many as declared, with all components
* `Binary.of_decodeFrom_eq_ok`: a model is the store of records that do not depend on the bound
* `Binary.decode_withCapacity`: a model that is read under one bound is read under the others
-/

namespace WordVectors

/-! ## Windows of any kind -/

namespace Window

variable {w w' : Window}

/-- **What holds of a window however it moves**: it starts a whole number of strides into the file,
and its position is not in front of it. -/
structure InPlace (w : Window) : Prop where
  offset_eq : (w.offset : Int) = w.stride * w.moves
  position_nonneg : 0 ≤ w.position

theorem InPlace.forward (h : w.InPlace) (n : Nat) : (w.forward n).InPlace := by
  refine ⟨h.offset_eq, ?_⟩
  have := h.position_nonneg
  rw [forward_position]
  omega

/-- A search that succeeds reads the octets left up to the first that is searched for. -/
theorem of_readUntil_eq_ok (h : w.InPlace) {b : UInt8} {wanted : String} {octets : Bytes}
    (hread : w.readUntil [b] wanted = .ok (octets, w')) :
    b ∈ w.left.take w.reach ∧ octets = w.left.takeWhile (· ≠ b) ∧
      w' = w.forward ((w.left.takeWhile (· ≠ b)).length + 1) := by
  by_cases hb : b ∈ w.left.take w.reach
  · rw [readUntil_of_mem h.position_nonneg hb] at hread
    obtain ⟨rfl, rfl⟩ := Prod.mk.inj (Except.ok.inj hread)
    exact ⟨hb, rfl, rfl⟩
  · simp only [readUntil, place?_singleton h.position_nonneg, if_neg hb] at hread
    split at hread
    · cases hread
    · cases hread

theorem of_readFloats_eq_ok (h : w.InPlace) {count : Nat} {order : ByteOrder}
    {floats : List Binary32} (hread : w.readFloats count order = .ok (floats, w')) :
    w.position + (4 * count : Nat) ≤ w.size ∧
      floats = (chunks 4 count (w.left.take (4 * count))).map order.float ∧
      w' = w.forward (4 * count) := by
  by_cases hle : w.position + (4 * count : Nat) ≤ w.size
  · rw [readFloats_of_le h.position_nonneg order hle] at hread
    obtain ⟨rfl, rfl⟩ := Prod.mk.inj (Except.ok.inj hread)
    exact ⟨hle, rfl, rfl⟩
  · have hcast : (count : Int) * 4 = (4 * count : Nat) := by omega
    simp only [readFloats, hcast, if_pos (Int.not_le.1 hle), reduceCtorEq] at hread

theorem nonneg_of_sizeAt {extent size : Nat} {limit offset : Int}
    (h : sizeAt extent limit offset = .ok size) : 0 ≤ offset := by
  simp only [sizeAt] at h
  repeat' split at h
  all_goals
    cases h
    try omega

/-- **A move that succeeds keeps the place in the file.** -/
theorem of_advance_eq_ok (h : w.InPlace) (hdue : w.isDue = true)
    (hadvance : w.advance = (w', .ok ())) :
    w'.InPlace ∧ w'.file = w.file ∧ w'.filePosition = w.filePosition := by
  have hlt : w.stride < w.position := by simpa [isDue] using hdue
  have hposition := h.position_nonneg
  rw [advance] at hadvance
  split at hadvance
  · cases hadvance
  · next size hsize =>
    obtain ⟨rfl, -⟩ := Prod.mk.inj hadvance
    have hoffset := Int.toNat_of_nonneg (nonneg_of_sizeAt hsize)
    refine ⟨⟨hoffset, ?_⟩, rfl, ?_⟩
    · show 0 ≤ w.position - w.stride
      omega
    · show (w.nextOffset.toNat : Int) + (w.position - w.stride) = w.offset + w.position
      rw [hoffset, nextOffset, h.offset_eq, Int.mul_add, Int.mul_one]
      omega

theorem inPlace_of_ofFile_eq_ok {file : Bytes} {limit stride : Int}
    (h : ofFile file limit stride = .ok w) : w.InPlace := by
  simp only [ofFile] at h
  split at h
  · cases h
  · split at h
    · cases h
    · split at h
      · cases h
      · obtain rfl := Except.ok.inj h
        exact ⟨(Int.mul_zero _).symm, Int.le_refl 0⟩

end Window

namespace Binary

variable {plan : Plan} {w w' : Window} {layerSize : Nat} {p : Progress}

/-! ## Records that were read -/

/-- A record that was read is that of the octets left. -/
theorem of_readRecord_eq_ok (h : w.InPlace) {record : Record}
    (hread : readRecord plan layerSize w = .ok (record, w')) :
    record.2.length = layerSize ∧
      ∃ n, recordIn plan layerSize w.filePosition w.left = .ok (record, n) ∧ w' = w.forward n := by
  obtain ⟨⟨token, w₁⟩, htoken, hread⟩ := exists_of_bind_eq_ok hread
  obtain ⟨word, hword, hread⟩ := exists_of_bind_eq_ok hread
  obtain ⟨⟨floats, w₂⟩, hfloats, hread⟩ := exists_of_bind_eq_ok hread
  obtain ⟨rfl, rfl⟩ := Prod.mk.inj (Except.ok.inj hread)
  obtain ⟨⟨octets, w₃⟩, huntil, htoken⟩ := exists_of_bind_eq_ok (eq_ok_of_mapError_eq_ok htoken)
  obtain ⟨rfl, rfl⟩ := Prod.mk.inj (Except.ok.inj htoken)
  obtain ⟨hspace, rfl, rfl⟩ := Window.of_readUntil_eq_ok h huntil
  obtain ⟨hle, rfl, rfl⟩ := Window.of_readFloats_eq_ok (h.forward _)
    (eq_ok_of_mapError_eq_ok hfloats)
  rw [Window.forward_position, Window.forward_size] at hle
  refine ⟨?_, (w.left.takeWhile (· ≠ Window.space)).length + 1 + 4 * layerSize, ?_,
    Window.forward_forward _ _⟩
  · rw [List.length_map, List.length_map, length_chunks]
  · have hlength : (w.left.takeWhile (· ≠ Window.space)).length + 1 + 4 * layerSize ≤
        w.left.length := by
      have := w.inside
      have := h.position_nonneg
      simp only [Window.left, Window.filePosition, List.length_drop, Array.length_toList] at hle ⊢
      omega
    simp only [recordIn, if_pos (List.mem_of_mem_take hspace), eq_ok_of_mapError_eq_ok hword,
      if_pos hlength, Window.left_forward h.position_nonneg]

theorem of_moveOn_eq_ok (h : w.InPlace) {q : Progress} (hmove : moveOn w p = (q, .ok w')) :
    w'.InPlace ∧ w'.file = w.file ∧ w'.filePosition = w.filePosition := by
  simp only [moveOn] at hmove
  split at hmove
  · next hdue =>
    rcases hadvance : w.advance with ⟨w₁, e | ⟨⟩⟩
    · rw [hadvance] at hmove
      cases hmove
    · rw [hadvance] at hmove
      obtain rfl := Except.ok.inj (Prod.mk.inj hmove).2
      exact Window.of_advance_eq_ok h hdue hadvance
  · obtain rfl := Except.ok.inj (Prod.mk.inj hmove).2
    exact ⟨h, rfl, rfl⟩

/-- **Records that were read are as many as declared**, and have all components. -/
theorem of_readRecords_eq_ok (h : w.InPlace) {vocabSize count : Nat} {records : List Record}
    (hread : (readRecords plan vocabSize layerSize count w p).2 = .ok (records, w')) :
    records.length = count ∧ ∀ record ∈ records, record.2.length = layerSize := by
  induction count generalizing w p records with
  | zero =>
    obtain ⟨rfl, -⟩ := Prod.mk.inj (Except.ok.inj hread)
    simp
  | succ count ih =>
    simp only [readRecords] at hread
    split at hread
    · cases hread
    · next record w₁ hrecord =>
      obtain ⟨hcomponents, n, -, rfl⟩ := of_readRecord_eq_ok h hrecord
      split at hread
      · cases hread
      · next q w₂ hmove =>
        obtain ⟨hplace, -⟩ := of_moveOn_eq_ok (h.forward n) hmove
        split at hread
        · cases hread
        · next r records' w₃ hrest =>
          obtain ⟨rfl, rfl⟩ := Prod.mk.inj (Except.ok.inj hread)
          obtain ⟨hcount, hall⟩ := ih hplace (congrArg Prod.snd hrest)
          exact ⟨congrArg (· + 1) hcount, List.forall_mem_cons.2 ⟨hcomponents, hall⟩⟩

/-! ## Plans with other bounds -/

/-- A plan with another bound on the segments. -/
def Plan.withCapacity (plan : Plan) (capacity : Int) : Plan := { plan with capacity }

theorem readRecords_withCapacity (capacity : Int) (vocabSize layerSize count : Nat) (w : Window)
    (p : Progress) :
    readRecords (plan.withCapacity capacity) vocabSize layerSize count w p =
      readRecords plan vocabSize layerSize count w p := by
  induction count generalizing w p with
  | zero => rfl
  | succ count ih =>
    have hrecord : readRecord (plan.withCapacity capacity) layerSize w =
        readRecord plan layerSize w := rfl
    have hdue : (plan.withCapacity capacity).reportDue = plan.reportDue := rfl
    simp only [readRecords, hrecord, hdue, ih]

/-- **Records make a store**, however many of them a segment holds. -/
theorem exists_storeOf {perSegment : Nat} {records : List Record} (hlayer : 0 < layerSize)
    (hper : 0 < perSegment) (hall : ∀ record ∈ records, record.2.length = layerSize) :
    ∃ store, storeOf layerSize perSegment records = .ok store ∧
      store.vocab = records.map Prod.fst ∧ store.layerSize = layerSize ∧
      store.flatten = records.flatMap Prod.snd ∧ (store.vocab = [] → store.segments = []) := by
  obtain ⟨store, hstore, hvocab, hsize, hvalues, hsegments⟩ :=
    Store.ofSegments_cut hlayer hper (length_flatMap_snd hall)
  rw [List.length_map] at hstore hsegments
  refine ⟨store, hstore, hvocab, hsize, hvalues, ?_⟩
  rw [hvocab, hsegments]
  intro hnil
  rw [List.map_eq_nil_iff.1 hnil, List.length_nil, partition, Nat.zero_div, Nat.zero_mod,
    List.replicate_zero, if_pos rfl]
  rfl

/-- **A model is the store of records that do not depend on the bound.** -/
theorem of_decodeFrom_eq_ok [Memory] (hplace : w.InPlace) {file : String} {store : Store}
    (h : outcome (decodeFrom plan file w p) = .ok store) :
    ∃ (layerSize perSegment : Nat) (records : List Record),
      (∀ record ∈ records, record.2.length = layerSize) ∧
      vectorsPerSegment layerSize plan.capacity = .ok perSegment ∧
      storeOf layerSize perSegment records = .ok store ∧
      ∀ capacity perSegment', vectorsPerSegment layerSize capacity = .ok perSegment' →
        Room.checkSegments records.length layerSize perSegment' = .ok () →
        outcome (decodeFrom (plan.withCapacity capacity) file w p) =
          (storeOf layerSize perSegment' records).mapError .store := by
  simp only [decodeFrom] at h
  split at h
  · cases h
  · next line w₁ hline =>
    obtain ⟨-, -, hw₁⟩ := Window.of_readUntil_eq_ok hplace hline
    have hplace₁ : w₁.InPlace := hw₁ ▸ hplace.forward _
    split at h
    · cases h
    · next vocabSize layerSize hheader =>
      split at h
      · cases h
      · next perSegment hper =>
        split at h
        · cases h
        · rw [outcome_ofReading] at h
          obtain ⟨records, hrecords, hstore⟩ := exists_of_bind_eq_ok h
          obtain ⟨⟨records, w₂⟩, hread, rfl⟩ := exists_of_map_eq_ok hrecords
          obtain ⟨rfl, hall⟩ := of_readRecords_eq_ok hplace₁ hread
          refine ⟨layerSize, perSegment, records, hall, hper, eq_ok_of_mapError_eq_ok hstore, ?_⟩
          intro capacity perSegment' hper' hroom
          have hcapacity : (plan.withCapacity capacity).capacity = capacity := rfl
          simp only [decodeFrom, hline, hheader, hcapacity, hper', hroom, outcome_ofReading,
            readRecords_withCapacity, hread]
          rfl

/-- A model that is read is read through a window, whatever the bound. -/
theorem exists_window_of_decode_eq_ok [Memory] {file : String} {content : Bytes} {store : Store}
    (h : outcome (decode plan file content p) = .ok store) :
    ∃ w q, w.InPlace ∧ ∀ capacity, outcome (decode (plan.withCapacity capacity) file content p) =
      outcome (decodeFrom (plan.withCapacity capacity) file w q) := by
  simp only [decode, Progress.within] at h
  split at h
  · cases h
  · next hempty =>
    split at h
    · cases h
    · next w hopen =>
      refine ⟨w, (p.start "Loading vectors from bin file").start "Reading gigabyte #1",
        Window.inPlace_of_ofFile_eq_ok hopen, ?_⟩
      intro capacity
      have hlimit : (plan.withCapacity capacity).limit = plan.limit := rfl
      have hstride : (plan.withCapacity capacity).stride = plan.stride := rfl
      simp only [decode, Progress.within, if_neg hempty, hlimit, hstride, hopen, outcome]

/-- **A model that is read under one bound is read under the others** that admit a vector and whose
segments memory holds, with the same content. Without words there are no segments. -/
theorem decode_withCapacity [Memory] {file : String} {content : Bytes} {store : Store}
    (h : outcome (decode plan file content p) = .ok store) :
    (store.vocab = [] → store.segments = []) ∧ ∀ capacity, (store.layerSize : Int) ≤ capacity →
      Memory.HoldsSegments store.vocabSize store.layerSize capacity →
      ∃ other, outcome (decode (plan.withCapacity capacity) file content p) = .ok other ∧
        store.SameContent other ∧ (other.vocab = [] → other.segments = []) := by
  obtain ⟨w, q, hplace, hdecode⟩ := exists_window_of_decode_eq_ok h
  rw [show plan = plan.withCapacity plan.capacity from rfl, hdecode] at h
  obtain ⟨layerSize, perSegment, records, hall, hper, hstore, hread⟩ :=
    of_decodeFrom_eq_ok hplace h
  obtain ⟨hlayer, hle⟩ := le_of_vectorsPerSegment_eq_ok hper
  obtain ⟨hper₁, hpos₁⟩ := vectorsPerSegment_of_le hlayer hle
  obtain rfl := Except.ok.inj (hper₁.symm.trans hper)
  obtain ⟨store₁, hstore₁, hvocab₁, hsize₁, hvalues₁, hsegments₁⟩ :=
    exists_storeOf hlayer hpos₁ hall
  obtain rfl := Except.ok.inj (hstore₁.symm.trans hstore)
  refine ⟨hsegments₁, ?_⟩
  intro capacity hcapacity hroom
  rw [hsize₁] at hcapacity
  rw [Store.vocabSize, hvocab₁, List.length_map, hsize₁] at hroom
  obtain ⟨hper₂, hpos₂⟩ := vectorsPerSegment_of_le hlayer hcapacity
  obtain ⟨store₂, hstore₂, hvocab₂, hsize₂, hvalues₂, hsegments₂⟩ :=
    exists_storeOf hlayer hpos₂ hall
  refine ⟨store₂, ?_, ⟨?_, ?_, ?_⟩, hsegments₂⟩
  · rw [hdecode]
    have hread₂ := hread capacity _ hper₂ ((checkSegments_eq_ok_iff hlayer hcapacity _).2 hroom)
    rw [hstore₂] at hread₂
    exact hread₂
  · rw [hvocab₁, hvocab₂]
  · rw [hsize₁, hsize₂]
  · rw [hvalues₁, hvalues₂]

end Binary

end WordVectors
