import WordVectors.Proofs.Binary.Grammar
import WordVectors.Proofs.Binary.RoundTrip
import WordVectors.Proofs.Number.Widening

/-!
# The normal form of binary models

A model can be stored in many ways: in either byte order, with sizes that are spelled differently,
with newlines in its tokens or without any, and with more octets behind it. The one that is written
is the normal form of them all. A model that was read strictly is always written; what is written
is read as the same model and written as the same octets again; and two models have the same
content exactly if they are written as the same octets.

A model that a reading accepts is the one in the byte string, whatever the windows were, and so
nothing has to be known of them here.

## Main results

* `Binary.modelIn_of_decode`: a model that is accepted is that of the byte string
* `Binary.isTooLong_of_modelIn`: its sizes can be written
* `Binary.narrow_widen_of_modelIn`: its components are numbers of four octets
* `Binary.keepsUpWith_of_le`: a written model keeps up with a window in which it lies
* `Binary.encode_decode_canonical`: the normal form
-/

namespace WordVectors

theorem Window.of_ofFile_eq_ok {file : Bytes} {limit stride : Int} {w : Window}
    (h : ofFile file limit stride = .ok w) : w.left = file ∧ w.filePosition = 0 := by
  simp only [ofFile] at h
  split at h
  · cases h
  · split at h
    · cases h
    · split at h
      · cases h
      · obtain rfl := Except.ok.inj h
        exact ⟨rfl, rfl⟩

namespace Binary

variable {plan : Plan} {w w' : Window} {layerSize : Nat} {file : String} {content : Bytes}
  {p : Progress} {store : Store}

/-! ## Through any windows -/

/-- Records that were read are those of the octets left. -/
theorem recordsIn_of_readRecords (h : w.InPlace) {vocabSize count : Nat} {records : List Record}
    (hread : (readRecords plan vocabSize layerSize count w p).2 = .ok (records, w')) :
    recordsIn plan layerSize count w.filePosition w.left = .ok records := by
  induction count generalizing w p records with
  | zero =>
    obtain ⟨rfl, -⟩ := Prod.mk.inj (Except.ok.inj hread)
    rfl
  | succ count ih =>
    simp only [readRecords] at hread
    split at hread
    · cases hread
    · next record w₁ hrecord =>
      obtain ⟨-, n, hin, rfl⟩ := of_readRecord_eq_ok h hrecord
      split at hread
      · cases hread
      · next q w₂ hmove =>
        obtain ⟨hplace, hfile, hposition⟩ := of_moveOn_eq_ok (h.forward n) hmove
        split at hread
        · cases hread
        · next r records' w₃ hrest =>
          obtain ⟨rfl, rfl⟩ := Prod.mk.inj (Except.ok.inj hread)
          have hleft : w₂.left = w.left.drop n := by
            rw [← Window.left_forward h.position_nonneg, Window.left, hfile, hposition]
            rfl
          have hrecords := ih hplace (congrArg Prod.snd hrest)
          rw [hleft, hposition, Window.forward_filePosition] at hrecords
          rw [recordsIn, hin]
          dsimp only
          rw [hrecords]
          rfl

/-- The model behind the first line is that of the octets from the front of the file. -/
theorem modelIn_of_decodeFrom [Memory] (hplace : w.InPlace) (hleft : w.left = content)
    (hfront : w.filePosition = 0) (hne : content.isEmpty = false)
    (h : outcome (decodeFrom plan file w p) = .ok store) :
    modelIn plan file content = .ok store := by
  simp only [decodeFrom] at h
  split at h
  · cases h
  · next line w₁ hline =>
    obtain ⟨hnewline, rfl, rfl⟩ := Window.of_readUntil_eq_ok hplace hline
    rw [hleft] at hnewline h
    split at h
    · cases h
    · next vocabSize layerSize hheader =>
      split at h
      · cases h
      · next perSegment hper =>
        split at h
        · cases h
        · next hroom =>
          rw [outcome_ofReading] at h
          obtain ⟨records, hrecords, hstore⟩ := exists_of_bind_eq_ok h
          obtain ⟨⟨records, w₂⟩, hread, rfl⟩ := exists_of_map_eq_ok hrecords
          have hin := recordsIn_of_readRecords (hplace.forward _) hread
          rw [Window.left_forward hplace.position_nonneg, hleft, Window.forward_filePosition,
            hfront, Int.zero_add, ← lineSize] at hin
          simp only [modelIn, hne, Bool.false_eq_true, if_false,
            if_pos (List.mem_of_mem_take hnewline), hheader, hper, hroom, hin]
          exact hstore

/-- **A model that is accepted is that of the byte string**, through windows of any kind. -/
theorem modelIn_of_decode [Memory] (h : outcome (decode plan file content p) = .ok store) :
    modelIn plan file content = .ok store := by
  simp only [decode, Progress.within] at h
  split at h
  · cases h
  · next hempty =>
    split at h
    · cases h
    · next w hopen =>
      obtain ⟨hleft, hfront⟩ := Window.of_ofFile_eq_ok hopen
      exact modelIn_of_decodeFrom (Window.inPlace_of_ofFile_eq_ok hopen) hleft hfront
        (Bool.eq_false_iff.2 hempty) h

/-! ## What was read can be written -/

/-- **Sizes that were read can be written**, however they were spelled. -/
theorem isTooLong_of_parseHeader {line : Bytes} {vocabSize : Nat}
    (h : parseHeader line file = .ok (vocabSize, layerSize)) :
    Numeral.isTooLong vocabSize = false ∧ Numeral.isTooLong layerSize = false := by
  simp only [parseHeader] at h
  split at h
  · cases h
  · split at h
    · cases h
    · split at h
      · next hvocab hlayer =>
        split at h
        · cases h
        · next hsizes =>
          obtain ⟨rfl, rfl⟩ := Prod.mk.inj (Except.ok.inj h)
          rw [Int.toNat_of_nonneg (by omega), Int.toNat_of_nonneg (by omega)]
          exact ⟨Numeral.isTooLong_of_readInt hvocab, Numeral.isTooLong_of_readInt hlayer⟩
      · cases h

section

variable [Memory] (hrecovery : plan.recovery = .strict)
  (h : modelIn plan file content = .ok store)
include hrecovery h

/-- A model that was read consists of the records that the file holds. -/
theorem exists_holds_eq : ∃ records,
    Holds plan.order plan.capacity file content store.layerSize records ∧
      store.vocab = records.map Prod.fst ∧ store.flatten = records.flatMap Prod.snd ∧
      (store.vocab = [] → store.segments = []) := by
  obtain ⟨records, hholds, hsegments⟩ := exists_holds_of_modelIn_eq_ok hrecovery h
  obtain ⟨store', hstore, -, hvocab, hvalues, hempty⟩ :=
    exists_store_of_holds hrecovery hholds hsegments
  obtain rfl := Except.ok.inj (h.symm.trans hstore)
  exact ⟨records, hholds, hvocab, hvalues, hempty⟩

theorem isTooLong_of_modelIn : store.isTooLong = false := by
  obtain ⟨records, hholds, hvocab, -, -⟩ := exists_holds_eq hrecovery h
  obtain ⟨-, hheader, -, -⟩ := hholds
  rw [Store.isTooLong, Store.vocabSize, hvocab, List.length_map]
  exact Bool.or_eq_false_iff.2 (isTooLong_of_parseHeader hheader)

/-- **Components that were read are kept** when they are narrowed and widened again. -/
theorem narrow_widen_of_modelIn : ∀ x ∈ store.flatten, x.narrow.widen = x := by
  obtain ⟨records, hholds, -, hvalues, -⟩ := exists_holds_eq hrecovery h
  obtain ⟨-, -, -, hrecords⟩ := hholds
  rw [hvalues]
  intro x hx
  obtain ⟨record, hrecord, hx⟩ := List.mem_flatMap.1 hx
  obtain ⟨octets, hspells⟩ := Spells.exists_octets hrecords record hrecord
  obtain ⟨-, -, -⟩ := hspells
  obtain ⟨bs, -, rfl⟩ := List.mem_map.1 hx
  exact Binary32.widen_narrow_widen _

/-- **A model that was read strictly is written.** -/
theorem encode_of_modelIn : encode store = .ok (octets store) := by
  obtain ⟨records, -, -, -, hsegments⟩ := exists_holds_eq hrecovery h
  refine encode_eq_ok_iff.2 ⟨isTooLong_of_modelIn hrecovery h, ?_, rfl⟩
  by_cases hvocab : store.vocab = []
  · exact .inr (.inl (hsegments hvocab))
  · exact .inl hvocab

end

/-! ## In one window -/

/-- The sizes of records that are read sum up to no more than the octets. -/
theorem sum_recordSizes_le {count : Nat} {position : Int} {bs : Bytes} {records : List Record}
    (h : recordsIn plan layerSize count position bs = .ok records) :
    (recordSizes layerSize count bs).sum ≤ bs.length := by
  induction count generalizing position bs records with
  | zero => exact Nat.zero_le _
  | succ count ih =>
    rcases hrecord : recordIn plan layerSize position bs with e | ⟨record, size⟩
    · simp only [recordsIn, hrecord, reduceCtorEq] at h
    · obtain ⟨hsize, hle⟩ := recordIn_eq_ok hrecord
      simp only [recordsIn, hrecord] at h
      obtain ⟨rest, hrest, -⟩ := exists_of_map_eq_ok h
      have hsum := ih hrest
      rw [List.length_drop] at hsum
      rw [recordSizes, ← hsize, List.sum_cons]
      omega

/-- **Records that all lie in one window end in it**, wherever it is moved. -/
theorem keepsUp_of_sum_le {stride limit position : Int} {sizes : List Nat} (hstride : 0 ≤ stride)
    (h : position + sizes.sum ≤ limit) : KeepsUp stride limit position sizes := by
  induction sizes generalizing position with
  | nil => trivial
  | cons size sizes ih =>
    rw [List.sum_cons] at h
    refine ⟨by omega, ih ?_⟩
    rw [settle]
    split <;> omega

/-- **A written model keeps up with a window in which it lies.** -/
theorem keepsUpWith_of_le (hplan : plan.Admissible) (hwords : ∀ word ∈ store.vocab, IsToken word)
    (hfits : ((octets store).length : Int) ≤ plan.limit) :
    plan.KeepsUpWith (octets store) store := by
  let little : Plan := { plan with order := .little }
  have horder : little.order = .little := rfl
  have hsum := sum_recordSizes_le (recordsIn_octets horder hwords 0)
  have hline := lineSize_le (newline_mem_octets store)
  rw [List.length_drop] at hsum
  refine keepsUp_of_sum_le (Int.le_of_lt hplan.stride_pos) ?_
  omega

/-! ## The normal form -/

/-- Models with the same content are written as the same octets. -/
theorem octets_congr {other : Store} (h : store.SameContent other) : octets store = octets other :=
  (octets_eq_iff h.vocab h.layerSize).2 (congrArg (List.map Binary64.narrow) h.flatten)

/-- The octets of models tell their sizes and words apart. -/
theorem sizes_eq_of_octets_eq {other : Store} (hlong : store.isTooLong = false)
    (hlong' : other.isTooLong = false) (hwords : ∀ word ∈ store.vocab, IsToken word)
    (hwords' : ∀ word ∈ other.vocab, IsToken word) (heq : octets store = octets other) :
    store.vocab = other.vocab ∧ store.layerSize = other.layerSize := by
  have hline : (headerText store).map octetOf = (headerText other).map octetOf := by
    rw [← takeWhile_octets, heq, takeWhile_octets]
  have hsizes := parseHeader_headerText hlong ""
  rw [hline, parseHeader_headerText hlong', Except.ok.injEq, Prod.mk.injEq] at hsizes
  obtain ⟨hcount, hlayer⟩ := hsizes
  let plan : Plan := ⟨.little, 0, 0, 0, .strict, fun _ => false⟩
  have hrecords := @recordsIn_octets plan rfl store hwords 0
  rw [heq, ← hlayer, ← hcount, recordsIn_octets rfl hwords', Except.ok.injEq] at hrecords
  have hvocab := congrArg (List.map Prod.fst) hrecords.symm
  rw [List.map_map, List.map_map] at hvocab
  refine ⟨?_, hlayer.symm⟩
  rw [← store.map_fst_entries, ← other.map_fst_entries]
  exact hvocab

/-- What is written of a model that was read is the same model, if memory holds it. -/
theorem exists_sameContent_of_octets [Memory] (hrecovery : plan.recovery = .strict)
    (h : modelIn plan file content = .ok store) {again : Plan} (horder : again.order = .little)
    (hcapacity : (store.layerSize : Int) ≤ again.capacity)
    (hroom : Memory.HoldsSegments store.vocabSize store.layerSize again.capacity)
    (file' : String) :
    ∃ read, modelIn again file' (octets store) = .ok read ∧ read.SameContent store := by
  obtain ⟨read, hread, hvocab, hlayer, hvalues⟩ := modelIn_octets horder
    (isTooLong_of_modelIn hrecovery h) hcapacity hroom (isToken_of_modelIn hrecovery h) file'
  refine ⟨read, hread, hvocab, hlayer, hvalues.trans ?_⟩
  exact (List.map_congr_left (narrow_widen_of_modelIn hrecovery h)).trans (List.map_id _)

/-- **Models that were read have the same content exactly if they are written as the same
octets.** -/
theorem sameContent_iff [Memory] {plan' : Plan} {file' : String} {content' : Bytes} {store' : Store}
    (hrecovery : plan.recovery = .strict) (h : modelIn plan file content = .ok store)
    (hrecovery' : plan'.recovery = .strict) (h' : modelIn plan' file' content' = .ok store') :
    store.SameContent store' ↔ octets store' = octets store := by
  constructor
  · exact fun hsame => octets_congr hsame.symm
  · intro heq
    obtain ⟨hvocab, hlayer⟩ := sizes_eq_of_octets_eq (isTooLong_of_modelIn hrecovery h)
      (isTooLong_of_modelIn hrecovery' h') (isToken_of_modelIn hrecovery h)
      (isToken_of_modelIn hrecovery' h') heq.symm
    have hnarrow := (octets_eq_iff hvocab hlayer).1 heq.symm
    have hback := congrArg (List.map Binary32.widen) hnarrow
    rw [List.map_map, List.map_map] at hback
    have hkept := (List.map_congr_left (narrow_widen_of_modelIn hrecovery h)).trans (List.map_id _)
    have hkept' :=
      (List.map_congr_left (narrow_widen_of_modelIn hrecovery' h')).trans (List.map_id _)
    exact ⟨hvocab, hlayer, hkept.symm.trans (hback.trans hkept')⟩

/-- A written model is read only if memory holds its segments. -/
theorem holdsSegments_of_octets [Memory] (hlong : store.isTooLong = false)
    (hcapacity : (store.layerSize : Int) ≤ plan.capacity) {read : Store}
    (h : modelIn plan file (octets store) = .ok read) :
    Memory.HoldsSegments store.vocabSize store.layerSize plan.capacity := by
  have hmem := newline_mem_octets store
  have hempty : (octets store).isEmpty = false :=
    List.isEmpty_eq_false_iff.2 (List.ne_nil_of_mem hmem)
  obtain ⟨hper, -⟩ := vectorsPerSegment_of_le store.layerSize_pos hcapacity
  simp only [modelIn, hempty, Bool.false_eq_true, if_false, if_pos hmem, takeWhile_octets,
    parseHeader_headerText hlong, hper] at h
  split at h
  · cases h
  · next hroom => exact (checkSegments_eq_ok_iff store.layerSize_pos hcapacity _).1 hroom

/-- **The normal form of a model that was read strictly.** It is written; what is written is read
through windows that it keeps up with, as with any window that is long enough, if memory holds the
segments; what is read is the same model, bit by bit, and is written as the same octets; and a model
that was read elsewhere has the same content exactly if it is written as the same octets. -/
theorem encode_decode_canonical [Memory] (hrecovery : plan.recovery = .strict)
    (h : outcome (decode plan file content p) = .ok store) :
    ∃ written, encode store = .ok written ∧
      (∀ (again : Plan) (file' : String) (q : Progress), again.Admissible →
        again.order = .little → again.recovery = .strict →
        (store.layerSize : Int) ≤ again.capacity →
        ((written.length : Int) ≤ again.limit →
          (lineSize written : Int) ≤ again.limit ∧ again.KeepsUpWith written store) ∧
        ((lineSize written : Int) ≤ again.limit →
          ((∃ read, outcome (decode again file' written q) = .ok read) ↔
            again.KeepsUpWith written store ∧
              Memory.HoldsSegments store.vocabSize store.layerSize again.capacity)) ∧
        ∀ read, outcome (decode again file' written q) = .ok read →
          read.SameContent store ∧ encode read = .ok written) ∧
      ∀ (other : Plan) (file' : String) (content' : Bytes) (q : Progress) (store' : Store),
        other.recovery = .strict → outcome (decode other file' content' q) = .ok store' →
          (store.SameContent store' ↔ encode store' = .ok written) := by
  have hmodel := modelIn_of_decode h
  refine ⟨octets store, encode_of_modelIn hrecovery hmodel, ?_, ?_⟩
  · intro again file' q hwindows horder hrecovery' hcapacity
    have hlong := isTooLong_of_modelIn hrecovery hmodel
    have hkeeps : ∀ read : Store, read.SameContent store →
        (again.KeepsUpWith (octets store) read ↔ again.KeepsUpWith (octets store) store) := by
      intro read hsame
      rw [Plan.KeepsUpWith, Plan.KeepsUpWith, hsame.layerSize, Store.vocabSize, Store.vocabSize,
        hsame.vocab]
    have hsame : ∀ read, modelIn again file' (octets store) = .ok read →
        read.SameContent store := by
      intro read hin
      obtain ⟨read', hread', hsame⟩ := exists_sameContent_of_octets hrecovery hmodel horder
        hcapacity (holdsSegments_of_octets hlong hcapacity hin) file'
      obtain rfl := Except.ok.inj (hread'.symm.trans hin)
      exact hsame
    refine ⟨?_, ?_, ?_⟩
    · intro hfits
      refine ⟨?_, keepsUpWith_of_le hwindows (isToken_of_modelIn hrecovery hmodel) hfits⟩
      have := lineSize_le (newline_mem_octets store)
      omega
    · intro hline
      have hcases := outcome_decode_cases hwindows (fun _ => hline) file' q
      constructor
      · rintro ⟨read, hread⟩
        have hin := modelIn_of_decode hread
        refine ⟨?_, holdsSegments_of_octets hlong hcapacity hin⟩
        rcases hcases with ⟨-, hall⟩ | ⟨-, ⟨wanted, i, j, k, hcross⟩, -⟩
        · exact (hkeeps read (hsame read hin)).1 (hall read hin)
        · rw [hcross] at hread
          cases hread
      · rintro ⟨hall, hroom⟩
        obtain ⟨read, hin, hread⟩ :=
          exists_sameContent_of_octets hrecovery hmodel horder hcapacity hroom file'
        rcases hcases with ⟨heq, -⟩ | ⟨-, -, hnot⟩
        · exact ⟨read, heq.trans hin⟩
        · exact absurd ((hkeeps read hread).2 hall) (hnot read hin)
    · intro read hread
      have hin := modelIn_of_decode hread
      refine ⟨hsame read hin, ?_⟩
      rw [encode_of_modelIn hrecovery' hin, octets_congr (hsame read hin)]
  · intro other file' content' q store' hrecovery' h'
    have hmodel' := modelIn_of_decode h'
    rw [sameContent_iff hrecovery hmodel hrecovery' hmodel', encode_of_modelIn hrecovery' hmodel',
      Except.ok.injEq]

/-- A model in descending byte order whose sizes have a sign and a blank, with newlines in a token
and none behind the first record, what is not a number and negative zero as components, and one more
octet behind them. -/
theorem encode_decode_canonical_spellings :
    letI : Memory := .ample
    let content : Bytes := [0x2B, 0x32, 0x20, 0x20, 0x31, 0x0A, 0x0A, 0x61, 0x0A, 0x62, 0x20,
      0x7F, 0x80, 0x00, 0x01, 0x63, 0x20, 0x80, 0x00, 0x00, 0x00, 0x2A]
    let written : Bytes := [0x32, 0x20, 0x31, 0x0A, 0x61, 0x62, 0x20, 0x01, 0x00, 0xC0, 0x7F, 0x0A,
      0x63, 0x20, 0x00, 0x00, 0x00, 0x80, 0x0A]
    let plan (order : ByteOrder) : Plan := ⟨order, 1, 4096, 8192, .strict, fun _ => false⟩
    ∃ store read, outcome (decode (plan .big) "model" content .silent) = .ok store ∧
      encode store = .ok written ∧
      outcome (decode (plan .little) "model" written .silent) = .ok read ∧
      read.SameContent store ∧ encode read = .ok written := by
  let memory : Memory := .ample
  intro content written plan
  have hwindows : (plan .little).Admissible := ⟨by decide, by decide, by decide⟩
  have hread : (outcome (decode (plan .big) "model" content .silent)).map
      (fun store => (octets store, store.vocabSize, store.layerSize)) = .ok (written, 2, 1) := by
    decide +kernel
  obtain ⟨store, hstore, hsizes⟩ := exists_of_map_eq_ok hread
  obtain ⟨hoctets, hsizes⟩ := Prod.mk.inj hsizes
  obtain ⟨hvocab, hlayer⟩ := Prod.mk.inj hsizes
  obtain ⟨out, hout, hagain, -⟩ := encode_decode_canonical rfl hstore
  obtain rfl : out = written := ((encode_eq_ok_iff.1 hout).2.2).trans hoctets
  have hcapacity : (store.layerSize : Int) ≤ (plan .little).capacity := by
    rw [hlayer]
    decide
  obtain ⟨hfits, hkeeps, hsame⟩ := hagain (plan .little) "model" .silent hwindows rfl rfl hcapacity
  obtain ⟨hline, hall⟩ := hfits (by decide)
  have hroom : Memory.HoldsSegments store.vocabSize store.layerSize (plan .little).capacity := by
    rw [hvocab, hlayer]
    decide
  obtain ⟨read, hread⟩ := (hkeeps hline).2 ⟨hall, hroom⟩
  exact ⟨store, read, hstore, hout, hread, hsame read hread⟩

end Binary

end WordVectors
