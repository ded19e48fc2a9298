import Mathlib
import WordVectors.Codec.Binary
import WordVectors.Proofs.Store
import WordVectors.Proofs.Window

/-!
# Reading without a window

A binary model is a byte string, and what it holds can be said without a window: the first line,
and then one record after another, each in front of the octets that are left. A reading through
windows comes to the same, or else it stops at the end of a window that is not the end of the
file. A file that is no longer than a window leaves only the first.

## Main definitions

* `Binary.recordIn`, `Binary.recordsIn`, `Binary.modelIn`: what is in a byte string
* `Binary.lineSize`, `Binary.recordSizes`: the sizes of the first line and of the records
* `Binary.Crosses`: a reading that stops at the end of a window
* `Binary.Plan.Admissible`: a plan whose windows can be opened and moved

## Main results

* `Binary.readRecord_eq`: a record is read through a window if it is in reach
* `Binary.readRecords_cases`, `Binary.outcome_decode_cases`: a reading through windows is that of
  the byte string, or stops at the end of a window
* `Binary.outcome_decode_of_le`: a file that fits in one window is read as a byte string
-/

namespace WordVectors.Binary

variable (plan : Plan)

/-! ## Byte strings -/

/-- The record in front of the octets `bs`, which start at `position` in a file, and its size. -/
def recordIn (layerSize : Nat) (position : Int) (bs : Bytes) : Except ModelError (Record × Nat) :=
  if Window.space ∈ bs then
    let token := bs.takeWhile (· ≠ Window.space)
    let start := token.length + 1
    match Utf8.decode plan.recovery (token.filter (· ≠ Window.newline)) with
    | .error e => .error (.encoding e)
    | .ok word =>
      if start + 4 * layerSize ≤ bs.length then
        let floats := (chunks 4 layerSize ((bs.drop start).take (4 * layerSize))).map
          plan.order.float
        .ok ((word, floats.map Binary32.widen), start + 4 * layerSize)
      else .error (.window (.truncated "vector" (position + start)))
  else .error (.window (.truncated "token" position))

/-- The first `count` records of the octets `bs`, which start at `position` in a file. -/
def recordsIn (layerSize : Nat) : (count : Nat) → (position : Int) → Bytes →
    Except ModelError (List Record)
  | 0, _, _ => .ok []
  | count + 1, position, bs =>
    match recordIn plan layerSize position bs with
    | .error e => .error e
    | .ok (record, size) =>
      (recordsIn layerSize count (position + size) (bs.drop size)).map (record :: ·)

/-- The number of octets of the first line, its newline included. -/
def lineSize (bs : Bytes) : Nat := (bs.takeWhile (· ≠ Window.newline)).length + 1

/-- The numbers of octets of the first `count` records: of each the token, the space and the
components. -/
def recordSizes (layerSize : Nat) : (count : Nat) → Bytes → List Nat
  | 0, _ => []
  | count + 1, bs =>
    let size := (bs.takeWhile (· ≠ Window.space)).length + 1 + 4 * layerSize
    size :: recordSizes layerSize count (bs.drop size)

/-- **The model in a byte string** of a file whose name is given for messages. -/
def modelIn [Memory] (file : String) (content : Bytes) : Except ModelError Store :=
  if content.isEmpty then .error (.header (.emptyFile file))
  else if Window.newline ∈ content then
    match parseHeader (content.takeWhile (· ≠ Window.newline)) file with
    | .error e => .error (.header e)
    | .ok (vocabSize, layerSize) =>
      match vectorsPerSegment layerSize plan.capacity with
      | .error e => .error (.store (.capacity e))
      | .ok perSegment =>
        match Room.checkSegments vocabSize layerSize perSegment with
        | .error e => .error (.room e)
        | .ok () =>
          (recordsIn plan layerSize vocabSize (lineSize content)
            (content.drop (lineSize content))).bind fun records =>
              (storeOf layerSize perSegment records).mapError .store
  else .error (.header (.unterminated file))

/-! ## Records through a window -/

/-- A reading that stops at the end of a window which is not the end of the file. -/
def Crosses {α : Type} (r : Except ModelError α) : Prop :=
  ∃ wanted position first last, r = .error (.window (.crossing wanted position first last))

variable {plan} {w : Window} {layerSize : Nat}

/-- **A record through a window**: that of the octets left, if the window goes as far. -/
theorem readRecord_eq (h : w.Sound) :
    readRecord plan layerSize w =
      let token := w.left.takeWhile (· ≠ Window.space)
      let start := token.length + 1
      if Window.space ∈ w.left.take w.reach then
        match Utf8.decode plan.recovery (token.filter (· ≠ Window.newline)) with
        | .error e => .error (.encoding e)
        | .ok word =>
          if start + 4 * layerSize ≤ w.reach then
            let floats := (chunks 4 layerSize ((w.left.drop start).take (4 * layerSize))).map
              plan.order.float
            .ok ((word, floats.map Binary32.widen), w.forward (start + 4 * layerSize))
          else .error (.window ((w.forward start).endError "vector"))
      else .error (.window (w.endError "token")) := by
  dsimp only
  by_cases hs : Window.space ∈ w.left.take w.reach
  · have hlt := (Bytes.mem_take_iff (List.mem_of_mem_take hs) w.reach).1 hs
    have hstart := h.forward (n := (w.left.takeWhile (· ≠ Window.space)).length + 1) hlt
    have hleft := h.left_forward ((w.left.takeWhile (· ≠ Window.space)).length + 1)
    simp only [readRecord, Window.readToken, Window.readUntil_of_mem h.position_nonneg hs,
      if_pos hs, bind, Except.bind, Except.mapError]
    cases hword : Utf8.decode plan.recovery
        ((w.left.takeWhile (· ≠ Window.space)).filter (· ≠ Window.newline)) with
    | error e => rfl
    | ok word =>
      by_cases hc : (w.left.takeWhile (· ≠ Window.space)).length + 1 + 4 * layerSize ≤ w.reach
      · have hle : (w.forward ((w.left.takeWhile (· ≠ Window.space)).length + 1)).position +
            (4 * layerSize : Nat) ≤ w.size := by
          have := h.position_le
          simp only [Window.reach] at hc
          rw [Window.forward_position]
          omega
        have hfloats := Window.readFloats_of_le hstart.position_nonneg plan.order hle
        simp only [if_pos hc, hfloats, hleft, Window.forward_forward]
      · have hreach : (w.forward
            ((w.left.takeWhile (· ≠ Window.space)).length + 1)).reach < 4 * layerSize := by
          rw [Window.reach_forward]
          omega
        have hfloats := Window.readFloats_of_lt hstart plan.order hreach
        simp only [if_neg hc, hfloats]
  · simp only [readRecord, Window.readToken, Window.readUntil_of_not_mem h hs, if_neg hs, bind,
      Except.bind, Except.mapError]

theorem Crosses.map {α β : Type} {r : Except ModelError α} (h : Crosses r) (f : α → β) :
    Crosses (r.map f) := by
  obtain ⟨wanted, i, j, k, rfl⟩ := h
  exact ⟨wanted, i, j, k, rfl⟩

theorem Crosses.bind {α β : Type} {r : Except ModelError α} (h : Crosses r)
    (f : α → Except ModelError β) : Crosses (r.bind f) := by
  obtain ⟨wanted, i, j, k, rfl⟩ := h
  exact ⟨wanted, i, j, k, rfl⟩

theorem crosses_endError {α : Type} (hlt : w.offset + w.size < w.file.size) (wanted : String) :
    Crosses (.error (.window (w.endError wanted)) : Except ModelError α) :=
  ⟨wanted, _, _, _, by rw [Window.endError_of_lt hlt]⟩

theorem recordIn_eq_ok {position : Int} {bs : Bytes} {record : Record} {size : Nat}
    (h : recordIn plan layerSize position bs = .ok (record, size)) :
    size = (bs.takeWhile (· ≠ Window.space)).length + 1 + 4 * layerSize ∧ size ≤ bs.length := by
  simp only [recordIn] at h
  split at h
  · split at h
    · cases h
    · split at h
      · next hle =>
        simp only [Except.ok.injEq, Prod.mk.injEq] at h
        exact ⟨h.2.symm, h.2 ▸ hle⟩
      · cases h
  · cases h

/-- What is in reach of a window does not go past the octets left, so a record that is in reach is
that of the octets left, and one that is not in reach of the last window is none. -/
theorem readRecord_cases (plan : Plan) (layerSize : Nat) (h : w.Sound) :
    (∃ record size, recordIn plan layerSize w.filePosition w.left = .ok (record, size) ∧
      size ≤ w.reach ∧ readRecord plan layerSize w = .ok (record, w.forward size)) ∨
    (∃ e, recordIn plan layerSize w.filePosition w.left = .error e ∧
      readRecord plan layerSize w = .error e) ∨
    (w.offset + w.size < w.file.size ∧ Crosses (readRecord plan layerSize w) ∧
      ∀ record size, recordIn plan layerSize w.filePosition w.left = .ok (record, size) →
        w.reach < size) := by
  have hreach := h.reach_le_length_left
  rw [readRecord_eq h]
  dsimp only
  by_cases hs : Window.space ∈ w.left.take w.reach
  · have hmem : Window.space ∈ w.left := List.mem_of_mem_take hs
    simp only [recordIn, if_pos hs, if_pos hmem]
    cases hword : Utf8.decode plan.recovery
        ((w.left.takeWhile (· ≠ Window.space)).filter (· ≠ Window.newline)) with
    | error e => exact .inr (.inl ⟨_, rfl, rfl⟩)
    | ok word =>
      by_cases hc : (w.left.takeWhile (· ≠ Window.space)).length + 1 + 4 * layerSize ≤ w.reach
      · simp only [if_pos hc, if_pos (Nat.le_trans hc hreach)]
        exact .inl ⟨_, _, rfl, hc, rfl⟩
      · simp only [if_neg hc]
        by_cases hend : w.file.size ≤ w.offset + w.size
        · have hall := Window.reach_eq_of_sees_end h hend
          have herror := Window.endError_of_le (w := w.forward
            ((w.left.takeWhile (· ≠ Window.space)).length + 1)) hend "vector"
          rw [if_neg (by omega), herror, Window.forward_filePosition]
          exact .inr (.inl ⟨_, rfl, rfl⟩)
        · refine .inr (.inr ⟨by omega, crosses_endError (by simpa using hend) _, ?_⟩)
          intro record size hr
          split at hr
          · simp only [Except.ok.injEq, Prod.mk.injEq] at hr
            omega
          · cases hr
  · simp only [if_neg hs]
    by_cases hend : w.file.size ≤ w.offset + w.size
    · have hall := Window.reach_eq_of_sees_end h hend
      have hmem : Window.space ∉ w.left := by rwa [hall, List.take_length] at hs
      rw [Window.endError_of_le hend]
      exact .inr (.inl ⟨_, by simp only [recordIn, if_neg hmem], rfl⟩)
    · refine .inr (.inr ⟨by omega, crosses_endError (by omega) _, ?_⟩)
      intro record size hr
      have hsize := (recordIn_eq_ok hr).1
      have hmem : Window.space ∈ w.left := by
        by_cases hmem : Window.space ∈ w.left
        · exact hmem
        · simp only [recordIn, if_neg hmem, reduceCtorEq] at hr
      have := mt (Bytes.mem_take_iff hmem w.reach).2 hs
      omega

/-! ## Moves between records -/

/-- The position in the window after a record that ends at `stop`, when the window is moved by one
stride if that is due. -/
def settle (stride stop : Int) : Int := if stride < stop then stop - stride else stop

/-- **Whether records of the given sizes all end inside a window** of at most `limit` octets, when
the first starts at `position` in it and the window moves by at most one stride behind each. -/
def KeepsUp (stride limit : Int) : (position : Int) → (sizes : List Nat) → Prop
  | _, [] => True
  | position, size :: sizes =>
    position + size ≤ limit ∧ KeepsUp stride limit (settle stride (position + size)) sizes

instance KeepsUp.decidable (stride limit : Int) :
    (position : Int) → (sizes : List Nat) → Decidable (KeepsUp stride limit position sizes)
  | _, [] => .isTrue trivial
  | position, size :: sizes =>
    have := decidable stride limit (settle stride (position + size)) sizes
    inferInstanceAs (Decidable (_ ∧ _))

theorem moveOn_sound (h : w.Sound) (p : Progress) :
    ∃ w', (moveOn w p).2 = .ok w' ∧ w'.Sound ∧ w'.file = w.file ∧ w'.limit = w.limit ∧
      w'.stride = w.stride ∧ w'.filePosition = w.filePosition ∧
      w'.position = settle w.stride w.position := by
  by_cases hdue : w.isDue = true
  · obtain ⟨w', hadvance, hsound, hfile, hlimit, hstride, hplace, hposition, -⟩ :=
      Window.advance_of_isDue h hdue
    refine ⟨w', ?_, hsound, hfile, hlimit, hstride, hplace, ?_⟩
    · simp only [moveOn, if_pos hdue, hadvance]
    · rw [hposition, settle, if_pos (by simpa [Window.isDue] using hdue)]
  · refine ⟨w, by simp only [moveOn, if_neg hdue], h, rfl, rfl, rfl, rfl, ?_⟩
    rw [settle, if_neg (by simpa [Window.isDue] using hdue)]

/-- Behind a record that was read, the reading goes on with the octets behind it. -/
theorem readRecords_succ {record : Record} {size : Nat} (h : (w.forward size).Sound)
    (hread : readRecord plan layerSize w = .ok (record, w.forward size))
    (vocabSize count : Nat) (p : Progress) :
    ∃ w' q, w'.Sound ∧ w'.file = w.file ∧ w'.limit = w.limit ∧ w'.stride = w.stride ∧
      w'.filePosition = w.filePosition + size ∧
      w'.position = settle w.stride (w.position + size) ∧
      (readRecords plan vocabSize layerSize (count + 1) w p).2 =
        (readRecords plan vocabSize layerSize count w' q).2.map
          fun r => (record :: r.1, r.2) := by
  simp only [readRecords, hread]
  generalize (if plan.reportDue (vocabSize - count) = true then
    p.note (loadedLine (vocabSize - count) vocabSize) else p) = q
  obtain ⟨w', hmove, hsound, hfile, hlimit, hstride, hplace, hposition⟩ := moveOn_sound h q
  rcases hmoved : moveOn (w.forward size) q with ⟨q', r⟩
  obtain rfl : r = .ok w' := by simpa only [hmoved] using hmove
  refine ⟨w', q', hsound, hfile, hlimit, hstride, ?_, hposition, ?_⟩
  · rw [hplace, Window.forward_filePosition]
  · dsimp only
    split
    · next e hrest =>
      simp only [hrest]
      rfl
    · next records w'' hrest =>
      simp only [hrest]
      rfl

/-- **Records through a window** are those of the octets left if each ends in its window; otherwise
the reading stops at the end of a window. -/
theorem readRecords_cases (plan : Plan) (h : w.Sound) (vocabSize layerSize count : Nat)
    (p : Progress) :
    ((readRecords plan vocabSize layerSize count w p).2.map Prod.fst =
        recordsIn plan layerSize count w.filePosition w.left ∧
      ∀ records, recordsIn plan layerSize count w.filePosition w.left = .ok records →
        KeepsUp w.stride w.limit w.position (recordSizes layerSize count w.left)) ∨
    (w.limit < w.file.size ∧ Crosses (readRecords plan vocabSize layerSize count w p).2 ∧
      ∀ records, recordsIn plan layerSize count w.filePosition w.left = .ok records →
        ¬ KeepsUp w.stride w.limit w.position (recordSizes layerSize count w.left)) := by
  -- By induction on the records left: the window behind a record is sound again, and its place in
  -- the file is that of the octets behind the record.
  induction count generalizing w p with
  | zero => exact .inl ⟨rfl, fun _ _ => trivial⟩
  | succ count ih =>
    have hsize := h.size_eq
    rcases readRecord_cases plan layerSize h with
      ⟨record, size, hin, hle, hread⟩ | ⟨e, hin, hread⟩ | ⟨hlt, ⟨wanted, i, j, k, hread⟩, hfar⟩
    · obtain ⟨hsize', -⟩ := recordIn_eq_ok hin
      obtain ⟨w', q, hsound, hfile, hlimit, hstride, hplace, hposition, hrest⟩ :=
        readRecords_succ (h.forward hle) hread vocabSize count p
      have hleft : w'.left = w.left.drop size := by
        rw [← h.left_forward, Window.left, Window.left, hfile, hplace,
          Window.forward_filePosition, Window.forward_file]
      have hfirst : w.position + size ≤ w.limit := by
        have := h.position_le
        simp only [Window.reach] at hle
        omega
      have hih := ih hsound q
      rw [hleft, hplace, hlimit, hstride, hfile, hposition] at hih
      simp only [hrest, recordsIn, hin, recordSizes, ← hsize', KeepsUp]
      rcases hih with ⟨heq, hkeeps⟩ | ⟨hlong, ⟨wanted, i, j, k, hcross⟩, hkeeps⟩
      · left
        constructor
        · rw [← heq]
          cases (readRecords plan vocabSize layerSize count w' q).2 <;> rfl
        · intro records hrecords
          obtain ⟨records', hrecords', -⟩ := exists_of_map_eq_ok hrecords
          exact ⟨hfirst, hkeeps records' hrecords'⟩
      · refine .inr ⟨hlong, ⟨wanted, i, j, k, by rw [hcross]; rfl⟩, ?_⟩
        intro records hrecords hall
        obtain ⟨records', hrecords', -⟩ := exists_of_map_eq_ok hrecords
        exact hkeeps records' hrecords' hall.2
    · refine .inl ⟨by simp only [readRecords, hread, recordsIn, hin]; rfl, ?_⟩
      intro records hrecords
      simp only [recordsIn, hin, reduceCtorEq] at hrecords
    · refine .inr ⟨by omega, ⟨wanted, i, j, k, by simp only [readRecords, hread]⟩, ?_⟩
      intro records hrecords hall
      rcases hin : recordIn plan layerSize w.filePosition w.left with e | ⟨record, size⟩
      · simp only [recordsIn, hin, reduceCtorEq] at hrecords
      · obtain ⟨hsize', -⟩ := recordIn_eq_ok hin
        have hlong := hfar record size hin
        have := h.position_nonneg
        simp only [recordSizes, ← hsize', KeepsUp] at hall
        simp only [Window.reach] at hlong
        omega

/-! ## Models through windows -/

/-- **A plan whose windows can be opened and moved.** -/
structure Plan.Admissible (plan : Plan) : Prop where
  stride_pos : 0 < plan.stride
  /-- The windows start where windows can. -/
  stride_granular : plan.stride % Window.granularity = 0
  stride_lt : plan.stride < plan.limit

/-- What a reading came to: the model, or why there is none. -/
def outcome (r : Progress × Except ModelError Decoded) : Except ModelError Store :=
  r.2.map Decoded.store

theorem length_of_recordsIn {count : Nat} {position : Int} {bs : Bytes} {records : List Record}
    (h : recordsIn plan layerSize count position bs = .ok records) : records.length = count := by
  induction count generalizing position bs records with
  | zero =>
    obtain rfl : [] = records := Except.ok.inj h
    rfl
  | succ count ih =>
    rw [recordsIn] at h
    split at h
    · cases h
    · obtain ⟨rest, hrest, rfl⟩ := exists_of_map_eq_ok h
      rw [List.length_cons, ih hrest]

/-- A store of records has their words. -/
theorem of_storeOf_eq_ok {perSegment : Nat} {records : List Record} {store : Store}
    (h : storeOf layerSize perSegment records = .ok store) :
    store.vocab = records.map Prod.fst ∧ store.layerSize = layerSize := by
  simp only [storeOf, Store.ofSegments] at h
  split at h
  · cases h
  · split at h
    · cases h
    · obtain rfl := Except.ok.inj h
      exact ⟨rfl, rfl⟩

theorem sizes_of_storeOf {perSegment count : Nat} {position : Int} {bs : Bytes}
    {records : List Record} {store : Store}
    (hrecords : recordsIn plan layerSize count position bs = .ok records)
    (h : storeOf layerSize perSegment records = .ok store) :
    store.layerSize = layerSize ∧ store.vocabSize = count := by
  obtain ⟨hvocab, hlayer⟩ := of_storeOf_eq_ok h
  exact ⟨hlayer, by rw [Store.vocabSize, hvocab, List.length_map, length_of_recordsIn hrecords]⟩

/-- A model in a byte string is the store of the records behind its first line. -/
theorem exists_of_modelIn_eq_ok [Memory] {file : String} {content : Bytes} {store : Store}
    (h : modelIn plan file content = .ok store) :
    ∃ perSegment records, Window.newline ∈ content ∧
      vectorsPerSegment store.layerSize plan.capacity = .ok perSegment ∧
      Room.checkSegments store.vocabSize store.layerSize perSegment = .ok () ∧
      recordsIn plan store.layerSize store.vocabSize (lineSize content)
        (content.drop (lineSize content)) = .ok records ∧
      storeOf store.layerSize perSegment records = .ok store := by
  simp only [modelIn] at h
  split at h
  · cases h
  · split at h
    · next hn =>
      split at h
      · cases h
      · split at h
        · cases h
        · next perSegment hper =>
          split at h
          · cases h
          · next hroom =>
            obtain ⟨records, hrecords, hof⟩ := exists_of_bind_eq_ok h
            have hstore := eq_ok_of_mapError_eq_ok hof
            obtain ⟨hlayer, hvocab⟩ := sizes_of_storeOf hrecords hstore
            rw [← hlayer] at hper hroom hrecords hstore
            rw [← hvocab] at hroom hrecords
            exact ⟨perSegment, records, hn, hper, hroom, hrecords, hstore⟩
    · cases h

theorem outcome_ofReading (perSegment : Nat)
    (r : Progress × Except ModelError (List Record × Window)) :
    outcome (ofReading layerSize perSegment r) =
      (r.2.map Prod.fst).bind fun records =>
        (storeOf layerSize perSegment records).mapError .store := by
  obtain ⟨p, e | ⟨records, w⟩⟩ := r
  · rfl
  · simp only [ofReading, Except.map, Except.bind]
    cases storeOf layerSize perSegment records <;> rfl

/-- **Whether each record of the model in a byte string ends in its window**, behind a first line
that does. -/
def Plan.KeepsUpWith (plan : Plan) (content : Bytes) (store : Store) : Prop :=
  KeepsUp plan.stride plan.limit (lineSize content)
    (recordSizes store.layerSize store.vocabSize (content.drop (lineSize content)))

instance Plan.KeepsUpWith.decidable (plan : Plan) (content : Bytes) (store : Store) :
    Decidable (plan.KeepsUpWith content store) :=
  inferInstanceAs (Decidable (KeepsUp ..))

theorem lineSize_le {bs : Bytes} (h : Window.newline ∈ bs) : lineSize bs ≤ bs.length :=
  Bytes.length_takeWhile_lt h

section

variable [Memory]

/-- The model behind the first line, read through windows. -/
theorem outcome_decodeFrom_cases {content : Bytes} (h : w.Sound)
    (hfile : w.file = content.toArray) (hstride : w.stride = plan.stride)
    (hlimit : w.limit = plan.limit) (hposition : w.position = 0) (hoffset : w.offset = 0)
    (hne : content ≠ [])
    (hline : Window.newline ∈ content → (lineSize content : Int) ≤ plan.limit)
    (file : String) (p : Progress) :
    (outcome (decodeFrom plan file w p) = modelIn plan file content ∧
      ∀ store, modelIn plan file content = .ok store → plan.KeepsUpWith content store) ∨
    (plan.limit < content.length ∧ Crosses (outcome (decodeFrom plan file w p)) ∧
      ∀ store, modelIn plan file content = .ok store → ¬ plan.KeepsUpWith content store) := by
  have hextent : w.file.size = content.length := by rw [hfile, List.size_toArray]
  have hplace : w.filePosition = 0 := by simp only [Window.filePosition, hposition, hoffset]; rfl
  have hleft : w.left = content := by rw [Window.left, hplace, hfile]; rfl
  have hempty : content.isEmpty = false := List.isEmpty_eq_false_iff.2 hne
  by_cases hn : Window.newline ∈ content
  · have hlt : lineSize content ≤ w.reach := by
      have := h.size_eq
      have := lineSize_le hn
      have := hline hn
      simp only [Window.reach]
      omega
    have hmem : Window.newline ∈ w.left.take w.reach := by
      rw [hleft]
      exact (Bytes.mem_take_iff hn w.reach).2 hlt
    have hread := Window.readUntil_of_mem h.position_nonneg hmem "header"
    rw [hleft, ← lineSize] at hread
    simp only [decodeFrom, hread, modelIn, hempty, Bool.false_eq_true, if_false, if_pos hn]
    cases hheader : parseHeader (content.takeWhile (· ≠ Window.newline)) file with
    | error e => exact .inl ⟨rfl, fun _ hstore => by cases hstore⟩
    | ok sizes =>
      obtain ⟨vocabSize, layerSize⟩ := sizes
      dsimp only
      cases hper : vectorsPerSegment layerSize plan.capacity with
      | error e => exact .inl ⟨rfl, fun _ hstore => by cases hstore⟩
      | ok perSegment =>
        dsimp only
        cases hroom : Room.checkSegments vocabSize layerSize perSegment with
        | error e => exact .inl ⟨rfl, fun _ hstore => by cases hstore⟩
        | ok _ =>
          generalize p.note _ = q
          have hcases := readRecords_cases plan (h.forward hlt) vocabSize layerSize vocabSize q
          simp only [h.left_forward, hleft, Window.forward_filePosition, hplace, hextent,
            Window.forward_position, hposition, Int.zero_add, Window.forward_file,
            Window.forward_limit, Window.forward_stride, hstride, hlimit] at hcases
          have hsizes : ∀ store, ((recordsIn plan layerSize vocabSize (lineSize content)
              (content.drop (lineSize content))).bind fun records =>
                (storeOf layerSize perSegment records).mapError .store) = .ok store →
              ∃ records, recordsIn plan layerSize vocabSize (lineSize content)
                (content.drop (lineSize content)) = .ok records ∧
                store.layerSize = layerSize ∧ store.vocabSize = vocabSize := by
            intro store hstore
            obtain ⟨records, hrecords, hof⟩ := exists_of_bind_eq_ok hstore
            exact ⟨records, hrecords, sizes_of_storeOf hrecords (eq_ok_of_mapError_eq_ok hof)⟩
          simp only [outcome_ofReading]
          rcases hcases with ⟨heq, hkeeps⟩ | ⟨hlong, hcross, hkeeps⟩
          · refine .inl ⟨by rw [heq], ?_⟩
            intro store hstore
            obtain ⟨records, hrecords, hlayer, hvocab⟩ := hsizes store hstore
            rw [Plan.KeepsUpWith, hlayer, hvocab]
            exact hkeeps records hrecords
          · refine .inr ⟨hlong, (hcross.map Prod.fst).bind _, ?_⟩
            intro store hstore
            obtain ⟨records, hrecords, hlayer, hvocab⟩ := hsizes store hstore
            rw [Plan.KeepsUpWith, hlayer, hvocab]
            exact hkeeps records hrecords
  · have hmem : Window.newline ∉ w.left.take w.reach := fun hmem =>
      hn (hleft ▸ List.mem_of_mem_take hmem)
    have hread := Window.readUntil_of_not_mem h hmem "header"
    simp only [decodeFrom, hread, modelIn, hempty, Bool.false_eq_true, if_false, if_neg hn]
    exact .inl ⟨rfl, fun _ hstore => by cases hstore⟩

/-- A file whose first window can be opened is read from there on, in sections of its own. -/
theorem decode_of_ofFile_eq_ok {content : Bytes} {w : Window}
    (hopen : Window.ofFile content plan.limit plan.stride = .ok w) (file : String)
    (p : Progress) :
    decode plan file content p = p.within "Loading vectors from bin file"
      fun q => q.within "Reading gigabyte #1" (decodeFrom plan file w) := by
  have hempty := List.isEmpty_eq_false_iff.2 (Window.ne_nil_of_ofFile_eq_ok hopen)
  simp only [decode, hempty, Bool.false_eq_true, if_false, hopen]

/-- A file that is not empty is read through a window at its front. -/
theorem decode_of_ne_nil (hplan : plan.Admissible) {content : Bytes} (hne : content ≠ [])
    (file : String) (p : Progress) :
    ∃ w q, w.Sound ∧ w.file = content.toArray ∧ w.limit = plan.limit ∧ w.stride = plan.stride ∧
      w.position = 0 ∧ w.offset = 0 ∧ w.moves = 0 ∧
      (decode plan file content p).2 = (decodeFrom plan file w q).2 := by
  obtain ⟨w, hw, hsound, hfile, hlimit, hstride, hposition, hoffset, hmoves⟩ :=
    Window.ofFile_of_admissible hne hplan.stride_pos hplan.stride_granular hplan.stride_lt
  refine ⟨w, (p.start "Loading vectors from bin file").start "Reading gigabyte #1", hsound, hfile,
    hlimit, hstride, hposition, hoffset, hmoves, ?_⟩
  rw [decode_of_ofFile_eq_ok hw]
  rfl

/-- **A model read through windows** is that of the byte string if each record ends in its window;
otherwise the reading stops at the end of a window. -/
theorem outcome_decode_cases (hplan : plan.Admissible) {content : Bytes}
    (hline : Window.newline ∈ content → (lineSize content : Int) ≤ plan.limit)
    (file : String) (p : Progress) :
    (outcome (decode plan file content p) = modelIn plan file content ∧
      ∀ store, modelIn plan file content = .ok store → plan.KeepsUpWith content store) ∨
    (plan.limit < content.length ∧ Crosses (outcome (decode plan file content p)) ∧
      ∀ store, modelIn plan file content = .ok store → ¬ plan.KeepsUpWith content store) := by
  by_cases hne : content = []
  · subst hne
    exact .inl ⟨rfl, fun _ hstore => by cases hstore⟩
  · obtain ⟨w, q, hsound, hfile, hlimit, hstride, hposition, hoffset, -, hdecode⟩ :=
      decode_of_ne_nil hplan hne file p
    have houtcome : outcome (decode plan file content p) = outcome (decodeFrom plan file w q) := by
      rw [outcome, outcome, hdecode]
    rw [houtcome]
    exact outcome_decodeFrom_cases hsound hfile hstride hlimit hposition hoffset hne hline file q

/-- **A file that fits in one window is read as a byte string.** -/
theorem outcome_decode_of_le (hplan : plan.Admissible) {content : Bytes}
    (hle : (content.length : Int) ≤ plan.limit) (file : String) (p : Progress) :
    outcome (decode plan file content p) = modelIn plan file content := by
  have hline : Window.newline ∈ content → (lineSize content : Int) ≤ plan.limit := by
    intro hn
    have := lineSize_le hn
    omega
  rcases outcome_decode_cases hplan hline file p with ⟨heq, -⟩ | ⟨hlong, -⟩
  · exact heq
  · omega

end

end WordVectors.Binary
