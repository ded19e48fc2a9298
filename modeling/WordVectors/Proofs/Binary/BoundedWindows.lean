import WordVectors.Proofs.Binary.RoundTrip

/-!
# Windows of bounded size

Reading a model through small windows gives what reading it through one window of the size of the
file gives, or stops at the end of a window. It stops there exactly if a record does not end in its
window. Since the window moves by at most one stride behind a record, the position drifts through
the window when records are longer than a stride, and records that each fit behind a stride may
still end outside.

## Main definitions

* `Binary.Plan.withWindows`: a plan with other windows

## Main results

* `Binary.keepsUp_of_le`: records that are short enough end in their windows
* `Binary.decode_withWindows`: small windows do not change what is read
* `Binary.decode_withWindows_iff`: when small windows are enough
-/

namespace WordVectors.Binary

variable {plan : Plan}

/-! ## Plans with other windows -/

/-- A plan with other windows. -/
def Plan.withWindows (plan : Plan) (stride limit : Int) : Plan :=
  { plan with stride, limit }

theorem recordsIn_withWindows (stride limit : Int) (layerSize count : Nat) (position : Int)
    (bs : Bytes) :
    recordsIn (plan.withWindows stride limit) layerSize count position bs =
      recordsIn plan layerSize count position bs := by
  induction count generalizing position bs with
  | zero => rfl
  | succ count ih =>
    have hrecord : recordIn (plan.withWindows stride limit) layerSize position bs =
        recordIn plan layerSize position bs := rfl
    simp only [recordsIn, hrecord, ih]

/-- **What is in a byte string does not depend on windows.** -/
theorem modelIn_withWindows [Memory] (stride limit : Int) (file : String) (content : Bytes) :
    modelIn (plan.withWindows stride limit) file content = modelIn plan file content := by
  simp only [modelIn, recordsIn_withWindows]
  rfl

/-! ## Ends -/

theorem isEnd_of_recordIn {layerSize : Nat} {position : Int} {bs : Bytes} {e : WindowError}
    (h : recordIn plan layerSize position bs = .error (.window e)) : e.isEnd = true := by
  simp only [recordIn] at h
  split at h
  · split at h
    · cases h
    · split at h
      · cases h
      · cases h
        rfl
  · cases h
    rfl

theorem isEnd_of_recordsIn {layerSize count : Nat} {position : Int} {bs : Bytes}
    {e : WindowError} (h : recordsIn plan layerSize count position bs = .error (.window e)) :
    e.isEnd = true := by
  induction count generalizing position bs with
  | zero => cases h
  | succ count ih =>
    rw [recordsIn] at h
    split at h
    · next e' he =>
      obtain rfl := Except.error.inj h
      exact isEnd_of_recordIn he
    · next record size _ =>
      cases hrest : recordsIn plan layerSize count (position + size) (bs.drop size) with
      | error e' =>
        rw [hrest] at h
        obtain rfl := Except.error.inj h
        exact ih hrest
      | ok records =>
        rw [hrest] at h
        cases h

/-- **A byte string can only end too early**: of the causes that windows have, there is no other. -/
theorem isEnd_of_modelIn [Memory] {file : String} {content : Bytes} {e : WindowError}
    (h : modelIn plan file content = .error (.window e)) : e.isEnd = true := by
  simp only [modelIn] at h
  split at h
  · cases h
  · split at h
    · split at h
      · cases h
      · split at h
        · cases h
        · split at h
          · cases h
          · next perSegment _ _ _ =>
            revert h
            generalize hrecords : recordsIn plan _ _ _ _ = r
            intro h
            cases r with
            | error e' =>
              obtain rfl := Except.error.inj h
              exact isEnd_of_recordsIn hrecords
            | ok records =>
              simp only [Except.bind] at h
              cases hstore : storeOf _ perSegment records <;> rw [hstore] at h <;> cases h
    · cases h

/-! ## Records that keep up -/

/-- **Records that are short enough end in their windows**: none longer than a stride, so that one
move brings the position back to the first stride, and none longer than what is behind it. -/
theorem keepsUp_of_le {stride limit position : Int} {sizes : List Nat}
    (hposition : position ≤ stride) (h : ∀ n ∈ sizes, (n : Int) ≤ min stride (limit - stride)) :
    KeepsUp stride limit position sizes := by
  induction sizes generalizing position with
  | nil => trivial
  | cons size sizes ih =>
    rw [List.forall_mem_cons] at h
    -- After a move the position is at most a record long, and so is not past the stride again.
    refine ⟨by omega, ih ?_ h.2⟩
    rw [settle]
    split <;> omega

/-- Whether a written model keeps up is a matter of the sizes of its records. -/
theorem keepsUpWith_octets {store read : Store} (hwords : ∀ word ∈ store.vocab, IsToken word)
    (hvocab : read.vocab = store.vocab) (hlayer : read.layerSize = store.layerSize) :
    plan.KeepsUpWith (octets store) read ↔
      KeepsUp plan.stride plan.limit (lineSize (octets store))
        (writtenSizes store.layerSize 0 store.vocab) := by
  rw [Plan.KeepsUpWith, hlayer, Store.vocabSize, hvocab, ← Store.vocabSize,
    recordSizes_octets hwords]

/-! ## A single window -/

variable {w : Window}

/-- A window whose stride is no shorter than the file is not moved. -/
theorem moveOn_of_le (h : w.Sound) (hle : (w.file.size : Int) ≤ w.stride) (p : Progress) :
    moveOn w p = (p, .ok w) := by
  have hposition := h.position_le
  have hinside := w.inside
  have hdue : w.isDue = false := by
    rw [Window.isDue, decide_eq_false_iff_not]
    omega
  rw [moveOn, hdue, if_neg Bool.false_ne_true]

theorem moves_of_readRecords (h : w.Sound) (hle : (w.file.size : Int) ≤ w.stride)
    {vocabSize layerSize count : Nat} {p : Progress} {records : List Record} {w' : Window}
    (hread : (readRecords plan vocabSize layerSize count w p).2 = .ok (records, w')) :
    w'.moves = w.moves := by
  induction count generalizing w p records with
  | zero =>
    simp only [readRecords, Except.ok.injEq, Prod.mk.injEq] at hread
    rw [hread.2]
  | succ count ih =>
    rcases readRecord_cases plan layerSize h with
      ⟨record, size, -, hreach, hrecord⟩ | ⟨e, -, hrecord⟩ | ⟨-, ⟨wanted, i, j, k, hrecord⟩, -⟩
    · have hsound := h.forward hreach
      simp only [readRecords, hrecord, moveOn_of_le hsound hle] at hread
      split at hread
      · cases hread
      · next q rest w'' hrest =>
        simp only [Except.ok.injEq, Prod.mk.injEq] at hread
        obtain ⟨-, rfl⟩ := hread
        have hmoves := ih hsound hle (congrArg Prod.snd hrest)
        exact hmoves
    · simp only [readRecords, hrecord, reduceCtorEq] at hread
    · simp only [readRecords, hrecord, reduceCtorEq] at hread

theorem moves_of_decodeFrom [Memory] (h : w.Sound) (hle : (w.file.size : Int) ≤ w.stride)
    {file : String} {p : Progress} {decoded : Decoded}
    (hread : (decodeFrom plan file w p).2 = .ok decoded) : decoded.moves = w.moves := by
  by_cases hn : Window.newline ∈ w.left.take w.reach
  · have hsound := h.forward (n := (w.left.takeWhile (· ≠ Window.newline)).length + 1)
      ((Bytes.mem_take_iff (List.mem_of_mem_take hn) w.reach).1 hn)
    rw [decodeFrom, Window.readUntil_of_mem h.position_nonneg hn] at hread
    dsimp only at hread
    split at hread
    · cases hread
    · split at hread
      · cases hread
      · split at hread
        · cases hread
        · next vocabSize layerSize _ _ perSegment _ _ _ =>
          revert hread
          generalize hrecords : readRecords plan _ _ _ _ _ = r
          intro hread
          obtain ⟨q, e | ⟨records, w'⟩⟩ := r
          · cases hread
          · have hmoves := moves_of_readRecords hsound hle (congrArg Prod.snd hrecords)
            simp only [ofReading] at hread
            split at hread
            · cases hread
            · obtain rfl := Except.ok.inj hread
              exact hmoves
  · rw [decodeFrom, Window.readUntil_of_not_mem h hn] at hread
    cases hread

/-- **A window whose stride is no shorter than the file is never moved.** -/
theorem moves_of_decode [Memory] (hplan : plan.Admissible) {content : Bytes}
    (hle : (content.length : Int) ≤ plan.stride) {file : String} {p : Progress}
    {decoded : Decoded} (hread : (decode plan file content p).2 = .ok decoded) :
    decoded.moves = 0 := by
  by_cases hne : content = []
  · subst hne
    cases hread
  · obtain ⟨w, q, hsound, hfile, -, hstride, -, -, hmoves, hdecode⟩ :=
      decode_of_ne_nil hplan hne file p
    have hlong : (w.file.size : Int) ≤ w.stride := by rwa [hfile, List.size_toArray, hstride]
    rw [hdecode] at hread
    rw [moves_of_decodeFrom hsound hlong hread, hmoves]

/-- A plan with a window in which a file lies as a whole. -/
def Plan.whole (plan : Plan) (content : Bytes) : Plan :=
  plan.withWindows (Window.granularity * content.length) (Window.granularity * content.length + 1)

theorem Plan.admissible_whole (plan : Plan) {content : Bytes} (hne : content ≠ []) :
    (plan.whole content).Admissible := by
  have hpos := List.length_pos_iff.2 hne
  refine ⟨?_, Int.mul_emod_right _ _, Int.lt_succ _⟩
  show 0 < (4096 : Int) * content.length
  omega

theorem Plan.length_le_whole (plan : Plan) (content : Bytes) :
    (content.length : Int) ≤ (plan.whole content).stride := by
  show (content.length : Int) ≤ 4096 * content.length
  omega

/-- Through a window in which it lies as a whole, a file is read as a byte string. -/
theorem outcome_decode_whole [Memory] (plan : Plan) {content : Bytes} (hne : content ≠ [])
    (file : String) (p : Progress) :
    outcome (decode (plan.whole content) file content p) = modelIn plan file content := by
  have hwhole := plan.admissible_whole hne
  have hfits := Int.le_trans (plan.length_le_whole content) (Int.le_of_lt hwhole.stride_lt)
  rw [outcome_decode_of_le hwhole hfits, Plan.whole, modelIn_withWindows]

/-- A written model is read through a window in which it lies as a whole. -/
theorem decode_whole_octets [Memory] (plan : Plan) (horder : plan.order = .little) {store : Store}
    (hlong : store.isTooLong = false) (hcapacity : (store.layerSize : Int) ≤ plan.capacity)
    (hroom : Memory.HoldsSegments store.vocabSize store.layerSize plan.capacity)
    (hwords : ∀ word ∈ store.vocab, IsToken word) (file : String) (p : Progress) :
    ∃ read, outcome (decode (plan.whole (octets store)) file (octets store) p) = .ok read ∧
      read.vocab = store.vocab ∧ read.layerSize = store.layerSize := by
  obtain ⟨read, hread, hvocab, hlayer, -⟩ :=
    modelIn_octets horder hlong hcapacity hroom hwords file
  refine ⟨read, ?_, hvocab, hlayer⟩
  rw [outcome_decode_whole plan (List.ne_nil_of_mem (newline_mem_octets store)), hread]

/-! ## Bounded windows -/

/-- **Small windows do not change what is read.** Next to a reading through a window of the size of
the file, which is never moved, a reading through other windows comes to the same, or it stops at
the end of a window; no move fails. It does not stop there if the first line and the records are
short enough. -/
theorem decode_withWindows [Memory] (hplan : plan.Admissible) {stride limit : Int}
    (hwhole : (plan.withWindows stride limit).Admissible) {content : Bytes}
    (hcover : (content.length : Int) ≤ stride)
    (hline : Window.newline ∈ content → (lineSize content : Int) ≤ plan.limit)
    (file : String) (p q : Progress) :
    (outcome (decode plan file content p) =
        outcome (decode (plan.withWindows stride limit) file content q) ∨
      Crosses (outcome (decode plan file content p))) ∧
    (∀ e, outcome (decode plan file content p) = .error (.window e) → e.isEnd = true) ∧
    (∀ decoded, (decode (plan.withWindows stride limit) file content q).2 = .ok decoded →
      decoded.moves = 0) ∧
    ∀ store, outcome (decode (plan.withWindows stride limit) file content q) = .ok store →
      (lineSize content : Int) ≤ plan.stride →
      (∀ n ∈ recordSizes store.layerSize store.vocabSize (content.drop (lineSize content)),
        (n : Int) ≤ min plan.stride (plan.limit - plan.stride)) →
      outcome (decode plan file content p) = .ok store := by
  have hfits : (content.length : Int) ≤ (plan.withWindows stride limit).limit :=
    Int.le_trans hcover (Int.le_of_lt hwhole.stride_lt)
  rw [outcome_decode_of_le hwhole hfits, modelIn_withWindows]
  refine ⟨?_, ?_, fun decoded => moves_of_decode hwhole hcover, ?_⟩
  · rcases outcome_decode_cases hplan hline file p with ⟨heq, -⟩ | ⟨-, hcross, -⟩
    · exact .inl heq
    · exact .inr hcross
  · intro e he
    rcases outcome_decode_cases hplan hline file p with ⟨heq, -⟩ | ⟨-, hcross, -⟩
    · exact isEnd_of_modelIn (heq ▸ he)
    · obtain ⟨wanted, i, j, k, hcross⟩ := hcross
      rw [hcross] at he
      cases he
      rfl
  · intro store hstore hfirst hsizes
    have hkeeps : plan.KeepsUpWith content store := keepsUp_of_le hfirst hsizes
    rcases outcome_decode_cases hplan hline file p with ⟨heq, -⟩ | ⟨-, -, hnot⟩
    · rw [heq, hstore]
    · exact absurd hkeeps (hnot store hstore)

/-- Three records, each of almost the size of a stride, in windows of two strides. -/
theorem decode_withWindows_three :
    letI : Memory := .ample
    let store : Store := ⟨["a", "b", "c"], 1000, 1, List.replicate 3 (List.replicate 1000 .zero),
      by decide, Layout.fault?_eq_none_iff.1 (by decide +kernel)⟩
    let plan : Plan := ⟨.little, 1000, 4096, 8192, .strict, fun _ => false⟩
    let content := octets store
    ∃ read, read.vocab = store.vocab ∧
      outcome (decode (plan.whole content) "model" content .silent) = .ok read ∧
      outcome (decode plan "model" content .silent) = .ok read := by
  let memory : Memory := .ample
  intro store plan content
  have hplan : plan.Admissible := ⟨by decide, by decide, by decide⟩
  have hne : content ≠ [] := List.ne_nil_of_mem (newline_mem_octets store)
  have hlong : store.isTooLong = false := by decide +kernel
  have hwords : ∀ word ∈ store.vocab, IsToken word := by decide
  have hline : lineSize content = 7 := by
    rw [lineSize_octets_eq]
    simp [Text.digits, Store.vocabSize, store]
  have hsizes : writtenSizes store.layerSize 0 store.vocab = [4002, 4003, 4003] := by decide
  obtain ⟨read, hread, hvocab, hlayer⟩ :=
    decode_whole_octets plan rfl hlong (by decide) (by decide) hwords "model" .silent
  obtain ⟨-, -, -, hbounded⟩ := decode_withWindows hplan (plan.admissible_whole hne)
    (plan.length_le_whole content) (fun _ => by rw [hline]; decide) "model" .silent .silent
  refine ⟨read, hvocab, hread, hbounded read hread (by rw [hline]; decide) ?_⟩
  rw [hlayer, Store.vocabSize, hvocab, ← Store.vocabSize, recordSizes_octets hwords, hsizes]
  decide

/-- **When small windows are enough.** A model that is read through a window of the size of the
file is read through other windows exactly if each record ends in its window, when the window
moves by at most one stride behind each; otherwise the reading stops at the end of a window. -/
theorem decode_withWindows_iff [Memory] (hplan : plan.Admissible) {stride limit : Int}
    (hwhole : (plan.withWindows stride limit).Admissible) {content : Bytes}
    (hcover : (content.length : Int) ≤ stride)
    (hline : (lineSize content : Int) ≤ plan.limit) (file : String) (p q : Progress)
    {store : Store}
    (hstore : outcome (decode (plan.withWindows stride limit) file content q) = .ok store) :
    (outcome (decode plan file content p) = .ok store ↔ plan.KeepsUpWith content store) ∧
    (¬ plan.KeepsUpWith content store → Crosses (outcome (decode plan file content p))) := by
  have hfits : (content.length : Int) ≤ (plan.withWindows stride limit).limit :=
    Int.le_trans hcover (Int.le_of_lt hwhole.stride_lt)
  rw [outcome_decode_of_le hwhole hfits, modelIn_withWindows] at hstore
  rcases outcome_decode_cases hplan (fun _ => hline) file p with ⟨heq, hkeeps⟩ | ⟨-, hcross, hnot⟩
  · have hkeeps := hkeeps store hstore
    exact ⟨⟨fun _ => hkeeps, fun _ => heq.trans hstore⟩, fun hnot => absurd hkeeps hnot⟩
  · have hnot := hnot store hstore
    refine ⟨⟨?_, fun hkeeps => absurd hkeeps hnot⟩, fun _ => hcross⟩
    intro hread
    obtain ⟨wanted, i, j, k, hcross⟩ := hcross
    rw [hcross] at hread
    cases hread

/-- Two records, each longer than a stride, that keep up. -/
theorem decode_withWindows_iff_two :
    letI : Memory := .ample
    let store : Store := ⟨["a", "b"], 1500, 1, List.replicate 2 (List.replicate 1500 .zero),
      by decide, Layout.fault?_eq_none_iff.1 (by decide +kernel)⟩
    let plan : Plan := ⟨.little, 1500, 4096, 12288, .strict, fun _ => false⟩
    ∃ read, read.vocab = store.vocab ∧
      outcome (decode plan "model" (octets store) .silent) = .ok read := by
  let memory : Memory := .ample
  intro store plan
  have hplan : plan.Admissible := ⟨by decide, by decide, by decide⟩
  have hne : octets store ≠ [] := List.ne_nil_of_mem (newline_mem_octets store)
  have hlong : store.isTooLong = false := by decide +kernel
  have hwords : ∀ word ∈ store.vocab, IsToken word := by decide
  have hline : lineSize (octets store) = 7 := by
    rw [lineSize_octets_eq]
    simp [Text.digits, Store.vocabSize, store]
  have hsizes : writtenSizes store.layerSize 0 store.vocab = [6002, 6003] := by decide
  obtain ⟨read, hread, hvocab, hlayer⟩ :=
    decode_whole_octets plan rfl hlong (by decide) (by decide) hwords "model" .silent
  have hiff := (decode_withWindows_iff hplan (plan.admissible_whole hne)
    (plan.length_le_whole _) (by rw [hline]; decide) "model" .silent .silent hread).1
  refine ⟨read, hvocab, hiff.2 ((keepsUpWith_octets hwords hvocab hlayer).2 ?_)⟩
  rw [hline, hsizes]
  decide

/-- **Records that each fit behind a stride may still end outside**: with a stride of 4096 octets
and a window of 12288, two records of 8192 octets do. The first leaves the position at 8199, and
after one move it is at 4103, from where the second record ends at 12295. -/
theorem decode_withWindows_drift :
    letI : Memory := .ample
    let store : Store := ⟨["abc", "ab"], 2047, 1, List.replicate 2 (List.replicate 2047 .zero),
      by decide, Layout.fault?_eq_none_iff.1 (by decide +kernel)⟩
    let plan : Plan := ⟨.little, 2047, 4096, 12288, .strict, fun _ => false⟩
    let content := octets store
    plan.Admissible ∧
      ∃ read, outcome (decode (plan.whole content) "model" content .silent) = .ok read ∧
        (lineSize content : Int) ≤ plan.stride ∧
        (∀ n ∈ recordSizes read.layerSize read.vocabSize (content.drop (lineSize content)),
          (n : Int) ≤ plan.limit - plan.stride) ∧
        Crosses (outcome (decode plan "model" content .silent)) ∧
        ¬ outcome (decode plan "model" content .silent) = .ok read := by
  let memory : Memory := .ample
  intro store plan content
  have hplan : plan.Admissible := ⟨by decide, by decide, by decide⟩
  have hlong : store.isTooLong = false := by decide +kernel
  have hwords : ∀ word ∈ store.vocab, IsToken word := by decide
  have hline : lineSize content = 7 := by
    rw [lineSize_octets_eq]
    simp [Text.digits, Store.vocabSize, store]
  have hsizes : writtenSizes store.layerSize 0 store.vocab = [8192, 8192] := by decide
  obtain ⟨read, hread, hvocab, hlayer⟩ :=
    decode_whole_octets plan rfl hlong (by decide) (by decide) hwords "model" .silent
  -- The sizes decide: the second record would end at 4103 + 8192 = 12295.
  have hdrift : ¬ plan.KeepsUpWith content read := by
    rw [keepsUpWith_octets hwords hvocab hlayer, hline, hsizes]
    decide
  refine ⟨hplan, read, hread, by rw [hline]; decide, ?_, ?_⟩
  · rw [hlayer, Store.vocabSize, hvocab, ← Store.vocabSize, recordSizes_octets hwords, hsizes]
    decide
  · have hne : content ≠ [] := List.ne_nil_of_mem (newline_mem_octets store)
    rw [outcome_decode_whole plan hne] at hread
    rcases outcome_decode_cases hplan (fun _ => by rw [hline]; decide) "model" .silent with
      ⟨-, hkeeps⟩ | ⟨-, hcross, -⟩
    · exact absurd (hkeeps read hread) hdrift
    · refine ⟨hcross, ?_⟩
      intro hok
      obtain ⟨wanted, i, j, k, hcross⟩ := hcross
      rw [hcross] at hok
      cases hok

end WordVectors.Binary
