import WordVectors.Proofs.Binary.BoundedWindows
import WordVectors.Proofs.Binary.Reporting
import WordVectors.Proofs.Binary.Segments
import WordVectors.Proofs.Window.Runs

/-!
# Announcements of windows

A reading opens a section for each of its windows: one for the window at the front of the file, and
one in front of each move. What a section tells of the start and the size of its window is what the
move comes to. The numbers are those of the moves, and the section for the first window has a number
of its own, so that the first two sections have the same one.

## Main definitions

* `Progress.announced`: the sections that lines announce
* `Window.Trail`: the windows that the moves of a run come to
* `Binary.Announces`: a run that opens a section in front of each move

## Main results

* `Binary.windowLine_of_advance`: what is told of a window before a move holds of it afterwards
* `Binary.readRecords_announces`, `Binary.decodeFrom_announces`: what a reading announces
* `Binary.decode_announcements`: the sections of a reading, and when they are numbered in order
-/

namespace WordVectors

/-! ## Announced sections -/

namespace Progress

/-- The name of the section that a line announces. -/
def announced? (line : String) : Option String :=
  (line.toList.dropPrefix? "Started: ".toList).map String.ofList

/-- **The names of the sections that lines announce**, in order. -/
def announced (lines : List String) : List String := lines.filterMap announced?

theorem announced?_eq_some_iff {line name : String} :
    announced? line = some name ↔ line = startedLine name := by
  simp only [announced?, Option.map_eq_some_iff, List.dropPrefix?_eq_some_iff, beq_iff_eq,
    exists_eq_right]
  rw [← String.toList_inj, toList_startedLine]
  constructor
  · rintro ⟨rest, hline, rfl⟩
    exact hline.trans (congrArg _ String.toList_ofList.symm)
  · intro hline
    exact ⟨name.toList, hline, String.ofList_toList⟩

theorem announced?_eq_none {line : String} (h : ∀ name, line ≠ startedLine name) :
    announced? line = none :=
  Option.eq_none_iff_forall_ne_some.2 fun name hname => h name (announced?_eq_some_iff.1 hname)

/-- **Progress that was reached by opening sections** of the given names, among other reports. -/
structure Opens (p : Progress) (names : List String) (q : Progress) : Prop where
  sink : q.sink = p.sink
  /-- The lines attempted in between. -/
  lines : ∃ lines, q.attempted.toList = p.attempted.toList ++ lines ∧ announced lines = names

variable {p q r : Progress} {names names' : List String}

theorem Opens.refl (p : Progress) : p.Opens [] p :=
  ⟨rfl, [], (List.append_nil _).symm, rfl⟩

theorem Opens.trans (h : p.Opens names q) (h' : q.Opens names' r) :
    p.Opens (names ++ names') r := by
  obtain ⟨lines, hlines, hnames⟩ := h.lines
  obtain ⟨lines', hlines', hnames'⟩ := h'.lines
  refine ⟨h'.sink.trans h.sink, lines ++ lines', ?_, ?_⟩
  · rw [hlines', hlines, List.append_assoc]
  · rw [announced, List.filterMap_append, ← announced, ← announced, hnames, hnames']

theorem opens_note (hp : p.sink.isSome) (line : String) :
    p.Opens (announced? line).toList (p.note line) := by
  refine ⟨note_sink p line, [line], attempted_note hp line, ?_⟩
  rw [announced, List.filterMap_cons, List.filterMap_nil]
  cases announced? line <;> rfl

theorem opens_of_isNote (hp : p.sink.isSome) {line : String} (hline : IsNote line) :
    p.Opens [] (p.note line) := by
  have hnote := opens_note hp line
  rwa [announced?_eq_none fun name => (hline name).1] at hnote

theorem opens_start (hp : p.sink.isSome) (name : String) : p.Opens [name] (p.start name) := by
  let inner : Progress := { p with sections := name :: p.sections }
  have hinner : inner.sink.isSome := hp
  have hnote := opens_note hinner (startedLine name)
  rw [announced?_eq_some_iff.2 rfl] at hnote
  rw [start]
  split
  · next hnone =>
    rw [hnone] at hp
    cases hp
  · exact ⟨hnote.sink, hnote.lines⟩

theorem opens_finish (hp : p.sink.isSome) : p.Opens [] p.finish := by
  rw [finish]
  split
  · exact .refl p
  · next name rest hsections =>
    let inner : Progress := { p with sections := rest }
    have hinner : inner.sink.isSome := hp
    have hnote := opens_note hinner (finishedLine name)
    rw [announced?_eq_none fun _ => (startedLine_ne_finishedLine _ name).symm] at hnote
    exact ⟨hnote.sink, hnote.lines⟩

theorem opens_restart (hp : p.sink.isSome) (name : String) : p.Opens [name] (p.restart name) := by
  have hfinish := opens_finish hp
  have hstart := opens_start (hfinish.sink ▸ hp) name
  exact hfinish.trans hstart

/-- A section around an operation is opened in front of those of the operation. -/
theorem opens_within {α : Type} {body : Progress → Progress × α} (hp : p.sink.isSome)
    {name : String} (hbody : (p.start name).Opens names (body (p.start name)).1) :
    p.Opens (name :: names) (p.within name body).1 := by
  have hstart := opens_start hp name
  have hall := hstart.trans hbody
  have hfinish := opens_finish (hall.sink ▸ hp)
  have hdone := hall.trans hfinish
  rwa [List.append_nil] at hdone

end Progress

/-! ## Windows that moves come to -/

namespace Window

/-- **The windows that the moves of a run come to**, in order, from a first window to a last.
Between two moves there may be any reads, and every move was due. -/
inductive Trail : (first : Window) → (windows : List Window) → (last : Window) → Prop
  | stop (w : Window) : Trail w [] w
  | read {w last : Window} {windows : List Window} (r : Read) (h : Trail (w.after r) windows last) :
      Trail w windows last
  | move {w next last : Window} {windows : List Window} (hdue : w.isDue = true)
      (hmove : w.advance = (next, .ok ())) (h : Trail next windows last) :
      Trail w (next :: windows) last

variable {w w' next last : Window} {windows windows' : List Window}

theorem Trail.append (h : w.Trail windows w') (h' : w'.Trail windows' last) :
    w.Trail (windows ++ windows') last := by
  induction h with
  | stop => exact h'
  | read r _ ih => exact .read r (ih h')
  | move hdue hmove _ ih => exact .move hdue hmove (ih h')

theorem moved_of_readUntil_eq_ok {terminator bs : Bytes} {wanted : String}
    (h : w.readUntil terminator wanted = .ok (bs, w')) : ∃ position, w' = { w with position } := by
  simp only [readUntil] at h
  split at h
  · cases h
  · split at h
    · cases h
    · obtain ⟨-, rfl⟩ := Prod.mk.inj (Except.ok.inj h)
      exact ⟨_, rfl⟩

theorem moved_of_readFloats_eq_ok {count : Int} {order : ByteOrder} {xs : List Binary32}
    (h : w.readFloats count order = .ok (xs, w')) : ∃ position, w' = { w with position } := by
  simp only [readFloats] at h
  split at h
  · cases h
  · split at h
    · cases h
    · obtain ⟨-, rfl⟩ := Prod.mk.inj (Except.ok.inj h)
      exact ⟨_, rfl⟩

/-- **A read changes nothing of a window but its position.** -/
theorem exists_after (w : Window) (r : Read) : ∃ position, w.after r = { w with position } := by
  rw [after]
  rcases hread : w.read r with e | ⟨content, w'⟩
  · exact ⟨w.position, rfl⟩
  · cases r with
    | «until» terminator wanted =>
      obtain ⟨⟨bs, w₁⟩, hnext, heq⟩ := exists_of_map_eq_ok hread
      obtain ⟨-, rfl⟩ := Prod.mk.inj heq
      exact moved_of_readUntil_eq_ok hnext
    | token =>
      obtain ⟨⟨token, w₁⟩, htoken, heq⟩ := exists_of_map_eq_ok hread
      obtain ⟨-, rfl⟩ := Prod.mk.inj heq
      obtain ⟨⟨bs, w₂⟩, hnext, htoken⟩ := exists_of_bind_eq_ok htoken
      obtain ⟨-, rfl⟩ := Prod.mk.inj (Except.ok.inj htoken)
      exact moved_of_readUntil_eq_ok hnext
    | floats count order =>
      obtain ⟨⟨xs, w₁⟩, hnext, heq⟩ := exists_of_map_eq_ok hread
      obtain ⟨-, rfl⟩ := Prod.mk.inj heq
      exact moved_of_readFloats_eq_ok hnext

theorem eq_of_sizeAt_eq_ok {extent size : ℕ} {limit offset : Int} (hlimit : 0 < limit)
    (h : sizeAt extent limit offset = .ok size) :
    (size : Int) = min ((extent : Int) - offset) limit := by
  simp only [sizeAt] at h
  repeat' split at h
  all_goals
    cases h
    try omega

theorem same_of_advance (h : w.advance = (next, .ok ())) :
    next.file = w.file ∧ next.limit = w.limit ∧ next.stride = w.stride ∧
      next.moves = w.moves + 1 := by
  rw [advance] at h
  split at h
  · cases h
  · obtain ⟨rfl, -⟩ := Prod.mk.inj h
    exact ⟨rfl, rfl, rfl, rfl⟩

/-- **Where a move that succeeds comes to**: as many strides into the file as there were moves, and
as far as the file or the limit goes. -/
theorem place_of_advance (hlt : w.stride < w.limit) (h : w.advance = (next, .ok ())) :
    (next.offset : Int) = w.nextOffset ∧
      (next.size : Int) = min ((w.file.size : Int) - w.nextOffset) w.limit := by
  rw [advance] at h
  split at h
  · cases h
  · next size hsize =>
    obtain ⟨rfl, -⟩ := Prod.mk.inj h
    have hoffset := nonneg_of_sizeAt hsize
    have hstride : 0 ≤ w.stride := Int.nonneg_of_mul_nonneg_left hoffset (by omega)
    exact ⟨Int.toNat_of_nonneg hoffset, eq_of_sizeAt_eq_ok (by omega) hsize⟩

theorem Trail.moves_last (h : w.Trail windows last) : last.moves = w.moves + windows.length := by
  induction h with
  | stop => rfl
  | @read w _ _ r _ ih =>
    obtain ⟨position, hafter⟩ := w.exists_after r
    rw [ih, hafter]
  | move _ hmove _ ih =>
    rw [ih, (same_of_advance hmove).2.2.2, List.length_cons]
    omega

theorem Trail.same (h : w.Trail windows last) :
    last.file = w.file ∧ last.limit = w.limit ∧ last.stride = w.stride := by
  induction h with
  | stop => exact ⟨rfl, rfl, rfl⟩
  | @read w _ _ r _ ih =>
    obtain ⟨position, hafter⟩ := w.exists_after r
    rwa [hafter] at ih
  | move _ hmove _ ih =>
    obtain ⟨hfile, hlimit, hstride, -⟩ := same_of_advance hmove
    exact ⟨ih.1.trans hfile, ih.2.1.trans hlimit, ih.2.2.trans hstride⟩

/-- Reads and moves keep what holds of windows in every run. -/
theorem Trail.sound (h : w.Trail windows last) (hw : w.Sound) : last.Sound := by
  induction h with
  | stop => exact hw
  | read r _ ih =>
    obtain ⟨n, hn, hafter, -⟩ := hw.after_eq_forward r
    exact ih (hafter ▸ hw.forward hn)
  | move hdue hmove _ ih =>
    obtain ⟨next, hnext, hsound, -⟩ := advance_of_isDue hw hdue
    obtain ⟨rfl, -⟩ := Prod.mk.inj (hmove.symm.trans hnext)
    exact ih hsound

end Window

/-! ## Names of sections -/

namespace Binary

/-- The name of the section for a window that a move came to. -/
def windowName (number : ℕ) (start size : Int) : String :=
  s!"Reading gigabyte #{number}. Start: {start}, size: {size}"

/-- The name of the section in front of the move to a window. -/
def titleOf (w : Window) : String := windowName w.moves w.offset w.size

/-- **Whether a section has a number**, with a window or without one. -/
def IsNumbered (number : ℕ) (name : String) : Prop :=
  name = s!"Reading gigabyte #{number}" ∨ ∃ start size, name = windowName number start size

variable {w next last : Window} {windows : List Window}

/-- **What is told of a window before a move holds of it afterwards**: its start and its size, and
how often the window was moved. -/
theorem windowLine_of_advance (hlt : w.stride < w.limit) (h : w.advance = (next, .ok ())) :
    windowLine w = titleOf next := by
  obtain ⟨hoffset, hsize⟩ := Window.place_of_advance hlt h
  rw [titleOf, (Window.same_of_advance h).2.2.2, hoffset, hsize]
  rfl

theorem map_titleOf (h : w.Trail windows last) :
    windows.map titleOf =
      windows.mapIdx fun i v => windowName (w.moves + i + 1) v.offset v.size := by
  induction h with
  | stop => rfl
  | @read w _ _ r _ ih =>
    obtain ⟨position, hafter⟩ := w.exists_after r
    rw [ih, hafter]
  | @move w next _ windows _ hmove _ ih =>
    have hmoves := (Window.same_of_advance hmove).2.2.2
    have hnumbers : ∀ i, w.moves + 1 + i + 1 = w.moves + (i + 1) + 1 := fun i => by
      rw [Nat.add_right_comm w.moves 1 i, Nat.add_assoc w.moves i]
    simp only [List.map_cons, List.mapIdx_cons, ih, titleOf, hmoves, hnumbers, Nat.add_zero]

/-- The number of a section stands between the same letters and the first that is no digit. -/
theorem IsNumbered.exists_rest {number : ℕ} {name : String} (h : IsNumbered number name) :
    ∃ rest, (∀ c ∈ rest.head?, Text.isDigit c = false) ∧
      name.toList = "Reading gigabyte #".toList ++ (Text.digits number ++ rest) := by
  rcases h with rfl | ⟨start, size, rfl⟩
  · refine ⟨[], by simp, ?_⟩
    rw [String.toList_append, Text.toList_toString, List.append_nil]
    rfl
  · have hdot : ". Start: ".toList.head? = some '.' := rfl
    refine ⟨". Start: ".toList ++ ((toString start).toList ++ (", size: ".toList ++
      (toString size).toList)), ?_, ?_⟩
    · intro c hc
      rw [List.head?_append, hdot, Option.some_or] at hc
      obtain rfl := Option.some.inj hc
      decide
    · unfold windowName
      simp only [String.toList_append, Text.toList_toString, List.append_assoc]
      rfl

theorem IsNumbered.ofDigits_eq {number : ℕ} {name : String} (h : IsNumbered number name) :
    Text.ofDigits ((name.toList.drop 18).takeWhile Text.isDigit) = number := by
  obtain ⟨rest, hrest, hlist⟩ := h.exists_rest
  have hprefix : "Reading gigabyte #".toList.length = 18 := rfl
  have hdigits : (Text.digits number ++ rest).takeWhile Text.isDigit = Text.digits number := by
    rw [List.takeWhile_append_of_pos Text.isDigit_of_mem_digits]
    cases rest with
    | nil => rw [List.takeWhile_nil, List.append_nil]
    | cons c rest =>
      have hc := hrest c rfl
      rw [List.takeWhile_cons_of_neg (by rw [hc]; exact Bool.false_ne_true), List.append_nil]
  rw [hlist, List.drop_left' hprefix, hdigits, Text.ofDigits_digits]

theorem IsNumbered.unique {number number' : ℕ} {name : String} (h : IsNumbered number name)
    (h' : IsNumbered number' name) : number = number' :=
  h.ofDigits_eq.symm.trans h'.ofDigits_eq

/-! ## What a reading announces -/

/-- **A run that opens a section in front of each move**, from a window to a last one. When a move
fails, its section is the last. -/
structure Announces {α : Type} (w : Window) (p q : Progress) (r : Except ModelError α)
    (windows : List Window) (last : Window) (missed : Option WindowError) : Prop where
  trail : w.Trail windows last
  opens : p.Opens (windows.map titleOf ++ missed.toList.map fun _ => windowLine last) q
  of_missed : ∀ e ∈ missed, last.isDue = true ∧ last.advance.2 = .error e ∧
    r = .error (.window e)

variable {plan : Plan} {p : Progress} {layerSize : ℕ}

/-- A run that stops where it is announces nothing. -/
theorem announces_of_opens {α : Type} {q : Progress} (h : p.Opens [] q)
    (r : Except ModelError α) : Announces w p q r [] w none :=
  ⟨.stop w, h, fun _ he => by cases he⟩

section

variable {α β : Type} {q q' : Progress} {w' : Window} {windows' : List Window}
  {r : Except ModelError α} {r' : Except ModelError β} {missed : Option WindowError}

/-- A run goes on behind another in which no move failed. -/
theorem Announces.trans (h : Announces w p q r windows w' none)
    (h' : Announces w' q q' r' windows' last missed) :
    Announces w p q' r' (windows ++ windows') last missed := by
  refine ⟨h.trail.append h'.trail, ?_, h'.of_missed⟩
  have hopens := h.opens.trans h'.opens
  simpa only [Option.toList_none, List.map_nil, List.append_nil, List.map_append,
    List.append_assoc] using hopens

/-- Reads and reports that open no section may come first. -/
theorem Announces.of_after {read : Window.Read}
    (h : Announces (w.after read) q q' r windows last missed) (hq : p.Opens [] q) :
    Announces w p q' r windows last missed :=
  ⟨.read read h.trail, hq.trans h.opens, h.of_missed⟩

/-- What becomes of the result has no part in it, but for failures. -/
theorem Announces.of_result (h : Announces w p q r windows last missed)
    (hr : ∀ e, r = .error e → r' = .error e) : Announces w p q r' windows last missed :=
  ⟨h.trail, h.opens, fun e he =>
    have hmissed := h.of_missed e he
    ⟨hmissed.1, hmissed.2.1, hr _ hmissed.2.2⟩⟩

end

/-- A record is read by two reads. -/
theorem exists_reads_of_readRecord_eq_ok {record : Record} {w' : Window}
    (h : readRecord plan layerSize w = .ok (record, w')) :
    ∃ r r' : Window.Read, w' = (w.after r).after r' := by
  obtain ⟨⟨token, w₁⟩, htoken, h⟩ := exists_of_bind_eq_ok h
  obtain ⟨word, -, h⟩ := exists_of_bind_eq_ok h
  obtain ⟨⟨floats, w₂⟩, hfloats, h⟩ := exists_of_bind_eq_ok h
  obtain ⟨-, rfl⟩ := Prod.mk.inj (Except.ok.inj h)
  refine ⟨.token, .floats layerSize plan.order, ?_⟩
  have hafter : w.after .token = w₁ := by
    rw [Window.after, Window.read, eq_ok_of_mapError_eq_ok htoken]
    rfl
  rw [hafter, Window.after, Window.read, eq_ok_of_mapError_eq_ok hfloats]
  rfl

/-- **One step**: a move is announced with what it comes to. -/
theorem moveOn_announces (hlt : w.stride < w.limit) (hp : p.sink.isSome) :
    ∃ windows last missed,
      Announces w p (moveOn w p).1 (moveOn w p).2 windows last missed ∧
      ∀ w', (moveOn w p).2 = .ok w' → w' = last ∧ missed = none := by
  by_cases hdue : w.isDue = true
  · have hopens := Progress.opens_restart hp (windowLine w)
    rcases hmove : w.advance with ⟨next, e | ⟨⟩⟩
    · refine ⟨[], w, some e, ⟨.stop w, ?_, ?_⟩, ?_⟩
      · simp only [moveOn, if_pos hdue, hmove]
        exact hopens
      · intro e' he
        obtain rfl := Option.some.inj he
        refine ⟨hdue, congrArg Prod.snd hmove, ?_⟩
        simp only [moveOn, if_pos hdue, hmove]
      · intro w' hw'
        simp only [moveOn, if_pos hdue, hmove, reduceCtorEq] at hw'
    · have htitle := windowLine_of_advance hlt hmove
      refine ⟨[next], next, none, ⟨.move hdue hmove (.stop next), ?_, fun _ he => by cases he⟩, ?_⟩
      · simp only [moveOn, if_pos hdue, hmove]
        simpa only [List.map_cons, List.map_nil, Option.toList_none, List.append_nil, ← htitle]
          using hopens
      · intro w' hw'
        simp only [moveOn, if_pos hdue, hmove, Except.ok.injEq] at hw'
        exact ⟨hw'.symm, rfl⟩
  · have hstay : moveOn w p = (p, .ok w) := by rw [moveOn, if_neg hdue]
    rw [hstay]
    exact ⟨[], w, none, announces_of_opens (.refl p) _, fun _ h =>
      ⟨(Except.ok.inj h).symm, rfl⟩⟩

/-- **Records are read with a section in front of each move.** -/
theorem readRecords_announces (plan : Plan) (hlt : w.stride < w.limit) (hp : p.sink.isSome)
    (vocabSize layerSize count : ℕ) :
    ∃ windows last missed,
      Announces w p (readRecords plan vocabSize layerSize count w p).1
        (readRecords plan vocabSize layerSize count w p).2 windows last missed ∧
      ∀ records w', (readRecords plan vocabSize layerSize count w p).2 = .ok (records, w') →
        w' = last ∧ missed = none := by
  -- By induction on the records: those that are left are read from the window behind the move.
  induction count generalizing w p with
  | zero =>
    exact ⟨[], w, none, announces_of_opens (.refl p) _, fun _ _ h =>
      ⟨(Prod.mk.inj (Except.ok.inj h)).2.symm, rfl⟩⟩
  | succ count ih =>
    simp only [readRecords]
    rcases hrecord : readRecord plan layerSize w with e | ⟨record, w₁⟩
    · exact ⟨[], w, none, announces_of_opens (.refl p) _, fun _ _ h => by cases h⟩
    · obtain ⟨first, second, rfl⟩ := exists_reads_of_readRecord_eq_ok hrecord
      obtain ⟨_, hfirst⟩ := w.exists_after first
      obtain ⟨_, hsecond⟩ := (w.after first).exists_after second
      have hlt₁ : ((w.after first).after second).stride < ((w.after first).after second).limit := by
        rwa [hsecond, hfirst]
      dsimp only
      generalize hnoted : (if plan.reportDue (vocabSize - count) = true then
        p.note (loadedLine (vocabSize - count) vocabSize) else p) = q
      have hq : p.Opens [] q := by
        rw [← hnoted]
        split
        · exact Progress.opens_of_isNote hp (isNote_loadedLine _ _)
        · exact .refl p
      obtain ⟨windows, last, missed, hmove, hmoved⟩ := moveOn_announces hlt₁ (hq.sink ▸ hp)
      have hmove := (hmove.of_after (.refl q)).of_after hq
      rcases hresult : moveOn ((w.after first).after second) q with ⟨q₁, e | w₂⟩
      · rw [hresult] at hmove
        exact ⟨windows, last, missed, hmove.of_result fun _ h => congrArg _ (Except.error.inj h),
          fun _ _ h => by cases h⟩
      · rw [hresult] at hmove hmoved
        obtain ⟨rfl, rfl⟩ := hmoved w₂ rfl
        obtain ⟨-, hlimit, hstride⟩ := hmove.trail.same
        have hlt₂ : w₂.stride < w₂.limit := by rwa [hlimit, hstride]
        obtain ⟨windows', last', missed', hrest, hread⟩ := ih hlt₂ (hmove.opens.sink ▸ hp)
        have hall := hmove.trans hrest
        dsimp only
        rcases hresult' : readRecords plan vocabSize layerSize count w₂ q₁ with
          ⟨q₂, e | ⟨records, w₃⟩⟩
        · rw [hresult'] at hall
          exact ⟨_, last', missed', hall.of_result fun _ h => h, fun _ _ h => by cases h⟩
        · rw [hresult'] at hall hread
          obtain ⟨rfl, rfl⟩ := hread records w₃ rfl
          dsimp only at hall ⊢
          refine ⟨_, w₃, none, hall.of_result fun _ h => (by cases h), fun _ _ h => ?_⟩
          exact ⟨(Prod.mk.inj (Except.ok.inj h)).2.symm, rfl⟩

theorem ofReading_of_error {perSegment : ℕ} {e : ModelError}
    {r : Progress × Except ModelError (List Record × Window)} (h : r.2 = .error e) :
    (ofReading layerSize perSegment r).2 = .error e := by
  obtain ⟨q, r⟩ := r
  obtain rfl : r = .error e := h
  rfl

theorem exists_window_of_ofReading {perSegment : ℕ} {decoded : Decoded}
    {r : Progress × Except ModelError (List Record × Window)}
    (h : (ofReading layerSize perSegment r).2 = .ok decoded) :
    ∃ records w', r.2 = .ok (records, w') ∧
      storeOf layerSize perSegment records = .ok decoded.store ∧ decoded.moves = w'.moves := by
  obtain ⟨q, e | ⟨records, w'⟩⟩ := r
  · cases h
  · simp only [ofReading] at h
    split at h
    · cases h
    · next store hstore =>
      obtain rfl := Except.ok.inj h
      exact ⟨records, w', rfl, hstore, rfl⟩

/-- **So is the model behind the first line.** A model that was read tells how many windows there
were. -/
theorem decodeFrom_announces [Memory] (plan : Plan) (hlt : w.stride < w.limit) (hp : p.sink.isSome)
    (file : String) :
    ∃ windows last missed,
      Announces w p (decodeFrom plan file w p).1 (decodeFrom plan file w p).2 windows last missed ∧
      ∀ decoded, (decodeFrom plan file w p).2 = .ok decoded →
        decoded.moves = w.moves + windows.length := by
  simp only [decodeFrom]
  split
  · exact ⟨[], w, none, announces_of_opens (.refl p) _, fun _ h => by cases h⟩
  · next line w₁ hline =>
    have hafter : w.after (.until [Window.newline] "header") = w₁ := by
      rw [Window.after, Window.read, hline]
      rfl
    subst hafter
    split
    · exact ⟨[], w, none, announces_of_opens (.refl p) _, fun _ h => by cases h⟩
    · next vocabSize layerSize hheader =>
      have hnote := Progress.opens_of_isNote hp (isNote_sizesLine vocabSize layerSize)
      split
      · exact ⟨[], w, none, announces_of_opens hnote _, fun _ h => by cases h⟩
      · next perSegment hper =>
        split
        · exact ⟨[], w, none, announces_of_opens hnote _, fun _ h => by cases h⟩
        · obtain ⟨_, hsame⟩ := w.exists_after (.until [Window.newline] "header")
          have hlt₁ : (w.after (.until [Window.newline] "header")).stride <
              (w.after (.until [Window.newline] "header")).limit := by rwa [hsame]
          obtain ⟨windows, last, missed, hrecords, hread⟩ :=
            readRecords_announces plan hlt₁ (hnote.sink ▸ hp) vocabSize layerSize vocabSize
          have hall := hrecords.of_after hnote
          refine ⟨windows, last, missed, ?_, ?_⟩
          · rw [ofReading_fst]
            exact hall.of_result fun _ => ofReading_of_error
          · intro decoded hdecoded
            obtain ⟨records, w', hresult, -, hmoves⟩ := exists_window_of_ofReading hdecoded
            obtain ⟨rfl, rfl⟩ := hread records w' hresult
            rw [hmoves, hall.trail.moves_last]

/-! ## How often a window is moved -/

/-- How often a window is moved behind records of the given sizes, when the first starts at
`position` in it. -/
def moveCount (stride : Int) : (position : Int) → (sizes : List ℕ) → ℕ
  | _, [] => 0
  | position, size :: sizes =>
    (if stride < position + size then 1 else 0) +
      moveCount stride (settle stride (position + size)) sizes

theorem moves_of_moveOn (h : w.Sound) (p : Progress) :
    ∃ q w', moveOn w p = (q, .ok w') ∧ w'.Sound ∧ w'.left = w.left ∧ w'.stride = w.stride ∧
      w'.position = settle w.stride w.position ∧
      w'.moves = w.moves + if w.stride < w.position then 1 else 0 := by
  by_cases hdue : w.isDue = true
  · obtain ⟨w', hadvance, hsound, hfile, -, hstride, hplace, hposition, hmoves⟩ :=
      Window.advance_of_isDue h hdue
    have hlt : w.stride < w.position := by simpa [Window.isDue] using hdue
    refine ⟨p.restart (windowLine w), w', ?_, hsound, ?_, hstride, ?_, ?_⟩
    · simp only [moveOn, if_pos hdue, hadvance]
    · rw [Window.left, Window.left, hfile, hplace]
    · rw [hposition, settle, if_pos hlt]
    · rw [hmoves, if_pos hlt]
  · have hle : ¬ w.stride < w.position := by simpa [Window.isDue] using hdue
    refine ⟨p, w, by rw [moveOn, if_neg hdue], h, rfl, rfl, ?_, ?_⟩
    · rw [settle, if_neg hle]
    · rw [if_neg hle, Nat.add_zero]

theorem moves_of_readRecords_eq_ok (h : w.Sound) {vocabSize count : ℕ} {records : List Record}
    {w' : Window}
    (hread : (readRecords plan vocabSize layerSize count w p).2 = .ok (records, w')) :
    w'.moves = w.moves + moveCount w.stride w.position (recordSizes layerSize count w.left) := by
  induction count generalizing w p records with
  | zero =>
    obtain ⟨-, rfl⟩ := Prod.mk.inj (Except.ok.inj hread)
    rfl
  | succ count ih =>
    rcases readRecord_cases plan layerSize h with
      ⟨record, size, hin, hreach, hrecord⟩ | ⟨e, -, hrecord⟩ | ⟨-, ⟨wanted, i, j, k, hrecord⟩, -⟩
    · simp only [readRecords, hrecord] at hread
      revert hread
      generalize (if plan.reportDue (vocabSize - count) = true then
        p.note (loadedLine (vocabSize - count) vocabSize) else p) = q
      intro hread
      obtain ⟨q', w₂, hmove, hsound, hleft, hstride, hposition, hmoves⟩ :=
        moves_of_moveOn (h.forward hreach) q
      rw [hmove] at hread
      dsimp only at hread
      split at hread
      · cases hread
      · next q'' rest w₃ hrest =>
        obtain ⟨-, rfl⟩ := Prod.mk.inj (Except.ok.inj hread)
        obtain ⟨hsize, -⟩ := recordIn_eq_ok hin
        have hcount := ih hsound (congrArg Prod.snd hrest)
        rw [hcount, hmoves, hstride, hposition, hleft, h.left_forward, Window.forward_moves,
          Window.forward_stride, Window.forward_position, recordSizes, moveCount, hsize,
          Nat.add_assoc]
    · simp only [readRecords, hrecord, reduceCtorEq] at hread
    · simp only [readRecords, hrecord, reduceCtorEq] at hread

/-- **A window is moved behind each record that ends behind a stride.** -/
theorem moves_of_decode_eq_ok [Memory] (hplan : plan.Admissible) {file : String} {content : Bytes}
    {decoded : Decoded} (hread : (decode plan file content p).2 = .ok decoded) :
    decoded.moves = moveCount plan.stride (lineSize content)
      (recordSizes decoded.store.layerSize decoded.store.vocabSize
        (content.drop (lineSize content))) := by
  have hne : content ≠ [] := by
    rintro rfl
    cases hread
  obtain ⟨w, q, hsound, hfile, -, hstride, hposition, hoffset, hmoves, hdecode⟩ :=
    decode_of_ne_nil hplan hne file p
  have hleft : w.left = content := by
    rw [Window.left, Window.filePosition, hposition, hoffset, hfile]
    rfl
  rw [hdecode] at hread
  simp only [decodeFrom] at hread
  split at hread
  · cases hread
  · next line w₁ hline =>
    obtain ⟨hmem, -, rfl⟩ :=
      Window.of_readUntil_eq_ok ⟨hsound.offset_eq, hsound.position_nonneg⟩ hline
    have hbehind := hsound.forward
      (Nat.succ_le_of_lt ((Bytes.mem_take_iff (List.mem_of_mem_take hmem) w.reach).1 hmem))
    split at hread
    · cases hread
    · split at hread
      · cases hread
      · split at hread
        · cases hread
        · obtain ⟨records, w', hrecords, hstore, hend⟩ := exists_window_of_ofReading hread
          obtain ⟨hcount, -⟩ :=
            of_readRecords_eq_ok ⟨hbehind.offset_eq, hbehind.position_nonneg⟩ hrecords
          obtain ⟨hvocab, hlayer⟩ := of_storeOf_eq_ok hstore
          have hall := moves_of_readRecords_eq_ok hbehind hrecords
          rw [hend, hall, Store.vocabSize, hvocab, List.length_map, hcount, hlayer]
          simp only [lineSize, Nat.succ_eq_add_one, hsound.left_forward, hleft,
            Window.forward_moves, Window.forward_stride, Window.forward_position, hmoves, hstride,
            hposition, Nat.zero_add, Int.zero_add]

/-- A written model whose records end in their windows is read with as many moves. -/
theorem exists_decode_octets [Memory] (hplan : plan.Admissible) (horder : plan.order = .little)
    {store : Store} (hlong : store.isTooLong = false)
    (hcapacity : (store.layerSize : Int) ≤ plan.capacity)
    (hroom : Memory.HoldsSegments store.vocabSize store.layerSize plan.capacity)
    (hwords : ∀ word ∈ store.vocab, IsToken word)
    (hline : (lineSize (octets store) : Int) ≤ plan.limit)
    (hkeeps : KeepsUp plan.stride plan.limit (lineSize (octets store))
      (writtenSizes store.layerSize 0 store.vocab)) (file : String) (p : Progress) :
    ∃ decoded, (decode plan file (octets store) p).2 = .ok decoded ∧
      decoded.moves = moveCount plan.stride (lineSize (octets store))
        (writtenSizes store.layerSize 0 store.vocab) := by
  obtain ⟨read, hread, hvocab, hlayer⟩ :=
    decode_whole_octets plan horder hlong hcapacity hroom hwords file p
  rw [outcome_decode_whole plan (List.ne_nil_of_mem (newline_mem_octets store))] at hread
  rcases outcome_decode_cases hplan (fun _ => hline) file p with ⟨heq, -⟩ | ⟨-, -, hnot⟩
  · obtain ⟨decoded, hdecoded, rfl⟩ := exists_of_map_eq_ok (heq.trans hread)
    refine ⟨decoded, hdecoded, ?_⟩
    rw [moves_of_decode_eq_ok hplan hdecoded, hlayer, Store.vocabSize, hvocab, ← Store.vocabSize,
      recordSizes_octets hwords]
  · exact absurd ((keepsUpWith_octets hwords hvocab hlayer).2 hkeeps) (hnot read hread)

/-! ## The sections of a reading -/

/-- **The sections that a reading opens**: one around it, one for the first window, and one in front
of each move. -/
theorem decode_opens [Memory] {content : Bytes} {first : Window}
    (hopen : Window.ofFile content plan.limit plan.stride = .ok first) (file : String)
    (hp : p.sink.isSome) :
    ∃ (windows : List Window) (last : Window) (missed : Option WindowError),
      first.Trail windows last ∧
      p.Opens ("Loading vectors from bin file" :: "Reading gigabyte #1" ::
        (windows.map titleOf ++ missed.toList.map fun _ => windowLine last))
          (decode plan file content p).1 ∧
      (∀ e ∈ missed, last.isDue = true ∧ last.advance.2 = .error e ∧
        (decode plan file content p).2 = .error (.window e)) ∧
      ∀ decoded, (decode plan file content p).2 = .ok decoded →
        decoded.moves = windows.length := by
  obtain ⟨-, hlt, -, hlimit, hstride, -, -, hmoves⟩ := Window.front_of_ofFile_eq_ok hopen
  rw [← hlimit, ← hstride] at hlt
  have houter := Progress.opens_start hp "Loading vectors from bin file"
  have hinner := Progress.opens_start (houter.sink ▸ hp) "Reading gigabyte #1"
  obtain ⟨windows, last, missed, hall, hcount⟩ :=
    decodeFrom_announces plan hlt (hinner.sink ▸ houter.sink ▸ hp) file
  rw [hmoves, Nat.zero_add] at hcount
  rw [decode_of_ofFile_eq_ok hopen]
  exact ⟨windows, last, missed, hall.trail,
    Progress.opens_within hp (Progress.opens_within (houter.sink ▸ hp) hall.opens),
    hall.of_missed, hcount⟩

/-- A window with a positive stride is moved whenever that is due. -/
theorem nonpos_of_missed {content : Bytes} {first : Window} {e : WindowError}
    (hopen : Window.ofFile content plan.limit plan.stride = .ok first)
    (htrail : first.Trail windows last) (hdue : last.isDue = true)
    (he : last.advance.2 = .error e) : plan.stride ≤ 0 := by
  by_contra hpos
  obtain ⟨hgranular, hlt, -⟩ := Window.front_of_ofFile_eq_ok hopen
  obtain ⟨w, hw, hsound, -⟩ := Window.ofFile_of_admissible (Window.ne_nil_of_ofFile_eq_ok hopen)
    (Int.not_le.1 hpos) hgranular hlt
  obtain rfl := Except.ok.inj (hw.symm.trans hopen)
  obtain ⟨next, hnext, -⟩ := Window.advance_of_isDue (htrail.sound hsound) hdue
  rw [hnext] at he
  cases he

/-- The sections of the first window and of the moves are numbered in order only if there is no
move: the section in front of the first move has the number of the section before it. -/
theorem isNumbered_iff {missed : Option WindowError} (hlast : last.moves = windows.length) :
    (∀ i name, ("Reading gigabyte #1" ::
        ((windows.mapIdx fun i w => windowName (i + 1) w.offset w.size) ++
          missed.toList.map fun _ => windowLine last))[i]? = some name →
      IsNumbered (i + 1) name) ↔ windows = [] ∧ missed = none := by
  have hfirst : IsNumbered 1 "Reading gigabyte #1" := .inl rfl
  constructor
  · intro hall
    cases windows with
    | cons next windows =>
      have htwo := hall 1 (windowName 1 next.offset next.size) (by simp)
      have hone : IsNumbered 1 (windowName 1 next.offset next.size) := .inr ⟨_, _, rfl⟩
      cases htwo.unique hone
    | nil =>
      cases missed with
      | none => exact ⟨rfl, rfl⟩
      | some e =>
        have htwo := hall 1 (windowLine last) rfl
        have hone : IsNumbered (last.moves + 1) (windowLine last) := .inr ⟨_, _, rfl⟩
        rw [hlast] at hone
        cases htwo.unique hone
  · rintro ⟨rfl, rfl⟩ i name hname
    cases i with
    | zero =>
      obtain rfl := Option.some.inj hname
      exact hfirst
    | succ i => cases hname

/-- **The sections of a reading and the windows that they tell of.** The section in front of a move
tells the start and the size of the window to which the move comes, and as its number how many moves
there were with it. A move that fails, which only one with a stride that is not positive does, ends
the reading. So the sections, of which the first is that of the window at the front, are numbered in
order exactly if there is no move; else the first two have the same number. -/
theorem decode_announcements [Memory] {plan : Plan} {content : Bytes} {first : Window}
    (hopen : Window.ofFile content plan.limit plan.stride = .ok first) (file : String)
    {p : Progress} (hp : p.sink.isSome) :
    let result := decode plan file content p
    ∃ (windows : List Window) (last : Window) (missed : Option WindowError) (lines : List String),
      let sections := "Reading gigabyte #1" ::
        ((windows.mapIdx fun i w => windowName (i + 1) w.offset w.size) ++
          missed.toList.map fun _ => windowLine last)
      first.Trail windows last ∧
      result.1.attempted.toList = p.attempted.toList ++ lines ∧
      Progress.announced lines = "Loading vectors from bin file" :: sections ∧
      (∀ e ∈ missed, plan.stride ≤ 0 ∧ last.advance.2 = .error e ∧
        result.2 = .error (.window e)) ∧
      (∀ decoded, result.2 = .ok decoded → decoded.moves = windows.length) ∧
      ((∀ i name, sections[i]? = some name → IsNumbered (i + 1) name) ↔
        windows = [] ∧ missed = none) := by
  intro result
  obtain ⟨windows, last, missed, htrail, hopens, hmissed, hcount⟩ := decode_opens hopen file hp
  obtain ⟨-, -, -, -, -, -, -, hmoves⟩ := Window.front_of_ofFile_eq_ok hopen
  obtain ⟨lines, hlines, hnames⟩ := hopens.lines
  have htitles := map_titleOf htrail
  have hlast := htrail.moves_last
  simp only [hmoves, Nat.zero_add] at htitles hlast
  rw [htitles] at hnames
  refine ⟨windows, last, missed, lines, htrail, hlines, hnames, fun e he => ?_, hcount,
    isNumbered_iff hlast⟩
  obtain ⟨hdue, hadvance, hresult⟩ := hmissed e he
  exact ⟨nonpos_of_missed hopen htrail hdue hadvance, hadvance, hresult⟩

/-! ### A file with one move -/

/-- A model of one vector that is longer than a stride of 4096 octets. -/
def longVector : Store :=
  ⟨["a"], 1025, 1, [List.replicate 1025 .zero], by decide,
    Layout.fault?_eq_none_iff.1 (by decide +kernel)⟩

/-- A plan with windows of two strides of 4096 octets. -/
def twoStrides : Plan := ⟨.little, 1025, 4096, 8192, .strict, fun _ => false⟩

/-- The window is moved behind the vector, where the file is at its end. -/
theorem exists_decode_longVector (p : Progress) :
    letI : Memory := .ample
    ∃ first decoded,
      Window.ofFile (octets longVector) twoStrides.limit twoStrides.stride = .ok first ∧
      (decode twoStrides "model" (octets longVector) p).2 = .ok decoded ∧ decoded.moves = 1 := by
  let memory : Memory := .ample
  have hplan : twoStrides.Admissible := ⟨by decide, by decide, by decide⟩
  have hlong : longVector.isTooLong = false := by decide +kernel
  have hwords : ∀ word ∈ longVector.vocab, IsToken word := by decide
  have hline : lineSize (octets longVector) = 7 := by
    have hvocab : longVector.vocabSize = 1 := rfl
    have hlayer : longVector.layerSize = 1025 := rfl
    rw [lineSize_octets_eq, hvocab, hlayer]
    simp [Text.digits]
  have hsizes : writtenSizes longVector.layerSize 0 longVector.vocab = [4102] := by decide
  obtain ⟨decoded, hdecoded, hmoves⟩ := exists_decode_octets hplan rfl hlong (by decide)
    (by decide) hwords (by rw [hline]; decide) (by rw [hline, hsizes]; decide) "model" p
  rw [hline, hsizes] at hmoves
  obtain ⟨first, hopen, -⟩ := Window.ofFile_of_admissible
    (List.ne_nil_of_mem (newline_mem_octets longVector)) hplan.stride_pos hplan.stride_granular
    hplan.stride_lt
  exact ⟨first, decoded, hopen, hdecoded, hmoves⟩

/-- The section in front of the only move tells where it comes to. -/
theorem decode_announcements_once :
    letI : Memory := .ample
    ∃ first next last,
      Window.ofFile (octets longVector) twoStrides.limit twoStrides.stride = .ok first ∧
      first.Trail [next] last ∧
      Progress.announced
          (decode twoStrides "model" (octets longVector) (.ofSink .all)).1.attempted.toList =
        ["Loading vectors from bin file", "Reading gigabyte #1",
          windowName 1 next.offset next.size] := by
  let memory : Memory := .ample
  obtain ⟨first, decoded, hopen, hdecoded, hmoves⟩ := exists_decode_longVector (.ofSink .all)
  obtain ⟨windows, last, missed, lines, htrail, hlines, hnames, hmissed, hcount, -⟩ :=
    decode_announcements hopen "model" (p := .ofSink .all) rfl
  obtain ⟨next, rfl⟩ : ∃ next, windows = [next] :=
    List.length_eq_one_iff.1 ((hcount decoded hdecoded).symm.trans hmoves)
  obtain rfl : missed = none := by
    refine Option.eq_none_iff_forall_not_mem.2 fun e he => ?_
    exact absurd (hmissed e he).1 (by decide)
  refine ⟨first, next, last, hopen, htrail, ?_⟩
  rw [hlines]
  exact hnames

/-- **The first two sections have the same number**: the one that is opened in front of the first
move should be the second. -/
theorem decode_announcements_twice :
    letI : Memory := .ample
    ∃ name, Progress.announced
          (decode twoStrides "model" (octets longVector) (.ofSink .all)).1.attempted.toList =
        ["Loading vectors from bin file", "Reading gigabyte #1", name] ∧
      IsNumbered 1 name ∧ ¬ IsNumbered 2 name := by
  let memory : Memory := .ample
  obtain ⟨first, decoded, hopen, hdecoded, hmoves⟩ := exists_decode_longVector (.ofSink .all)
  obtain ⟨windows, last, missed, htrail, hopens, hmissed, hcount⟩ :=
    decode_opens hopen "model" (p := .ofSink .all) rfl
  obtain ⟨next, rfl⟩ : ∃ next, windows = [next] :=
    List.length_eq_one_iff.1 ((hcount decoded hdecoded).symm.trans hmoves)
  obtain rfl : missed = none := by
    refine Option.eq_none_iff_forall_not_mem.2 fun e he => ?_
    rw [(hmissed e he).2.2] at hdecoded
    cases hdecoded
  obtain ⟨-, -, -, -, -, -, -, hfront⟩ := Window.front_of_ofFile_eq_ok hopen
  have htitles := map_titleOf htrail
  simp only [hfront] at htitles
  obtain ⟨lines, hlines, hnames⟩ := hopens.lines
  rw [htitles] at hnames
  have hone : IsNumbered 1 (windowName 1 next.offset next.size) := .inr ⟨_, _, rfl⟩
  refine ⟨windowName 1 next.offset next.size, ?_, hone, fun htwo => ?_⟩
  · rw [hlines]
    exact hnames
  · cases htwo.unique hone

end Binary

end WordVectors
