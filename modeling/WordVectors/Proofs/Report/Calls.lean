import WordVectors.Proofs.Report.Nesting
import WordVectors.Report.Calls

/-!
# Calls of a timer and its messages

A timer keeps a stack of the open sections. What it says can be told without one: a call that closes
a section ends the one that the messages so far leave unfinished and that was started last. Timers
that report to any sink say the same, so that what becomes of the lines is not seen in the calls.

## Main definitions

* `Progress.Message`: a message, told apart by what it is about and not by its text
* `Progress.unfinished`: the sections that messages leave unfinished
* `Progress.Closed`, `Progress.Pending`: messages in which all sections are closed, and messages
  that leave some open
* `Progress.messages`: what a timer says in the course of calls

## Main results

* `Progress.Nested.messages`: in the messages of calls every end is that of the section that was
  started last
* `Progress.Tells.after`: a timer attempts the messages of its calls and has open what they leave
  unfinished
* `Progress.calls_nested`: a timer is a stack of sections, whatever becomes of its lines
-/

namespace WordVectors.Progress

/-! ## Messages -/

/-- **A message of a timer.** A note is one whatever its text reads like. -/
inductive Message where
  /-- A section is started. -/
  | started (name : String)
  /-- A section is finished. -/
  | finished (name : String)
  /-- A line that was to be written. -/
  | note (line : String)
deriving DecidableEq

namespace Message

/-- The line of a message. -/
def line : Message → String
  | started name => startedLine name
  | finished name => finishedLine name
  | note line => line

/-- Whether a section is started. -/
def isStarted : Message → Bool
  | started _ => true
  | _ => false

/-- Whether a section is finished. -/
def isFinished : Message → Bool
  | finished _ => true
  | _ => false

/-- The unfinished sections, innermost first, after one more message. -/
def turn (sections : List String) : Message → List String
  | started name => name :: sections
  | finished _ => sections.tail
  | note _ => sections

end Message

open Message

/-- **The sections that messages leave unfinished**, innermost first. -/
def unfinished (said : List Message) : List String := said.foldl turn []

@[simp] theorem unfinished_concat (said : List Message) (m : Message) :
    unfinished (said ++ [m]) = m.turn (unfinished said) := by
  simp [unfinished]

/-- **Messages in which sections are closed**: whatever is started is finished, under its own name
and after what was started inside it, and nothing else is. -/
inductive Closed : List Message → Prop
  | nil : Closed []
  | note {said : List Message} (line : String) (h : Closed said) : Closed (said ++ [.note line])
  | block {said inner : List Message} (name : String) (h : Closed said) (hinner : Closed inner) :
      Closed (said ++ .started name :: inner ++ [.finished name])

/-- **Messages that leave sections open**: before, between and after the messages that start these
sections, all others are closed. -/
inductive Pending : (said : List Message) → (sections : List String) → Prop
  | closed {said : List Message} (h : Closed said) : Pending said []
  | started {before between : List Message} {sections : List String} (name : String)
      (h : Pending before sections) (hbetween : Closed between) :
      Pending (before ++ .started name :: between) (name :: sections)

/-- The section that was started last and is not finished. -/
theorem Pending.exists_started {said : List Message} {name : String} {sections : List String}
    (h : Pending said (name :: sections)) :
    ∃ before between, said = before ++ .started name :: between ∧ Closed between := by
  cases h with
  | started _ _ hbetween => exact ⟨_, _, rfl, hbetween⟩

namespace Pending

variable {said : List Message} {sections : List String} {name : String}

theorem start (h : Pending said sections) (name : String) :
    Pending (said ++ [.started name]) (name :: sections) :=
  .started name h .nil

theorem note (h : Pending said sections) (line : String) :
    Pending (said ++ [.note line]) sections := by
  cases h with
  | closed h => exact .closed (.note line h)
  | started name h hbetween =>
    rw [List.append_assoc, List.cons_append]
    exact .started name h (.note line hbetween)

/-- With the innermost section its messages become part of what lies around it. -/
theorem finish (h : Pending said (name :: sections)) :
    Pending (said ++ [.finished name]) sections := by
  cases h with
  | @started before between _ _ h hbetween =>
    cases h with
    | closed h => exact .closed (.block name h hbetween)
    | @started before' between' _ outer h hbetween' =>
      have hblock := Closed.block name hbetween' hbetween
      have heq : before' ++ .started outer :: between' ++ .started name :: between ++
          [.finished name] =
            before' ++ .started outer :: (between' ++ .started name :: between ++
              [.finished name]) := by
        simp only [List.append_assoc, List.cons_append]
      rw [heq]
      exact .started outer h hblock

end Pending

/-! ### Numbers of messages -/

theorem Closed.countP_eq {said : List Message} (h : Closed said) :
    said.countP isStarted = said.countP isFinished := by
  induction h with
  | nil => rfl
  | note line _ ih => simp [isStarted, isFinished, ih]
  | block name _ _ ih ihinner =>
    simp only [List.countP_append, List.countP_cons, isStarted, isFinished, ih, ihinner]
    simp [Nat.add_assoc]

/-- As many sections are open as were started more than finished. -/
theorem Pending.countP_eq {said : List Message} {sections : List String}
    (h : Pending said sections) :
    said.countP isStarted = said.countP isFinished + sections.length := by
  induction h with
  | closed h => exact h.countP_eq
  | started name _ hbetween ih =>
    simp only [List.countP_append, List.countP_cons, isStarted, isFinished, ih, hbetween.countP_eq,
      List.length_cons]
    simp
    omega

/-! ## Messages of calls -/

/-- The name that a template gives to a section. A name without arguments is taken as it is. -/
def sectionName (template : String) (args : List Value) : Except TemplateError String :=
  if args.isEmpty then .ok template else Template.fill template args

/-- What is said when a section is to be opened. -/
def opening (template : String) (args : List Value) : List Message :=
  match sectionName template args with
  | .ok name => [.started name]
  | .error _ => []

/-- What is said when the innermost section is closed. -/
def closing : (sections : List String) → List Message
  | [] => []
  | name :: _ => [.finished name]

/-- **What is said in a call** while these sections are unfinished. -/
def Call.messages (sections : List String) : Call → List Message
  | .start template args => opening template args
  | .finish => closing sections
  | .restart template args => closing sections ++ opening template args
  | .note line => [.note line]
  | .leave => closing sections

/-- The messages so far with those of one more call. -/
def tell (said : List Message) (c : Call) : List Message := said ++ c.messages (unfinished said)

/-- **What a timer says in the course of calls.** -/
def messages (calls : List Call) : List Message := calls.foldl tell []

/-! ### Nesting -/

/-- **Messages in which every end is that of the section that was started last** and is not
finished. -/
structure Nested (said : List Message) : Prop where
  pending : Pending said (unfinished said)
  /-- What is finished was started before, and all that was started since then is closed. -/
  ends : ∀ earlier name later, said = earlier ++ .finished name :: later →
    ∃ before between, earlier = before ++ .started name :: between ∧ Closed between

namespace Nested

variable {said : List Message}

theorem nil : Nested [] where
  pending := .closed .nil
  ends earlier name later heq := by simp at heq

/-- One more message keeps what was said of the ends before it. -/
theorem concat (h : Nested said) {m : Message}
    (hpending : Pending (said ++ [m]) (m.turn (unfinished said)))
    (hend : ∀ name, m = .finished name →
      ∃ before between, said = before ++ .started name :: between ∧ Closed between) :
    Nested (said ++ [m]) where
  pending := by rwa [unfinished_concat]
  ends earlier name later heq := by
    rcases List.eq_nil_or_concat later with rfl | ⟨later, last, rfl⟩
    · obtain ⟨rfl, hlast⟩ := List.append_inj' heq rfl
      exact hend name (List.cons.inj hlast).1
    · rw [List.concat_eq_append, ← List.cons_append, ← List.append_assoc] at heq
      exact h.ends earlier name later (List.append_inj' heq rfl).1

theorem opening (h : Nested said) (template : String) (args : List Value) :
    Nested (said ++ Progress.opening template args) := by
  unfold Progress.opening
  split
  · next name _ => exact h.concat (h.pending.start name) (fun _ heq => by cases heq)
  · rwa [List.append_nil]

theorem note (h : Nested said) (line : String) : Nested (said ++ [.note line]) :=
  h.concat (h.pending.note line) (fun _ heq => by cases heq)

theorem closing (h : Nested said) : Nested (said ++ Progress.closing (unfinished said)) := by
  rcases hsections : unfinished said with _ | ⟨name, sections⟩
  · rwa [Progress.closing, List.append_nil]
  · have hpending := h.pending
    rw [hsections] at hpending
    refine h.concat ?_ ?_
    · rw [hsections]
      exact hpending.finish
    · rintro _ ⟨⟩
      exact hpending.exists_started

/-- **A call keeps the messages nested.** -/
theorem tell (h : Nested said) (c : Call) : Nested (Progress.tell said c) := by
  cases c with
  | start template args => exact h.opening template args
  | finish => exact h.closing
  | restart template args =>
    rw [Progress.tell, Call.messages, ← List.append_assoc]
    exact h.closing.opening template args
  | note line => exact h.note line
  | leave => exact h.closing

/-- **The messages of calls are nested.** -/
theorem messages (calls : List Call) : Nested (messages calls) :=
  List.foldlRecOn calls Progress.tell .nil fun _ h c _ => h.tell c

end Nested

/-! ## Timers -/

/-- **A timer that said these messages**: it attempted their lines, and has open what they leave
unfinished. -/
structure Tells (p : Progress) (said : List Message) : Prop where
  recording : p.sink.isSome
  attempted : p.attempted.toList = said.map line
  sections : p.sections = unfinished said

variable {p q : Progress} {said : List Message}

theorem tryStart_eq (h : p.sink.isSome) (template : String) (args : List Value) :
    p.tryStart template args =
      match sectionName template args with
      | .ok name => (p.start name, none)
      | .error e => (p, some e) := by
  obtain ⟨sink, hsink⟩ := Option.isSome_iff_exists.1 h
  simp only [tryStart, startWith, hsink, sectionName]
  cases args.isEmpty with
  | true => rfl
  | false => cases Template.fill template args <;> rfl

theorem tryStart_snd (hp : p.sink.isSome) (hq : q.sink.isSome) (template : String)
    (args : List Value) : (p.tryStart template args).2 = (q.tryStart template args).2 := by
  rw [tryStart_eq hp, tryStart_eq hq]
  cases sectionName template args <;> rfl

/-- The error of a call does not depend on the timer. -/
theorem call_snd (hp : p.sink.isSome) (hq : q.sink.isSome) (c : Call) :
    (p.call c).2 = (q.call c).2 := by
  cases c with
  | start template args => exact tryStart_snd hp hq template args
  | finish => rfl
  | restart template args =>
    have hp' : p.finish.sink.isSome := by rwa [finish_sink]
    have hq' : q.finish.sink.isSome := by rwa [finish_sink]
    exact tryStart_snd hp' hq' template args
  | note line => rfl
  | leave => rfl

/-- Nothing is closed if nothing is open. -/
theorem finish_of_sections_eq_nil (h : p.sections = []) : p.finish = p := by
  rw [finish, h]

namespace Tells

theorem ofSink (sink : Sink) : Tells (ofSink sink) [] := ⟨rfl, rfl, rfl⟩

/-- A message changes the open sections and is attempted, whatever becomes of it. -/
theorem attempt (h : Tells p said) (m : Message) :
    Tells ({ p with sections := m.turn p.sections }.note m.line) (said ++ [m]) where
  recording := by
    rw [note_sink]
    exact h.recording
  attempted := by
    have hrecording : ({ p with sections := m.turn p.sections } : Progress).sink.isSome :=
      h.recording
    rw [attempted_note hrecording, List.map_append, ← h.attempted]
    rfl
  sections := by rw [note_sections, unfinished_concat, h.sections]

theorem note (h : Tells p said) (line : String) : Tells (p.note line) (said ++ [.note line]) :=
  h.attempt (.note line)

theorem start (h : Tells p said) (name : String) :
    Tells (p.start name) (said ++ [.started name]) := by
  have hstart := h.attempt (.started name)
  unfold Progress.start
  split
  · next hsink =>
    have hrecording := h.recording
    rw [hsink] at hrecording
    cases hrecording
  · exact hstart

theorem tryStart (h : Tells p said) (template : String) (args : List Value) :
    Tells (p.tryStart template args).1 (said ++ opening template args) := by
  rw [tryStart_eq h.recording, opening]
  cases sectionName template args with
  | ok name => exact h.start name
  | error e =>
    rw [List.append_nil]
    exact h

theorem finish (h : Tells p said) : Tells p.finish (said ++ closing (unfinished said)) := by
  rw [← h.sections]
  rcases hsections : p.sections with _ | ⟨name, sections⟩
  · rw [finish_of_sections_eq_nil hsections, closing, List.append_nil]
    exact h
  · have hfinish := h.attempt (.finished name)
    rw [hsections] at hfinish
    rw [Progress.finish, hsections]
    exact hfinish

/-- **A call says its messages.** -/
theorem call (h : Tells p said) (c : Call) : Tells (p.call c).1 (tell said c) := by
  cases c with
  | start template args => exact h.tryStart template args
  | finish => exact h.finish
  | restart template args =>
    rw [tell, Call.messages, ← List.append_assoc]
    exact h.finish.tryStart template args
  | note line => exact h.note line
  | leave => exact h.finish

/-- **Calls say their messages**, one after another. -/
theorem after (h : Tells p said) (calls : List Call) :
    Tells (p.after calls) (calls.foldl tell said) := by
  induction calls generalizing p said with
  | nil => exact h
  | cons c calls ih => exact ih (h.call c)

/-- **Timers that said the same answer alike**, call for call. -/
theorem replies (hp : Tells p said) (hq : Tells q said) (calls : List Call) :
    p.replies calls = q.replies calls := by
  -- By induction on the calls: after each of them both timers said the same again.
  induction calls generalizing p q said with
  | nil => rfl
  | cons c calls ih =>
    have herror := call_snd hp.recording hq.recording c
    have hp' := hp.call c
    have hq' := hq.call c
    have hsize : p.attempted.size = q.attempted.size := by
      rw [← Array.length_toList, ← Array.length_toList, hp.attempted, hq.attempted]
    have hlines : (p.call c).1.attempted.toList = (q.call c).1.attempted.toList := by
      rw [hp'.attempted, hq'.attempted]
    have hdepth : (p.call c).1.depth = (q.call c).1.depth := by
      rw [depth, depth, hp'.sections, hq'.sections]
    simp only [Progress.replies, herror, hsize, hlines, hdepth, ih hp' hq']

end Tells

/-! ### Lines -/

namespace Reached

variable {sink : Sink} {own : List String}

theorem exists_finish (h : Reached (.ofSink sink) own p) :
    ∃ own', Reached (.ofSink sink) own' p.finish := by
  cases own with
  | nil =>
    have hsections : p.sections = [] := h.sections
    exact ⟨[], by rwa [finish_of_sections_eq_nil hsections]⟩
  | cons name own => exact ⟨own, h.finish⟩

theorem exists_tryStart (h : Reached (.ofSink sink) own p) (template : String)
    (args : List Value) : ∃ own', Reached (.ofSink sink) own' (p.tryStart template args).1 := by
  rw [tryStart_eq h.recording]
  cases sectionName template args with
  | ok name => exact ⟨name :: own, h.start name⟩
  | error e => exact ⟨own, h⟩

/-- A call adds to what was reached, if no note is taken for something else. -/
theorem exists_call (h : Reached (.ofSink sink) own p) {c : Call}
    (hnote : ∀ line, c = .note line → IsNote line) :
    ∃ own', Reached (.ofSink sink) own' (p.call c).1 := by
  cases c with
  | start template args => exact h.exists_tryStart template args
  | finish => exact h.exists_finish
  | restart template args =>
    obtain ⟨own', h'⟩ := h.exists_finish
    exact h'.exists_tryStart template args
  | note line => exact ⟨own, h.note (hnote line rfl)⟩
  | leave => exact h.exists_finish

theorem exists_after (h : Reached (.ofSink sink) own p) {calls : List Call}
    (hnotes : ∀ line, .note line ∈ calls → IsNote line) :
    ∃ own', Reached (.ofSink sink) own' (p.after calls) := by
  induction calls generalizing p own with
  | nil => exact ⟨own, h⟩
  | cons c calls ih =>
    have hnote : ∀ line, c = .note line → IsNote line := by
      rintro line rfl
      exact hnotes line List.mem_cons_self
    obtain ⟨own', h'⟩ := h.exists_call hnote
    exact ih h' fun line hline => hnotes line (List.mem_cons_of_mem c hline)

end Reached

/-- **The lines of a timer tell its open sections** by themselves, if no note is taken for something
else: they leave open no others. -/
theorem leaves_after_iff (sink : Sink) {calls : List Call}
    (hnotes : ∀ line, .note line ∈ calls → IsNote line) :
    let timer := (ofSink sink).after calls
    ∀ sections, Leaves timer.attempted.toList sections ↔ sections = timer.sections := by
  intro timer
  have hstart : Reached (.ofSink sink) [] (ofSink sink) := .refl rfl
  obtain ⟨own, hreached⟩ := hstart.exists_after hnotes
  obtain ⟨lines, hlines, hleaves⟩ := hreached.lines
  have hattempted : timer.attempted.toList = lines := hlines
  have hsections : timer.sections = own := hreached.sections.trans (List.append_nil own)
  rw [hattempted, hsections]
  intro sections
  constructor
  · intro hother
    exact hother.unique hleaves
  · rintro rfl
    exact hleaves

/-! ### Calls that say nothing -/

theorem silent_call (c : Call) : silent.call c = (silent, none) := by
  cases c <;> rfl

theorem silent_after (calls : List Call) : silent.after calls = silent := by
  induction calls with
  | nil => rfl
  | cons c calls ih =>
    rw [after, List.foldl_cons, silent_call]
    exact ih

theorem silent_replies (calls : List Call) :
    silent.replies calls = calls.map fun _ => ⟨none, [], 0⟩ := by
  induction calls with
  | nil => rfl
  | cons c calls ih =>
    simp only [replies, silent_call, ih, List.map_cons]
    rfl

/-! ## The stack of a timer -/

/-- **A timer is a stack of sections, whatever becomes of its lines.** In the course of any calls it
attempts their messages. As many sections are open as were started more than finished, they are
those that the messages leave unfinished, and every end is that of the section that was started
last. If no note is taken for something else, the lines by themselves leave open these sections and
no others. To close a section when none is open does nothing, and to replace one then only opens.
Timers with different sinks answer alike, call for call; one that is not reported says nothing. -/
theorem calls_nested (calls : List Call) :
    let said := messages calls
    (∀ sink : Sink,
      let timer := (ofSink sink).after calls
      timer.attempted.toList = said.map line ∧
      Pending said timer.sections ∧
      (timer.depth : ℤ) = said.countP isStarted - said.countP isFinished ∧
      (∀ earlier name later, said = earlier ++ .finished name :: later →
        ∃ before between, earlier = before ++ .started name :: between ∧ Closed between) ∧
      ((∀ line, .note line ∈ calls → IsNote line) →
        ∀ sections, Leaves timer.attempted.toList sections ↔ sections = timer.sections) ∧
      (timer.depth = 0 →
        timer.call .finish = (timer, none) ∧ timer.call .leave = (timer, none) ∧
        ∀ template args,
          timer.call (.restart template args) = timer.call (.start template args))) ∧
    (∀ sink sink' : Sink, (ofSink sink).replies calls = (ofSink sink').replies calls) ∧
    silent.after calls = silent ∧
    silent.replies calls = calls.map fun _ => ⟨none, [], 0⟩ := by
  intro said
  have hnested : Nested said := .messages calls
  refine ⟨fun sink => ?_, fun sink sink' => ?_, silent_after calls, silent_replies calls⟩
  · intro timer
    have htells : Tells timer said := (Tells.ofSink sink).after calls
    have hpending : Pending said timer.sections := by
      rw [htells.sections]
      exact hnested.pending
    refine ⟨htells.attempted, hpending, ?_, hnested.ends, leaves_after_iff sink,
      fun hempty => ?_⟩
    · have hcount := hpending.countP_eq
      rw [depth]
      omega
    · have hsections : timer.sections = [] := List.length_eq_zero_iff.1 hempty
      have hfinish : timer.finish = timer := finish_of_sections_eq_nil hsections
      refine ⟨?_, ?_, fun template args => ?_⟩
      · rw [call, hfinish]
      · rw [call, hfinish]
      · rw [call, call, hfinish]
  · exact (Tells.ofSink sink).replies (.ofSink sink') calls

/-- Calls that leave a block before any was entered, and replace a section by a template that cannot
be filled in. -/
def unevenCalls : List Call :=
  [.leave, .start "Loading %s" [.text "model"], .start "Reading" [], .note "Loaded 1/2 vectors",
    .restart "Reading gigabyte #%d" [.text "two"], .leave, .finish]

/-- What is said in these calls: the template that cannot be filled in opens nothing. -/
theorem messages_unevenCalls :
    messages unevenCalls =
      [.started "Loading model", .started "Reading", .note "Loaded 1/2 vectors",
        .finished "Reading", .finished "Loading model"] := by
  decide +kernel

/-- The last end is that of the section that was started first, and closing once more does
nothing, although every line was refused. -/
theorem calls_nested_uneven :
    let timer := (ofSink .broken).after unevenCalls
    (∃ before between,
      [.started "Loading model", .started "Reading", .note "Loaded 1/2 vectors",
        .finished "Reading"] = before ++ .started "Loading model" :: between ∧ Closed between) ∧
    Leaves timer.attempted.toList timer.sections ∧
    timer.depth = 0 ∧ timer.call .finish = (timer, none) := by
  intro timer
  obtain ⟨hsinks, -⟩ := calls_nested unevenCalls
  obtain ⟨-, -, hcount, hends, hleaves, hempty⟩ := hsinks .broken
  have hdepth : timer.depth = 0 := by
    rw [messages_unevenCalls] at hcount
    exact Int.ofNat.inj hcount
  have hnotes : ∀ line, .note line ∈ unevenCalls → IsNote line := by
    intro line hline
    obtain rfl : line = "Loaded 1/2 vectors" := by simpa [unevenCalls] using hline
    have hloaded : IsNote ("Loaded" ++ " 1/2 vectors") :=
      isNote_append (c := 'L') rfl (by decide) (by decide) _
    exact hloaded
  exact ⟨hends _ _ [] messages_unevenCalls, (hleaves hnotes _).2 rfl, hdepth, (hempty hdepth).1⟩

end WordVectors.Progress
