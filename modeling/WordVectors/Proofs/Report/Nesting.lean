import Mathlib
import WordVectors.Report.Progress

/-!
# Nested sections

The lines of a report tell which sections are open. A line that announces a section opens it, a line
that ends one names the innermost section that is open, and every other line is a note. Reports that
are made one after another keep this, and a section around an operation is closed when the operation
is over, whatever it comes to.

## Main definitions

* `Progress.IsNote`: a line that neither announces a section nor ends one
* `Progress.Leaves`: the sections that lines leave open
* `Progress.Reached`: progress that was reached from other progress with sections of its own
* `Progress.Unwinds`: reports that leave nothing open

## Main results

* `Progress.Leaves.unique`: lines tell which sections they leave open
* `Progress.Reached.note`, `Progress.Reached.start`, `Progress.Reached.finish`: what reports keep
* `Progress.Reached.within`: a section around an operation is closed in the end
-/

namespace WordVectors.Progress

/-! ## Lines -/

theorem toList_startedLine (name : String) :
    (startedLine name).toList = "Started: ".toList ++ name.toList := by
  simp [startedLine, toString]

theorem toList_finishedLine (name : String) :
    (finishedLine name).toList = "Finished: ".toList ++ (name.toList ++ " (#ms)".toList) := by
  simp [finishedLine, toString]

theorem startedLine_inj {name name' : String} :
    startedLine name = startedLine name' ↔ name = name' := by
  rw [← String.toList_inj, toList_startedLine, toList_startedLine, List.append_cancel_left_eq,
    String.toList_inj]

/-- No line both announces a section and ends one. -/
theorem startedLine_ne_finishedLine (name name' : String) :
    startedLine name ≠ finishedLine name' := by
  intro h
  have hlist := congrArg String.toList h
  rw [toList_startedLine, toList_finishedLine] at hlist
  cases hlist

/-- **A line that neither announces a section nor ends one.** -/
def IsNote (line : String) : Prop :=
  ∀ name, line ≠ startedLine name ∧ line ≠ finishedLine name

theorem isNote_append {line : String} {c : Char} (h : line.toList.head? = some c) (hs : c ≠ 'S')
    (hf : c ≠ 'F') (rest : String) : IsNote (line ++ rest) := by
  have hhead : (line ++ rest).toList.head? = some c := by
    rw [String.toList_append, List.head?_append, h, Option.some_or]
  intro name
  constructor
  · intro heq
    rw [heq, toList_startedLine] at hhead
    exact hs (Option.some.inj hhead).symm
  · intro heq
    rw [heq, toList_finishedLine] at hhead
    exact hf (Option.some.inj hhead).symm

/-- **The sections that lines leave open**, innermost first: a line that ends a section names the
innermost one. -/
inductive Leaves : (lines : List String) → (sections : List String) → Prop
  | nil : Leaves [] []
  | started {lines sections : List String} (name : String) (h : Leaves lines sections) :
      Leaves (lines ++ [startedLine name]) (name :: sections)
  | finished {lines sections : List String} {name : String} (h : Leaves lines (name :: sections)) :
      Leaves (lines ++ [finishedLine name]) sections
  | note {lines sections : List String} {line : String} (hline : IsNote line)
      (h : Leaves lines sections) : Leaves (lines ++ [line]) sections

/-- What the last line did. -/
theorem Leaves.cases_concat {lines sections : List String} {line : String}
    (h : Leaves (lines ++ [line]) sections) :
    (∃ name rest, line = startedLine name ∧ sections = name :: rest ∧ Leaves lines rest) ∨
      (∃ name, line = finishedLine name ∧ Leaves lines (name :: sections)) ∨
      (IsNote line ∧ Leaves lines sections) := by
  generalize hlines : lines ++ [line] = all at h
  cases h with
  | nil => simp at hlines
  | started name h =>
    obtain ⟨rfl, hlast⟩ := List.append_inj' hlines rfl
    exact .inl ⟨name, _, (List.cons.inj hlast).1, rfl, h⟩
  | finished h =>
    obtain ⟨rfl, hlast⟩ := List.append_inj' hlines rfl
    exact .inr (.inl ⟨_, (List.cons.inj hlast).1, h⟩)
  | note hline h =>
    obtain ⟨rfl, hlast⟩ := List.append_inj' hlines rfl
    obtain rfl := (List.cons.inj hlast).1
    exact .inr (.inr ⟨hline, h⟩)

/-- **Lines tell which sections they leave open.** -/
theorem Leaves.unique {lines sections sections' : List String} (h : Leaves lines sections)
    (h' : Leaves lines sections') : sections = sections' := by
  induction h generalizing sections' with
  | nil =>
    generalize hlines : ([] : List String) = lines at h'
    cases h' with
    | nil => rfl
    | _ => simp at hlines
  | started name _ ih =>
    rcases h'.cases_concat with ⟨name', rest, hline, rfl, hrest⟩ | ⟨name', hline, -⟩ | ⟨hline, -⟩
    · rw [ih hrest, startedLine_inj.1 hline]
    · exact absurd hline (startedLine_ne_finishedLine name name')
    · exact absurd rfl (hline name).1
  | finished _ ih =>
    rcases h'.cases_concat with ⟨name', rest, hline, -⟩ | ⟨name', -, hrest⟩ | ⟨hline, -⟩
    · exact absurd hline.symm (startedLine_ne_finishedLine name' _)
    · exact (List.cons.inj (ih hrest)).2
    · exact absurd rfl (hline _).2
  | note hline _ ih =>
    rcases h'.cases_concat with ⟨name', rest, hstarted, -⟩ | ⟨name', hfinished, -⟩ | ⟨-, hrest⟩
    · exact absurd hstarted (hline name').1
    · exact absurd hfinished (hline name').2
    · exact ih hrest

/-! ## Reports one after another -/

/-- **Progress that was reached from other progress**, with sections of its own that are still open;
the lines since then tell which these are. -/
structure Reached (base : Progress) (own : List String) (p : Progress) : Prop where
  recording : p.sink.isSome
  sink : p.sink = base.sink
  sections : p.sections = own ++ base.sections
  /-- The lines attempted since then. -/
  lines : ∃ lines, p.attempted.toList = base.attempted.toList ++ lines ∧ Leaves lines own

variable {base p : Progress} {own : List String} {name : String}

theorem Reached.refl (h : base.sink.isSome) : Reached base [] base :=
  ⟨h, rfl, rfl, [], (List.append_nil _).symm, .nil⟩

theorem attempted_note (h : p.sink.isSome) (line : String) :
    (p.note line).attempted.toList = p.attempted.toList ++ [line] := by
  obtain ⟨sink, hsink⟩ := Option.isSome_iff_exists.1 h
  simp [Progress.note, hsink]

/-- **Reports that leave nothing open**: the sections are those that were open before, and the lines
attempted in between leave none open. -/
structure Unwinds (base after : Progress) : Prop where
  sink : after.sink = base.sink
  sections : after.sections = base.sections
  depth : after.depth = base.depth
  lines : ∃ lines, after.attempted.toList = base.attempted.toList ++ lines ∧ Leaves lines []

theorem Reached.unwinds (h : Reached base [] p) : Unwinds base p := by
  have hsections : p.sections = base.sections := h.sections
  refine ⟨h.sink, hsections, ?_, h.lines⟩
  rw [depth, depth, hsections]

namespace Reached

/-- A line is attempted with sections that it is to leave open. -/
theorem attempt {own' : List String} {line : String} (h : Reached base own p)
    (hlines : ∀ lines, Leaves lines own → Leaves (lines ++ [line]) own') :
    Reached base own' ({ p with sections := own' ++ base.sections }.note line) := by
  obtain ⟨lines, hattempted, hleaves⟩ := h.lines
  refine ⟨?_, ?_, ?_, lines ++ [line], ?_, hlines lines hleaves⟩
  · rw [note_sink]
    exact h.recording
  · rw [note_sink]
    exact h.sink
  · rw [note_sections]
  · let inner : Progress := { p with sections := own' ++ base.sections }
    have hrecording : inner.sink.isSome := h.recording
    rw [attempted_note hrecording, ← List.append_assoc, ← hattempted]

theorem note {line : String} (h : Reached base own p) (hline : IsNote line) :
    Reached base own (p.note line) := by
  have hnote : Reached base own ({ p with sections := own ++ base.sections }.note line) :=
    h.attempt fun lines hleaves => .note hline hleaves
  rwa [← h.sections] at hnote

theorem start (h : Reached base own p) (name : String) :
    Reached base (name :: own) (p.start name) := by
  have hstart := h.attempt fun lines hleaves => .started name hleaves
  obtain ⟨sink, hsink⟩ := Option.isSome_iff_exists.1 h.recording
  rw [List.cons_append, ← h.sections] at hstart
  simpa only [Progress.start, hsink] using hstart

theorem finish (h : Reached base (name :: own) p) : Reached base own p.finish := by
  have hfinish := h.attempt fun lines hleaves => .finished hleaves
  simpa only [Progress.finish, h.sections, List.cons_append] using hfinish

theorem restart (h : Reached base (name :: own) p) (name' : String) :
    Reached base (name' :: own) (p.restart name') :=
  h.finish.start name'

/-- **A section around an operation is closed in the end**, if the operation leaves one section open
in its place. -/
theorem within {α : Type} {body : Progress → Progress × α} (h : Reached base own p)
    (hbody : ∀ q, Reached base (name :: own) q → ∃ name', Reached base (name' :: own) (body q).1) :
    Reached base own (p.within name body).1 := by
  obtain ⟨name', hinner⟩ := hbody _ (h.start name)
  exact hinner.finish

end Reached

end WordVectors.Progress
