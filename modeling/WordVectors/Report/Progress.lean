import WordVectors.Report.Template

/-!
# Progress

A long operation reports its progress as nested sections. Each section announces when it is
started and when it is finished, and notes may be written in between. The lines go to a sink that
may refuse any of them; a refused line is lost and has no other effect. The time that a section
took is not part of the model: `#` stands in its place.

## Main definitions

* `Sink`: which lines are accepted
* `Progress`: the open sections, with the lines attempted and delivered so far
* `Progress.start`, `Progress.finish`, `Progress.restart`, `Progress.note`: the reports
* `Progress.within`: a section around an operation
-/

namespace WordVectors

/-- Where lines go: whether a line is accepted, given how many lines were attempted before it. -/
structure Sink where
  /-- Whether the line is accepted. -/
  accepts : (earlier : Nat) → (line : String) → Bool

/-- The sink that accepts every line. -/
def Sink.all : Sink := ⟨fun _ _ => true⟩

/-- The sink that refuses every line. -/
def Sink.broken : Sink := ⟨fun _ _ => false⟩

/-- **The progress of an operation.** Without a sink nothing is reported. -/
structure Progress where
  /-- Where lines go. -/
  sink : Option Sink
  /-- The names of the open sections, innermost first. -/
  sections : List String
  /-- The lines handed to the sink, oldest first. -/
  attempted : Array String
  /-- The lines that the sink accepted, oldest first. -/
  delivered : Array String

namespace Progress

/-- Progress that is not reported. -/
def silent : Progress := ⟨none, [], #[], #[]⟩

/-- Progress reported to a sink. -/
def ofSink (sink : Sink) : Progress := ⟨some sink, [], #[], #[]⟩

/-- The line that announces a section. -/
def startedLine (name : String) : String := s!"Started: {name}"

/-- The line that ends a section. -/
def finishedLine (name : String) : String := s!"Finished: {name} (#ms)"

variable (p : Progress)

/-- The number of open sections. -/
def depth : Nat := p.sections.length

/-- Hand a line to the sink. -/
def note (line : String) : Progress :=
  match p.sink with
  | none => p
  | some sink =>
    let accepted := sink.accepts p.attempted.size line
    { p with
      attempted := p.attempted.push line
      delivered := if accepted then p.delivered.push line else p.delivered }

/-- Open a section and announce it. -/
def start (name : String) : Progress :=
  match p.sink with
  | none => p
  | some _ => { p with sections := name :: p.sections }.note (startedLine name)

/-- Close the innermost section, if there is one, and announce its end. -/
def finish : Progress :=
  match p.sections with
  | [] => p
  | name :: rest => { p with sections := rest }.note (finishedLine name)

/-- Close the innermost section and open another in its place. -/
def restart (name : String) : Progress := p.finish.start name

/-- Open a section whose name is given as a template. A name without arguments is taken as it is,
and one that is not reported is not filled in. -/
def startWith (template : String) (args : List Value) : Except TemplateError Progress :=
  match p.sink with
  | none => .ok p
  | some _ =>
    if args.isEmpty then .ok (p.start template)
    else (Template.fill template args).map p.start

/-- **A section around an operation.** It is closed whatever the operation comes to. -/
def within {α : Type} (name : String) (body : Progress → Progress × α) : Progress × α :=
  let (p, a) := body (p.start name)
  (p.finish, a)

@[simp] theorem note_sections (line : String) : (p.note line).sections = p.sections := by
  unfold note
  split <;> rfl

@[simp] theorem note_sink (line : String) : (p.note line).sink = p.sink := by
  unfold note
  split <;> rfl

@[simp] theorem finish_sink : p.finish.sink = p.sink := by
  unfold finish
  split
  · rfl
  · exact note_sink _ _

end Progress

end WordVectors
