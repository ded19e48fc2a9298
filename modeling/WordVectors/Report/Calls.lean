import WordVectors.Report.Progress

/-!
# Calls of a timer

An operation reports its progress through a timer, which it calls in any order: a section may be
left before those inside it are closed, and closed when none is open. A template that cannot be
filled in is an error of the call; a section that the call was to replace is closed all the same.

## Main definitions

* `Progress.Call`: a call
* `Progress.call`: what a call does, with its error
* `Progress.after`: the progress after calls
* `Progress.Reply`, `Progress.replies`: what is seen of each of several calls
-/

namespace WordVectors.Progress

/-- **A call of a timer.** -/
inductive Call where
  /-- Open a section that is named by a template. -/
  | start (template : String) (args : List Value)
  /-- Close the innermost section. -/
  | finish
  /-- Close the innermost section and open another in its place. -/
  | restart (template : String) (args : List Value)
  /-- Write a line. -/
  | note (line : String)
  /-- Leave the block of a section. The innermost section is closed, whichever it is. -/
  | leave

variable (p : Progress)

/-- Open a section that is named by a template, if it can be filled in. -/
def tryStart (template : String) (args : List Value) : Progress × Option TemplateError :=
  match p.startWith template args with
  | .ok q => (q, none)
  | .error e => (p, some e)

/-- **What a call does**, with its error. -/
def call : Call → Progress × Option TemplateError
  | .start template args => p.tryStart template args
  | .finish => (p.finish, none)
  -- The section is closed before it is known whether the template can be filled in.
  | .restart template args => p.finish.tryStart template args
  | .note line => (p.note line, none)
  | .leave => (p.finish, none)

/-- The progress after calls, one after another. -/
def after (calls : List Call) : Progress := calls.foldl (fun p c => (p.call c).1) p

/-- **What is seen of a call.** -/
structure Reply where
  error : Option TemplateError
  /-- The lines that the call attempted. -/
  lines : List String
  /-- The number of open sections after the call. -/
  depth : Nat
deriving DecidableEq, Repr

/-- What is seen of each of several calls, one after another. -/
def replies (p : Progress) : List Call → List Reply
  | [] => []
  | c :: calls =>
    let (q, error) := p.call c
    ⟨error, q.attempted.toList.drop p.attempted.size, q.depth⟩ :: replies q calls

end WordVectors.Progress
