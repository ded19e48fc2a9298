import WordVectors.Cli.Arguments
import WordVectors.Cli.Folder

/-!
# Commands of the conversion tool

A command loads a model and writes or shows it. Failures that concern the files are reported and
end the tool with status one; any other failure is handed on.

## Main definitions

* `Cli.Outcome`: what a run of the tool leaves
* `Cli.runTool`: a run of the tool
-/

namespace WordVectors.Cli

/-- How a run ends. -/
inductive Ending where
  | status (code : Nat)
  /-- With a failure that is not reported. -/
  | failure (e : ModelError)

/-- **What a run of the tool leaves**, apart from files. -/
structure Outcome where
  ending : Ending
  printed : List String
  /-- The message about a wrong command line; empty if there is none. -/
  usage : String
  journal : List Journal.Entry

/-- A step of a command: the lines printed and the entries made, and a result or a failure. -/
structure Report (α : Type) where
  printed : List String
  journal : List Journal.Entry
  result : Except ModelError α

namespace Report

variable {α β : Type}

/-- A step that only prints. -/
def print (lines : List String) (result : α) : Report α := ⟨lines, [], .ok result⟩

/-- What a step left before one that followed it. -/
def before (first : Report α) (second : Report β) : Report β :=
  ⟨first.printed ++ second.printed, first.journal ++ second.journal, second.result⟩

end Report

/-- A task in steps. -/
def Task (α : Type) := FileTask (Report α)

namespace Task

variable {α β : Type}

/-- A task without files. -/
def ofReport (r : Report α) : Task α := FileTask.done r

/-- A task that goes on if the first did not fail. -/
def andThen (first : Task α) (next : α → Task β) : Task β :=
  FileTask.bind first fun r =>
    match r.result with
    | .error e => .done ⟨r.printed, r.journal, .error e⟩
    | .ok a => FileTask.bind (next a) fun s => .done (r.before s)

end Task

/-! ## Loading and saving -/

/-- The entries of the lines of a progress. -/
def progressEntries (p : Progress) : List Journal.Entry :=
  p.delivered.toList.map Journal.info

/-- The model in a file. Only a binary model reports its progress. -/
def load [Memory] (settings : Settings) (directory path : String) (format : Format)
    (byteOrder : String) : Task Store :=
  FileTask.read path fun reply =>
    match reply with
    | .error e => .done ⟨[], [], .error (.file e)⟩
    | .ok content =>
      let order := if format = .binary then some byteOrder else none
      let request := { Binary.Request.unspecified with byteOrder := order }
      let (p, result) := format.load settings request (absolutePath directory path) content
        (.ofSink .all)
      match result with
      | .error e => .done ⟨[], progressEntries p, .error e⟩
      | .ok loaded =>
        .done ⟨[], progressEntries p ++ [Journal.info loaded.message], .ok loaded.store⟩

/-- Write a model to a file. A model that cannot be written leaves only its head there. -/
def save (store : Store) (path : String) (format : Format) : Task Unit :=
  match format.encode store with
  | .ok content =>
    FileTask.write path content fun reply =>
      match reply with
      | .error e => .done ⟨[], [], .error (.file e)⟩
      | .ok () => .done ⟨[], [Journal.info (format.writtenMessage (some path) store)], .ok ()⟩
  | .error e =>
    FileTask.write path (format.head store) fun reply =>
      match reply with
      | .error e => .done ⟨[], [], .error (.file e)⟩
      | .ok () => .done ⟨[], [], .error (.write e)⟩

/-! ## Commands -/

/-- Load a model from the file of a command, if its format is given. -/
def loadInput [Memory] (settings : Settings) (directory path : String) (format : Option Format)
    (byteOrder : String) : Task Store :=
  match format with
  | some format => load settings directory path format byteOrder
  | none => .done ⟨[], [], .error .noFormat⟩

/-- Write a model to the file of a conversion, if its format and the file are given. -/
def saveOutput (store : Store) (c : Conversion) : Task Unit :=
  match c.target, c.output with
  | none, _ => .done ⟨[], [], .error .noFormat⟩
  | some _, none => .done ⟨[], [], .error .noOutput⟩
  | some format, some path => save store path format

/-- Convert a model. -/
def convert [Memory] (settings : Settings) (directory : String) (c : Conversion) : Task Unit :=
  .andThen (.ofReport (.print [s!"🔄 Loading {c.input} ({formatText c.source})..."] ())) fun () =>
  .andThen (loadInput settings directory c.input c.source c.byteOrder) fun store =>
  .andThen (.ofReport
    (.print [s!"💾 Writing {c.outputText} ({formatText c.target})..."] ())) fun () =>
  .andThen (saveOutput store c) fun () =>
  .ofReport (.print ["✅ Conversion completed successfully", s!"   Words: {store.vocabSize}",
    s!"   Dimensions: {store.layerSize}"] ())

/-- The first `count` items; a negative count is one from the end. -/
def firstItems {α : Type} (count : Int) (xs : List α) : List α :=
  xs.take (if count < 0 then (count + xs.length).toNat else count.toNat)

/-- The line of a word with the first components of its vector. -/
def previewLine (store : Store) (index : Nat) (word : String) (vector : List Binary64) : String :=
  let number := toString index
  let indent := String.ofList (List.replicate (6 - number.length) ' ')
  let preview := String.intercalate " "
    ((vector.take 5).map fun x => String.ofList (x.fixedText 4))
  s!"   {indent}{number} {word}: {preview}" ++ if 5 < store.layerSize then " ..." else ""

/-- The lines that show the extent of a model. -/
def extentLines (i : Inspection) (store : Store) : List String :=
  [s!"Model: {i.input}", s!"   Format: {formatText i.format}", s!"   Words: {store.vocabSize}",
    s!"   Dimensions: {store.layerSize}", s!"   Segments: {store.segments.length}"]

/-- The lines that show the first words of a model. -/
def previewLines (store : Store) (count : Int) : List String :=
  (firstItems count store.entries).zipIdx.map fun ((word, vector), index) =>
    previewLine store index word vector

/-- Show a model. -/
def inspect [Memory] (settings : Settings) (directory : String) (i : Inspection) : Task Unit :=
  .andThen (loadInput settings directory i.input i.format i.byteOrder) fun store =>
  .andThen (.ofReport (.print (extentLines i store) ())) fun () =>
  match i.head with
  | some count => .ofReport (.print (previewLines store count) ())
  | none => .done ⟨[], [], .error .noCount⟩

/-- The task of a command. -/
def Command.task [Memory] (settings : Settings) (directory : String) : Command → Task Unit
  | .convert c => Cli.convert settings directory c
  | .inspect i => Cli.inspect settings directory i

/-- The outcome of a command that was carried out as far as a report tells. -/
def outcomeOf (name : String) (r : Report Unit) : Outcome :=
  match r.result with
  | .ok () => ⟨.status 0, r.printed, "", r.journal⟩
  | .error e =>
    if e.isReported then
      let line := s!"{name} failed: {e.message}"
      ⟨.status 1, r.printed ++ [s!"❌ {line}"], "", r.journal ++ [Journal.error line]⟩
    else ⟨.failure e, r.printed, "", r.journal⟩

/-- The outcome of a refused command line. -/
def refusalOutcome : Refusal → Outcome
  | .help program => ⟨.status 0, [s!"usage: {program} [-h] ..."], "", []⟩
  | .version => ⟨.status 0, [s!"{toolName} {version}"], "", []⟩
  | .usage program message => ⟨.status 2, [], usageLine program message, []⟩

/-- **A run of the tool.** Settings with issues end it before the command line is read. -/
def runTool [Memory] (settings : Settings) (directory : String) (arguments : List String) :
    FileTask Outcome :=
  match settings.issues with
  | [] =>
    match parse settings arguments with
    | .error refusal => .done (refusalOutcome refusal)
    | .ok command =>
      FileTask.bind (command.task settings directory) fun r => .done (outcomeOf command.name r)
  | issues => .done ⟨.status 1, issues.map fun issue => s!"❌ ERROR: {issue}", "", []⟩

end WordVectors.Cli
