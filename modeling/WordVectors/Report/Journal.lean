import WordVectors.Report.Display

/-!
# The journal

Operations on models leave entries in a journal: what was done, whether it succeeded, and details
as a record. An entry belongs to a named log and has a level. Logs stand above each other, and an
entry is written by every open log from its own upwards.

## Main definitions

* `Journal.Entry`: an entry
* `Journal.operationMessage`, `Journal.codecMessage`: the messages of operations
* `Journal.Entry.line`: an entry as a line
* `Journal.Entry.written`: the entries that open logs write
-/

namespace WordVectors

/-- Named values, in order. -/
abbrev Fields := List (String × Value)

/-- Set a field: a field of that name keeps its place, a new one is added at the end. -/
def Fields.put (fields : Fields) (name : String) (value : Value) : Fields :=
  if fields.any fun field => field.1 == name then
    fields.map fun field => if field.1 == name then (name, value) else field
  else fields ++ [(name, value)]

/-- Set all of the fields `more`, in order. -/
def Fields.putAll (fields more : Fields) : Fields :=
  more.foldl (fun fields field => fields.put field.1 field.2) fields

namespace Journal

/-- The level of an entry. -/
inductive Level where
  /-- Something was done. -/
  | info
  /-- Something failed. -/
  | error
deriving DecidableEq, Repr

/-- The name of a level. -/
def Level.name : Level → String
  | info => "INFO"
  | error => "ERROR"

/-- An entry of a journal. -/
structure Entry where
  log : String
  level : Level
  message : String
deriving DecidableEq, Repr

/-- An entry as a line. -/
def Entry.line (e : Entry) : String :=
  s!"{e.log} - {e.level.name} - {e.message}"

/-- The log of the operations on models. -/
def mainLog : String := "w2v_store"

/-- An entry of the main log that tells what was done. -/
def info (message : String) : Entry := ⟨mainLog, .info, message⟩

/-- An entry of the main log that tells what failed. -/
def error (message : String) : Entry := ⟨mainLog, .error, message⟩

/-! ## Logs -/

/-- The log above all others. -/
def rootLog : String := "root"

/-- The log that a name asks for: that above all others if it is empty. -/
def logNamed (name : String) : String := if name.isEmpty then rootLog else name

/-- Whether an entry of the log `inner` reaches the log `outer`, which is the same log or one above
it. The name of a log starts with that of the log above it and a dot. -/
def reaches (inner outer : String) : Bool :=
  outer == rootLog || inner == outer || (outer ++ ".").toList.isPrefixOf inner.toList

/-- **The entries that the open logs write** for an entry: it once for each log that it reaches. -/
def Entry.written (e : Entry) (logs : List String) : List Entry :=
  (logs.filter (reaches e.log)).map fun _ => e

/-! ## Messages -/

/-- The message of an operation; details are shown if there are any. -/
def operationMessage (operation status : String) (details : Fields) : String :=
  let base := s!"Operation: {operation}, Status: {status}"
  if details.isEmpty then base
  else base ++ ", Details: " ++ String.ofList (Value.record details).display

/-- The message of reading or writing a model, with the path, if there is one, as the first
detail. -/
def codecMessage (codec operation : String) (path : Option String) (details : Fields)
    (status : String) : String :=
  let place : Fields := match path with
    | some path => [("path", .text path)]
    | none => []
  operationMessage s!"{codec}.{operation}" status (place.putAll details)

/-- The message of building a store. -/
def storeBuiltMessage (vocabSize layerSize segments : Int) (source : String) : String :=
  operationMessage "store.build" "success" [("vocab_size", .int vocabSize),
    ("layer_size", .int layerSize), ("segments", .int segments), ("source", .text source)]

end Journal

end WordVectors
