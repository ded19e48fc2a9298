import WordVectors.Cli.Command

/-!
# The conversion tool as a program

The program runs a command against the real file system. Printed lines go to standard output, the
journal and messages about the command line to standard error.
-/

namespace WordVectors

/-- The memory that addresses of 47 bits reach. What is there of it is seen when it is used. -/
@[reducible] def addressable : Memory :=
  ⟨fun kept count => (kept + count) * Room.numberWidth < 0x800000000000⟩

/-- The variables that the settings are read from. -/
def settingNames : List String :=
  ["W2V_MAX_MAP_BYTES", "W2V_MAX_DOUBLE_BUFFER", "W2V_REMAP_THRESHOLD_BYTES",
    "W2V_PROGRESS_INTERVAL_SEC", "W2V_DEFAULT_BYTE_ORDER", "W2V_SEARCH_BACKEND", "RUN_SLOW_TESTS"]

/-- The variables that are set, with their values. -/
def environment : IO (List (String × String)) :=
  settingNames.filterMapM fun name => do
    return (← IO.getEnv name).map fun value => (name, value)

/-- Whether a code stands for the error with number `n`. Some calls give its negative. -/
def isCode (n code : UInt32) : Bool := code == n || code == 0 - n

/-- The cause of a failure to open a file. -/
def fileError (path : String) (e : IO.Error) : FileError :=
  if path.contains '\x00' then .nul
  else
    match e with
    | .noFileOrDirectory .. => .absent path
    | .inappropriateType _ code _ =>
      if isCode 20 code then .notDirectory path else .isDirectory path
    | .invalidArgument _ code _ =>
      if isCode 36 code then .tooLong path else .other (toString e)
    | e => .other (toString e)

/-- The reply of the file system to an action. -/
def reply {α : Type} (path : String) (action : IO α) : IO (Except FileError α) := do
  try
    return .ok (← action)
  catch e =>
    return .error (fileError path e)

/-- Run a task against the real file system. -/
def FileTask.perform {α : Type} : FileTask α → IO α
  | .done a => return a
  | .read path next => do
    let content ← reply path (IO.FS.readBinFile path)
    (next (content.map fun bytes => bytes.toList)).perform
  | .write path content next => do
    let result ← reply path (IO.FS.writeBinFile path ⟨content.toArray⟩)
    (next result).perform

/-- Print what a run left and give its status. -/
def report (outcome : Cli.Outcome) : IO UInt32 := do
  for line in outcome.printed do
    IO.println line
  for entry in outcome.journal do
    IO.eprintln entry.line
  if !outcome.usage.isEmpty then
    IO.eprintln outcome.usage
  match outcome.ending with
  | .status code => return UInt32.ofNat code
  | .failure e =>
    IO.eprintln e.message
    return 1

end WordVectors

/-- Run the tool with the arguments of the command line. -/
def main (arguments : List String) : IO UInt32 := do
  match WordVectors.Settings.load (← WordVectors.environment) with
  | .error e =>
    IO.eprintln e.message
    return 1
  | .ok settings =>
    let directory := (← IO.currentDir).toString
    have : WordVectors.Memory := WordVectors.addressable
    WordVectors.report (← (WordVectors.Cli.runTool settings directory arguments).perform)
