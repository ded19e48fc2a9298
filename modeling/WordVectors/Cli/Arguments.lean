import WordVectors.Cli.Grammar
import WordVectors.Codec.Format

/-!
# Arguments of the conversion tool

The tool has two commands: one converts a model from one format to another, the other shows the
extent and the first words of a model.

## Main definitions

* `Cli.Command`: a command with its arguments
* `Cli.parse`: the command of a command line
* `Cli.usageLine`: the message about a wrong command line
-/

namespace WordVectors.Cli

/-- The name of the tool. -/
def toolName : String := "convert_model.py"

/-- The version of the tool. -/
def version : String := "1.0.0"

/-- Convert a model. -/
structure Conversion where
  input : String
  /-- The file to write, unless a mark stands in its place. -/
  output : Option String
  /-- The format of the file to read, unless a mark stands in its place. -/
  source : Option Format
  /-- The format of the file to write, unless a mark stands in its place. -/
  target : Option Format
  byteOrder : String

/-- The file to write as it is announced. -/
def Conversion.outputText (c : Conversion) : String := c.output.getD ModelError.noValue

/-- A format as it is announced. -/
def formatText (format : Option Format) : String := (format.map Format.name).getD ModelError.noValue

/-- Show a model. -/
structure Inspection where
  input : String
  /-- The format of the file, unless a mark stands in its place. -/
  format : Option Format
  byteOrder : String
  /-- How many words are shown, unless a mark stands in its place; a negative number counts from
  the end. -/
  head : Option Int

/-- **A command with its arguments.** -/
inductive Command where
  | convert (c : Conversion)
  | inspect (i : Inspection)

/-- The name of a command. -/
def Command.name : Command → String
  | convert _ => "convert"
  | inspect _ => "inspect"

/-! ## Grammars -/

/-- The option that asks for help. -/
def helpOption : OptionSpec := ⟨["-h", "--help"], .help⟩

/-- The option that names a format. -/
def formatOption (name : String) : OptionSpec := ⟨[name], .value (.oneOf Format.names)⟩

/-- The option that names a byte order. -/
def byteOrderOption : OptionSpec :=
  ⟨["--byte-order"], .value (.oneOf [ByteOrder.little.name, ByteOrder.big.name])⟩

/-- The names of the commands. -/
def commandNames : List String := ["convert", "inspect"]

/-- The grammar of the tool up to its command. -/
def toolGrammar : Grammar where
  program := toolName
  options := [helpOption, ⟨["--version"], .version⟩]
  arguments := ["command"]
  takesRest := true

/-- The grammar of the conversion command. -/
def convertGrammar : Grammar where
  program := s!"{toolName} convert"
  options := [helpOption, formatOption "--from", formatOption "--to", byteOrderOption]
  arguments := ["input", "output"]
  takesRest := false

/-- The grammar of the inspection command. -/
def inspectGrammar : Grammar where
  program := s!"{toolName} inspect"
  options := [helpOption, formatOption "--format", byteOrderOption,
    ⟨["--head"], .value .integer⟩]
  arguments := ["input"]
  takesRest := false

/-! ## Commands -/

/-- Why there is no command: help or the version is asked for, or the command line is wrong. -/
inductive Refusal where
  | help (program : String)
  | version
  | usage (program message : String)
deriving DecidableEq, Repr

/-- The message about a wrong command line. -/
def usageLine (program message : String) : String := s!"{program}: error: {message}"

/-- What a grammar gives, with the program named in a refusal. -/
def parseWith (g : Grammar) (texts : List String) : Except Refusal Grammar.Parsed :=
  match g.parse texts with
  | .ok parsed => .ok parsed
  | .error .help => .error (.help g.program)
  | .error .version => .error .version
  | .error (.usage message) => .error (.usage g.program message)

/-- The value that an option gives, as `read?` reads it, if it gives one. -/
def valueOf {α : Type} (parsed : Grammar.Parsed) (key : String) (default : α)
    (read? : String → Option α) : Option α :=
  match parsed.options.lookup key with
  | none => some default
  | some none => none
  | some (some text) => some ((read? text).getD default)

/-- The integer that a text writes. -/
def integer? (text : String) : Option Int :=
  match Numeral.readInt text.toList with
  | .ok n => some n
  | .error _ => none

/-- The byte order that is given, or else that of the settings. -/
def byteOrderOf (settings : Settings) (parsed : Grammar.Parsed) : String :=
  (valueOf parsed "--byte-order" settings.byteOrder some).getD settings.byteOrder

/-- The argument at a position, if it has a text. -/
def argumentAt? (parsed : Grammar.Parsed) (index : Nat) : Option String :=
  (parsed.arguments[index]?).bind List.head?

/-- The conversion that a command line gives. -/
def parseConversion (settings : Settings) (texts : List String) :
    Except Refusal (Command × List String) := do
  let parsed ← parseWith convertGrammar texts
  .ok (.convert {
      input := (argumentAt? parsed 0).getD ""
      output := argumentAt? parsed 1
      source := valueOf parsed "--from" .binary Format.ofName?
      target := valueOf parsed "--to" .compact Format.ofName?
      byteOrder := byteOrderOf settings parsed },
    parsed.extras)

/-- The inspection that a command line gives. -/
def parseInspection (settings : Settings) (texts : List String) :
    Except Refusal (Command × List String) := do
  let parsed ← parseWith inspectGrammar texts
  .ok (.inspect {
      input := (argumentAt? parsed 0).getD ""
      format := valueOf parsed "--format" .binary Format.ofName?
      byteOrder := byteOrderOf settings parsed
      head := valueOf parsed "--head" 10 integer? },
    parsed.extras)

/-- **The command of a command line.** Elements without use are an error of the tool, once the
command itself is in order. -/
def parse (settings : Settings) (texts : List String) : Except Refusal Command := do
  let parsed ← parseWith toolGrammar texts
  let rest := parsed.arguments.headD []
  let name := rest.headD ""
  let (command, extras) ←
    if name = "convert" then parseConversion settings rest.tail
    else if name = "inspect" then parseInspection settings rest.tail
    else .error (.usage toolName
      ("argument command: " ++ Grammar.choiceMessage name commandNames))
  match parsed.extras ++ extras with
  | [] => .ok command
  | extras =>
    .error (.usage toolName ("unrecognized arguments: " ++ String.intercalate " " extras))

end WordVectors.Cli
