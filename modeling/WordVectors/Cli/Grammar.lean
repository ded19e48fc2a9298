import WordVectors.Decimal.Numeral

/-!
# Command-line grammars

A command line is a list of arguments and options. A grammar says which options there are and how
many arguments are required; options may stand before, between and after the arguments. An option
may be shortened as long as it stays unique, and its value may follow it or be attached with an
equals sign. After the mark `--` nothing is an option; a mark in the place of a value leaves the
option without one.

## Main definitions

* `Grammar`: the options and arguments of a command
* `Grammar.Word`: an element of a command line with its role
* `Grammar.parse`: the values that a command line gives
-/

namespace WordVectors

/-- Why the parsing of a command line ends early. -/
inductive Stop where
  | help
  | version
  | usage (message : String)
deriving DecidableEq, Repr

/-- What the value of an option has to be. -/
inductive ValueKind where
  | oneOf (choices : List String)
  | integer
deriving DecidableEq, Repr

/-- What an option is for. -/
inductive OptionRole where
  | help
  | version
  | value (kind : ValueKind)
deriving DecidableEq, Repr

/-- An option of a command. -/
structure OptionSpec where
  /-- The ways to write it; the last one names it. -/
  names : List String
  /-- What it is for. -/
  role : OptionRole
deriving DecidableEq, Repr

/-- **The options and arguments of a command.** -/
structure Grammar where
  /-- The command as messages name it. -/
  program : String
  options : List OptionSpec
  /-- The names of the required arguments. -/
  arguments : List String
  /-- Whether the last argument takes everything that follows it. -/
  takesRest : Bool

namespace Grammar

open Text

/-! ## Words -/

/-- The use of an option on a command line: the option, if it is known, the name that was meant,
and an attached value. -/
structure Use where
  spec : Option OptionSpec
  /-- The name that was meant. -/
  name : String
  attached : Option String

/-- The role of an element of a command line. -/
inductive Role where
  /-- An argument, or the value of an option. -/
  | argument
  /-- The mark after which nothing is an option. -/
  | mark
  | option (use : Use)

/-- An element of a command line with its role. -/
structure Word where
  text : String
  role : Role

/-- The mark after which nothing is an option. -/
def mark : String := "--"

/-- A text without the newline at its end. -/
def dropNewline (cs : List Char) : List Char :=
  if cs.getLast? = some '\n' then cs.dropLast else cs

/-- Whether a text is a negative number without exponent; a newline may follow it. -/
def isNegativeNumber (cs : List Char) : Bool :=
  match dropNewline cs with
  | '-' :: cs =>
    let rest := cs.dropWhile fun c => (digitValue? c).isSome
    match rest with
    | [] => !cs.isEmpty
    | '.' :: fraction => !fraction.isEmpty && fraction.all fun c => (digitValue? c).isSome
    | _ => false
  | _ => false

variable (g : Grammar)

/-- The names of all options with the options, in order. -/
def namedOptions : List (String × OptionSpec) :=
  g.options.flatMap fun spec => spec.names.map fun name => (name, spec)

/-- A text split at its first equals sign, if it has one. -/
def splitEquals (cs : List Char) : String × Option String :=
  match cs.dropWhile (· ≠ '=') with
  | [] => (String.ofList cs, none)
  | _ :: value => (String.ofList (cs.takeWhile (· ≠ '=')), some (String.ofList value))

/-- The options that a shortened text may mean: with two dashes, those it starts the name of; with
one, also the one-letter option whose value is attached to it. -/
def meanings (cs : List Char) : List Use :=
  match cs with
  | '-' :: '-' :: _ =>
    let (start, value) := splitEquals cs
    g.namedOptions.filterMap fun (name, spec) =>
      if start.toList.isPrefixOf name.toList then
        some ⟨some spec, name, value⟩
      else none
  | _ =>
    g.namedOptions.filterMap fun (name, spec) =>
      if name.toList = cs.take 2 then
        some ⟨some spec, name, some (String.ofList (cs.drop 2))⟩
      else if cs.isPrefixOf name.toList then some ⟨some spec, name, none⟩
      else none

/-- The role of an element in front of the mark. -/
def roleOf (text : String) : Except Stop Role :=
  let cs := text.toList
  if cs.head? ≠ some '-' then .ok .argument
  else match g.namedOptions.lookup text with
    | some spec => .ok (.option ⟨some spec, text, none⟩)
    | none =>
      if cs.length = 1 then .ok .argument
      else
        let (start, value) := splitEquals cs
        match g.namedOptions.lookup start, value with
        | some spec, some v => .ok (.option ⟨some spec, start, some v⟩)
        | _, _ =>
          match g.meanings cs with
          | [use] => .ok (.option use)
          | [] =>
            if isNegativeNumber cs || cs.contains ' ' then .ok .argument
            else .ok (.option ⟨none, text, none⟩)
          | uses =>
            .error (.usage (s!"ambiguous option: {text} could match " ++
              String.intercalate ", " (uses.map Use.name)))

/-- The elements of a command line with their roles. -/
def words : List String → Except Stop (List Word)
  | [] => .ok []
  | text :: texts =>
    if text = mark then .ok (⟨mark, .mark⟩ :: texts.map fun text => ⟨text, .argument⟩)
    else do
      let role ← g.roleOf text
      let rest ← words texts
      .ok (⟨text, role⟩ :: rest)

/-- Whether a word is an option. -/
def Word.isOption (w : Word) : Bool :=
  match w.role with
  | .option _ => true
  | _ => false

/-- Whether a word is the mark. -/
def Word.isMark (w : Word) : Bool :=
  match w.role with
  | .mark => true
  | _ => false

/-! ## Values -/

/-- What is known of a command line so far. -/
structure Parsed where
  /-- The names of the options given, last one first, with the values of those that have one. -/
  options : List (String × Option String)
  /-- The texts of the arguments, in order: one each, except that the last may have taken others
  with it and that a mark has none. -/
  arguments : List (List String)
  /-- The elements that have no use. -/
  extras : List String

/-- The message about an option. -/
def optionMessage (spec : OptionSpec) (wording : String) : Stop :=
  .usage ("argument " ++ String.intercalate "/" spec.names ++ ": " ++ wording)

/-- The choices of a value, as messages list them. -/
def choiceList (choices : List String) : String :=
  String.intercalate ", " (choices.map quote)

/-- The message that a value is not one of its choices. -/
def choiceMessage (value : String) (choices : List String) : String :=
  s!"invalid choice: {quote value} (choose from {choiceList choices})"

/-- Check the value of an option. -/
def checkValue (spec : OptionSpec) (kind : ValueKind) (value : String) : Except Stop Unit :=
  match kind with
  | .oneOf choices =>
    if choices.contains value then .ok ()
    else .error (optionMessage spec (choiceMessage value choices))
  | .integer =>
    match Numeral.readInt value.toList with
    | .ok _ => .ok ()
    | .error _ => .error (optionMessage spec s!"invalid int value: {quote value}")

/-- The name under which the value of an option is kept. -/
def OptionSpec.key (spec : OptionSpec) : String := spec.names.getLastD ""

/-- The message that an attached value has no use. -/
def ignoredMessage (spec : OptionSpec) (value : String) : Stop :=
  optionMessage spec s!"ignored explicit argument {quote value}"

/-- The effect `stop` of a one-letter option without a value, to which letters are attached: each
letter has to name an option of the same kind, and the first option is the one that counts. -/
def stopAtLetters (stop : Stop) : (spec : OptionSpec) → List Char → Stop
  | spec, [] => ignoredMessage spec ""
  | spec, c :: cs =>
    match g.namedOptions.lookup (String.ofList ['-', c]) with
    | none => ignoredMessage spec (String.ofList (c :: cs))
    | some next => if cs.isEmpty then stop else stopAtLetters stop next cs

/-- The effect `stop` of an option without a value, to which something may be attached. -/
def stopAt (spec : OptionSpec) (use : Use) (stop : Stop) : Stop :=
  match use.attached with
  | none => stop
  | some value =>
    if (use.name.toList.drop 1).head? = some '-' then ignoredMessage spec value
    else g.stopAtLetters stop spec value.toList

/-- The value of an option that is followed by `rest`, if it has one, and what is left. -/
def takeValue (spec : OptionSpec) (kind : ValueKind) (attached : Option String)
    (rest : List Word) : Except Stop (Option String × List Word) :=
  match attached, rest with
  | some value, rest =>
    if value = mark then .ok (none, rest)
    else (checkValue spec kind value).map fun () => (some value, rest)
  | none, ⟨value, .argument⟩ :: rest =>
    (checkValue spec kind value).map fun () => (some value, rest)
  | none, _ => .error (optionMessage spec "expected one argument")

/-- Use an option that is followed by `rest`: what is known then, and what is left. -/
def useOption (use : Use) (text : String) (rest : List Word) (parsed : Parsed) :
    Except Stop (Parsed × List Word) :=
  match use.spec with
  | none => .ok ({ parsed with extras := parsed.extras ++ [text] }, rest)
  | some spec =>
    match spec.role with
    | .help => .error (g.stopAt spec use .help)
    | .version => .error (g.stopAt spec use .version)
    | .value kind => do
      let (value, rest) ← takeValue spec kind use.attached rest
      .ok ({ parsed with options := (OptionSpec.key spec, value) :: parsed.options }, rest)

/-- The next argument with the marks around it, or with everything that follows if it takes the
rest: its texts, and what is left. An argument written like the mark, but not standing right after
it, is taken for a mark as well and has no text. -/
def takeArgument? (takesRest : Bool) (ws : List Word) : Option (List String × List Word) :=
  let before := ws.takeWhile Word.isMark
  match ws.dropWhile Word.isMark with
  | ⟨text, .argument⟩ :: rest =>
    if takesRest then some (before.map Word.text ++ text :: rest.map Word.text, [])
    else some (if before.isEmpty && text = mark then [] else [text], rest.dropWhile Word.isMark)
  | _ => none

/-- Take as many of the arguments that are still missing as stand next to each other. -/
def takeArguments : (missing : Nat) → List Word → Parsed → Parsed × List Word
  | 0, ws, parsed => (parsed, ws)
  | missing + 1, ws, parsed =>
    match takeArgument? (g.takesRest && missing = 0) ws with
    | none => (parsed, ws)
    | some (texts, rest) =>
      takeArguments missing rest { parsed with arguments := parsed.arguments ++ [texts] }

/-- The values of the words that are left. Each round takes at least one word, so `fuel` above
their number suffices. -/
def parseWords : (fuel : Nat) → List Word → Parsed → Except Stop Parsed
  | 0, _, parsed => .ok parsed
  | fuel + 1, ws, parsed =>
    let missing := g.arguments.length - parsed.arguments.length
    if !ws.any Word.isOption then
      let (parsed, rest) := g.takeArguments missing ws parsed
      .ok { parsed with extras := parsed.extras ++ rest.map Word.text }
    else
      match ws with
      | ⟨text, .option use⟩ :: rest => do
        let (parsed, rest) ← g.useOption use text rest parsed
        parseWords fuel rest parsed
      | ws =>
        let (taken, rest) := g.takeArguments missing ws parsed
        if rest.length < ws.length then parseWords fuel rest taken
        else
          let idle := (ws.takeWhile fun w => !w.isOption).map Word.text
          parseWords fuel (ws.dropWhile fun w => !w.isOption)
            { parsed with extras := parsed.extras ++ idle }

/-- **The values that a command line gives**, with all required arguments. -/
def parse (texts : List String) : Except Stop Parsed := do
  let ws ← g.words texts
  let parsed ← g.parseWords (ws.length + 1) ws ⟨[], [], []⟩
  match g.arguments.drop parsed.arguments.length with
  | [] => .ok parsed
  | missing =>
    .error (.usage ("the following arguments are required: " ++
      String.intercalate ", " missing))

end Grammar

end WordVectors
