import WordVectors.Json.Numbers
import WordVectors.Json.Reader
import WordVectors.Payload.Basic

/-!
# Validation of payloads

A payload arrives as a dynamic value or as JSON text. Its fields are checked one after another
and all issues are reported together; that there is one vector per word is checked once the
fields are in order. The size is read leniently: from an integer, a truth value, a number without
fraction, or a text that writes such a number.

## Main definitions

* `Payload.Issue`: an issue and where it is
* `Payload.readSize`: the integer of a value
* `Payload.validate`: the payload of a dynamic value
* `Payload.ofJson`: the payload of a JSON text
-/

namespace WordVectors.Payload

/-! ## Issues -/

/-- What a payload arrives as. -/
inductive Form where
  | value
  | json
deriving DecidableEq, Repr

/-- A step on the way from a payload to a part of it. -/
inductive Step where
  | field (name : String)
  | item (index : Nat)
deriving DecidableEq, Repr

/-- What is wrong with a part of a payload. -/
inductive Problem where
  | notJson
  | notRecord (form : Form)
  | missing
  | notInteger
  /-- A text writes no integer. -/
  | integerText
  /-- An integer is too large. -/
  | integerSize
  /-- A number has a fraction. -/
  | fraction
  | notFinite
  | notList (form : Form)
  | notText
  /-- A value breaks a rule of payloads. -/
  | rule (wording : String)
deriving DecidableEq, Repr

/-- The code of a problem. -/
def Problem.code : Problem → String
  | notJson => "json_invalid"
  | notRecord _ => "model_type"
  | missing => "missing"
  | notInteger => "int_type"
  | integerText => "int_parsing"
  | integerSize => "int_parsing_size"
  | fraction => "int_from_float"
  | notFinite => "finite_number"
  | notList _ => "list_type"
  | notText => "string_type"
  | rule _ => "value_error"

/-- The wording of a problem. -/
def Problem.message : Problem → String
  | notJson => ""
  | notRecord .value => "Input should be a valid dictionary or instance of ModelPayload"
  | notRecord .json => "Input should be an object"
  | missing => "Field required"
  | notInteger => "Input should be a valid integer"
  | integerText => "Input should be a valid integer, unable to parse string as an integer"
  | integerSize => "Unable to parse input string as an integer, exceeded maximum size"
  | fraction => "Input should be a valid integer, got a number with a fractional part"
  | notFinite => "Input should be a finite number"
  | notList .value => "Input should be a valid list"
  | notList .json => "Input should be a valid array"
  | notText => "Input should be a valid string"
  | rule wording => s!"Value error, {wording}"

/-- **A problem and where it is.** -/
structure Issue where
  problem : Problem
  /-- The way to the part that has it. -/
  location : List Step
deriving DecidableEq, Repr

/-- Why a value is no payload. -/
inductive Error where
  /-- It has issues. -/
  | issues (list : List Issue)
  /-- One of its numbers is of a kind that ends the validation. -/
  | number (e : NumberError)
deriving DecidableEq, Repr

/-! ## Sizes -/

/-- The integer that a text writes as JSON has it. That it is too long shows before its end is
seen. -/
def plainSize? (cs : List Char) : Option (Except Problem Int) :=
  let (negative, ds) := match cs with
    | '-' :: ds => (true, ds)
    | ds => (false, ds)
  match Json.takeWhole? ds with
  | some (ds, rest) =>
    if Json.maxWhole < Json.wholeSize negative ds then some (.error .integerSize)
    else if rest.isEmpty then
      some (.ok (if negative then -(Text.ofDigits ds : Int) else Text.ofDigits ds))
    else none
  | none => none

/-- The text without the zeros in front of a number, and the underscores among them. The number
behind a zero may have a minus sign. -/
def dropLeadingZeros? (cs : List Char) : Option (List Char) :=
  match cs with
  | '0' :: rest =>
    let tail := rest.dropWhile fun c => c == '0' || c == '_'
    match tail with
    | [] => some (cs.drop (cs.length - 1))
    | '.' :: _ => some (cs.drop (cs.length - tail.length - 1))
    | c :: _ => if ('1' ≤ c ∧ c ≤ '9') ∨ c = '-' then some tail else none
  | c :: _ => if '1' ≤ c ∧ c ≤ '9' then some cs else none
  | [] => none

/-- The text without a plus sign, and without the zeros behind the sign. -/
def dropSignedZeros? (cs : List Char) : Option (List Char) :=
  match cs with
  | '+' :: '-' :: _ => none
  | '+' :: rest => dropLeadingZeros? rest
  | '-' :: rest => (dropLeadingZeros? rest).map ('-' :: ·)
  | cs => dropLeadingZeros? cs

/-- The text without a point and the zeros behind it, if there are zeros and nothing else. -/
def dropZeroFraction (cs : List Char) : List Char :=
  let zeros := (cs.dropWhile (· ≠ '.')).drop 1
  if !zeros.isEmpty && zeros.all (· == '0') then cs.takeWhile (· ≠ '.') else cs

/-- Whether underscores stand neither at an end nor next to each other. -/
def singleUnderscores : (afterUnderscore : Bool) → List Char → Bool
  | afterUnderscore, [] => !afterUnderscore
  | afterUnderscore, c :: cs =>
    if c = '_' then !afterUnderscore && singleUnderscores true cs else singleUnderscores false cs

/-- The text as JSON would have the integer: without blanks around it, a plus sign, zeros in
front, a fraction of zeros and single underscores. -/
def cleanSize? (text : List Char) : Option (List Char) := do
  let cs ← dropSignedZeros? (Text.trim text)
  let cs := dropZeroFraction cs
  if cs.head? ≠ some '_' ∧ singleUnderscores false cs then some (cs.filter (· ≠ '_'))
  else some cs

/-- The integer that a text writes. Only a text that starts as JSON has it is told to be too
long. -/
def sizeOfText (text : List Char) : Except Problem Int :=
  match plainSize? text with
  | some result => result
  | none =>
    match (cleanSize? text).bind plainSize? with
    | some (.ok n) => .ok n
    | _ => .error .integerText

/-- The integer of a number without fraction, within the range of a word of eight octets. -/
def sizeOfReal (x : Binary64) : Except Problem Int :=
  match x.datum with
  | .finite negative units =>
    let n := units / Binary64.format.one
    if units % Binary64.format.one ≠ 0 then .error .fraction
    else if 0x8000000000000000 ≤ n then .error .integerSize
    else .ok (if negative then -(n : Int) else n)
  | _ => .error .notFinite

/-- **The integer of a value.** -/
def readSize : Value → Except Problem Int
  | .int n => .ok n
  | .bool b => .ok b.toNat
  | .real x => sizeOfReal x
  | .text s => sizeOfText s.toList
  | _ => .error .notInteger

/-! ## Fields -/

/-- The number of components, which is positive. -/
def checkLayerSize (value : Value) : Except Problem Int := do
  let n ← readSize value
  if n ≤ 0 then .error (.rule "layer_size must be positive") else .ok n

/-- The words of a list of texts, or the positions of the items that are none. -/
def checkWords : (index : Nat) → List Value → List String × List Issue
  | _, [] => ([], [])
  | index, .text s :: items =>
    let (words, issues) := checkWords (index + 1) items
    (s :: words, issues)
  | index, _ :: items =>
    let (words, issues) := checkWords (index + 1) items
    (words, ⟨.notText, [.field "vocab", .item index]⟩ :: issues)

/-- The vocabulary. -/
def checkVocab (form : Form) : Value → List String × List Issue
  | .list items => checkWords 0 items
  | _ => ([], [⟨.notList form, [.field "vocab"]⟩])

/-- The numbers. That a text writes no number, or that lists are not nested regularly, is an
issue; numbers of the wrong kind or range end the validation. -/
def checkVectors (value : Value) : Except NumberError (List Binary64 × List Issue) :=
  match value.numbers with
  | .ok xs => .ok (xs, [])
  | .error .tooLarge => .error .tooLarge
  | .error .record => .error .record
  | .error e => .ok ([], [⟨.rule e.message, [.field "vectors"]⟩])

/-- The issue of a missing field. -/
def missingIssue (name : String) : Issue := ⟨.missing, [.field name]⟩

/-- The payload of checked fields, if there is one vector per word. -/
def ofParts (layerSize : Nat) (vocab : List String) (vectors : List Binary64) :
    Except Error Payload :=
  if hpos : 0 < layerSize then
    if hlen : vectors.length = vocab.length * layerSize then
      .ok ⟨layerSize, vocab, vectors, hpos, hlen⟩
    else
      .error (.issues [⟨.rule (Numeral.withInteger (vocab.length * layerSize)
        (s!"expected {vocab.length * layerSize} values for {vocab.length} words of size " ++
          s!"{layerSize}, got {vectors.length}")), []⟩])
  else .error (.issues [⟨.rule "layer_size must be positive", [.field "layer_size"]⟩])

/-- The payload of the three fields as far as they are present. -/
def ofFields (form : Form) (layerSize vocab vectors : Option Value) : Except Error Payload := do
  let (size, sizeIssues) := match layerSize with
    | none => (0, [missingIssue "layer_size"])
    | some value =>
      match checkLayerSize value with
      | .ok n => (n, [])
      | .error problem => (0, [⟨problem, [.field "layer_size"]⟩])
  let (words, wordIssues) := match vocab with
    | none => ([], [missingIssue "vocab"])
    | some value => checkVocab form value
  let (numbers, numberIssues) ← match vectors with
    | none => .ok ([], [missingIssue "vectors"])
    | some value => (checkVectors value).mapError .number
  let issues := sizeIssues ++ wordIssues ++ numberIssues
  if issues.isEmpty then ofParts size.toNat words numbers else .error (.issues issues)

/-- **The payload of a dynamic value.** Other fields are ignored. -/
def validate (form : Form) : Value → Except Error Payload
  | .record fields =>
    ofFields form (Value.field? fields "layer_size") (Value.field? fields "vocab")
      (Value.field? fields "vectors")
  | _ => .error (.issues [⟨.notRecord form, []⟩])

/-- **The payload of a JSON text.** -/
def ofJson (text : String) : Except Error Payload :=
  match Json.read? Json.maxWhole Json.maxDepth text.toList with
  | none => .error (.issues [⟨.notJson, []⟩])
  | some value => validate .json value

end WordVectors.Payload
