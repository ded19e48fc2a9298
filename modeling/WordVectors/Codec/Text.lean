import WordVectors.Decimal.Notation
import WordVectors.Error
import WordVectors.Store.Basic
import WordVectors.Text.Split

/-!
# Text models

A text model has a line with the number of words and the number of components, and then a line
per word: the word and its components, separated by spaces. Components are written with the
precision of four octets.

## Main definitions

* `TextModel.numbers`: the notation of components
* `TextModel.decode`: the model in a list of lines
* `TextModel.decodeBytes`: the model in a file
* `TextModel.text`, `TextModel.encode`: the text of a model
-/

namespace WordVectors.TextModel

open Text

/-- Components are positional from `0.0001` up to below a million, by their exact values, and
their exponents have at least two digits. -/
def numbers : Notation where
  isPositional _ num den := den ≤ num * 10000 && num < 1000000 * den
  exponentDigits := 2

/-! ## Reading -/

/-- The numbers of words and of components that the first line gives. -/
def parseHeader (line : String) (file : String) : Except ModelError (Int × Nat) :=
  match splitFields line.toList with
  | [vocabField, layerField] =>
    match Numeral.readInt vocabField, Numeral.readInt layerField with
    | .ok vocabSize, .ok layerSize =>
      if layerSize ≤ 0 then .error (.header (.layerSize file layerSize))
      else .ok (vocabSize, layerSize.toNat)
    | _, _ => .error (.header (.notIntegers file line))
  | _ => .error (.header (.fieldCount file line))

/-- The numbers of the fields on line `n`. -/
def parseValues (file : String) (n : Nat) : List (List Char) → Except ModelError (List Binary64)
  | [] => .ok []
  | field :: fields =>
    match Binary64.read? field with
    | none => .error (.value file n (String.ofList field))
    | some x => (parseValues file n fields).map (x :: ·)

/-- The word and the vector on line `n`. -/
def parseLine (layerSize : Nat) (file : String) (n : Nat) (line : String) :
    Except ModelError (String × List Binary64) :=
  let fields := splitFields line.toList
  if fields.length ≠ layerSize + 1 then
    .error (.size ⟨file, n, layerSize, (fields.length : Int) - 1⟩)
  else
    (parseValues file n fields.tail).map fun vector =>
      (String.ofList (fields.head?.getD []), vector)

/-- The words and vectors on the lines from line `n` on. -/
def parseLines (layerSize : Nat) (file : String) : (n : Nat) → List String →
    Except ModelError (List (String × List Binary64))
  | _, [] => .ok []
  | n, line :: lines => do
    let entry ← parseLine layerSize file n line
    let entries ← parseLines layerSize file (n + 1) lines
    .ok (entry :: entries)

section Memory

variable [Memory]

/-- **The model in a list of lines**, in a single segment unless a capacity is given. The array for
the vectors is made before the lines behind the first are looked at. -/
def decode (lines : List String) (file : String) (capacity : Option Int) :
    Except ModelError Store :=
  match lines with
  | [] => .error (.header (.noLine file))
  | first :: lines => do
    let (vocabSize, layerSize) ← parseHeader first file
    if vocabSize ≠ lines.length then
      .error (.size ⟨file, 0, vocabSize, lines.length⟩)
    else
      (Room.checkArray 0 (lines.length * layerSize)).mapError .room
      let entries ← parseLines layerSize file 1 lines
      (Store.ofDense (entries.map Prod.fst) layerSize (entries.flatMap Prod.snd)
        capacity).mapError .store

end Memory

/-- The lines of a text. -/
def lines (text : String) : List String :=
  (splitLines text.toList).map String.ofList

/-- The lines of a file, whose line endings may be of any kind. -/
def fileLines (text : String) : List String :=
  (splitLines (unifyNewlines text.toList)).map String.ofList

/-- **The model in a file.** -/
def decodeBytes [Memory] (content : Bytes) (file : String) (capacity : Option Int) :
    Except ModelError Store := do
  let text ← (Utf8.decode .strict content).mapError .encoding
  decode (fileLines text) file capacity

/-! ## Writing -/

/-- The text of a component. -/
def writeValue (x : Binary64) : List Char :=
  x.narrow.text numbers

/-- The line of a word and its vector, with its newline. -/
def writeLine (entry : String × List Binary64) : List Char :=
  entry.1.toList ++ (entry.2.flatMap fun x => ' ' :: writeValue x) ++ ['\n']

/-- The first line of a model, with its newline. -/
def headerLine (store : Store) : List Char :=
  digits store.vocabSize ++ ' ' :: digits store.layerSize ++ ['\n']

/-- The text of a model. -/
def text (store : Store) : String :=
  String.ofList (headerLine store ++ store.entries.flatMap writeLine)

/-- **The text of a model**, if its sizes can be written and its vectors laid out. -/
def encode (store : Store) : Except WriteError String :=
  if store.isTooLong then .error .numeral
  else match store.checkRows Room.numberWidth with
  | .error e => .error (.room e)
  | .ok () => .ok (text store)

end WordVectors.TextModel
