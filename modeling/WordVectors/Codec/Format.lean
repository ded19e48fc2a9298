import WordVectors.Codec.Binary
import WordVectors.Codec.Compact
import WordVectors.Codec.Text
import WordVectors.Report.Journal

/-!
# Formats of model files

A model is kept in one of three formats. Reading and writing leave an entry in the journal that
names the file and the extent of the model.

## Main definitions

* `Format`: the formats
* `Format.load`: the model in a file of a format
* `Format.encode`: the octets of a model in a format
* `Format.head`: those that a model leaves which cannot be written
* `Format.readMessage`, `Format.writtenMessage`: the journal messages
-/

namespace WordVectors

/-- **The formats of model files.** -/
inductive Format where
  /-- Components in four octets each. -/
  | binary
  /-- Components as decimal numbers. -/
  | text
  /-- Components in eight octets each. -/
  | compact
deriving DecidableEq, Repr

namespace Format

/-- The name of a format. -/
def name : Format → String
  | binary => "bin"
  | text => "text"
  | compact => "compact"

/-- The names of all formats. -/
def names : List String := [binary.name, text.name, compact.name]

/-- The format with a given name. -/
def ofName? (name : String) : Option Format :=
  [binary, text, compact].find? fun format => format.name == name

/-- The format with a given name. -/
def named (name : String) : Except ModelError Format :=
  match ofName? name with
  | some format => .ok format
  | none => .error (.format name)

/-- The details of a journal entry that give the extent of a model. -/
def extent (store : Store) : Fields :=
  [("vocab_size", .int store.vocabSize), ("layer_size", .int store.layerSize)]

/-- The message that a model was read from `file`. -/
def readMessage (format : Format) (file : String) (details : Fields) : String :=
  Journal.codecMessage format.name "decode" (some file) details "success"

/-- The message that a model was written, to the file `path` if it has one. -/
def writtenMessage (format : Format) (path : Option String) (store : Store) : String :=
  Journal.codecMessage format.name "encode" path (extent store) "success"

/-- The message that a binary model was read. -/
def decodedMessage (file : String) (decoded : Binary.Decoded) : String :=
  readMessage binary file (extent decoded.store ++
    [("segments", .int decoded.store.segments.length), ("remaps", .int decoded.moves)])

/-- A model with the journal message that tells how it came about. -/
structure Loaded where
  store : Store
  message : String

/-- The model in a text or compact file. Of the request only the capacity counts; a byte order is
an error. -/
def loadWhole (format : Format) (request : Binary.Request) (file : String)
    (decode : Option Int → Except ModelError Store) : Except ModelError Loaded :=
  if request.byteOrder.isSome then .error (.orderUnused format.name)
  else (decode request.capacity).map fun store => ⟨store, readMessage format file (extent store)⟩

/-- **The model in a file** whose name is given for messages. Only a binary model is read in
windows and reports its progress. -/
def load [Memory] (format : Format) (settings : Settings) (request : Binary.Request) (file : String)
    (content : Bytes) (p : Progress) : Progress × Except ModelError Loaded :=
  match format with
  | binary =>
    match request.plan settings with
    | .error e => (p, .error e)
    | .ok plan =>
      let (p, result) := Binary.decode plan file content p
      (p, result.map fun decoded => ⟨decoded.store, decodedMessage file decoded⟩)
  | text => (p, loadWhole format request file (TextModel.decodeBytes content file))
  | compact => (p, loadWhole format request file (Compact.decode content))

/-- **The octets of a model** in a format. -/
def encode (format : Format) (store : Store) : Except WriteError Bytes :=
  match format with
  | binary => Binary.encode store
  | text => (TextModel.encode store).map Utf8.encode
  | compact => Compact.encode store

/-- The octets that are written of a model before it is found that it cannot be written. -/
def head (format : Format) (store : Store) : Bytes :=
  match format with
  | binary => if store.isTooLong then [] else Binary.headerLine store
  | text =>
    if store.isTooLong then [] else Utf8.encode (String.ofList (TextModel.headerLine store))
  | compact => Compact.head store

end Format

end WordVectors
