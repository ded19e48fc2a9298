import WordVectors.Json.Numbers
import WordVectors.Settings
import WordVectors.Store.Room
import WordVectors.Text.Utf8

/-!
# Errors

Every operation on a model fails for a cause that its error names; the wording is a function of
the cause. Failures of the operation that was asked for are reported to the user of the command
line, while the others tell of values that the formats do not cover.

## Main definitions

* `HeaderError`, `SizeMismatch`, `CompactError`: causes in model files
* `FileError`: causes in the file system
* `ModelError`: all causes
* `ModelError.message`, `ModelError.isReported`: the wording, and whether it is reported
-/

namespace WordVectors

/-- Why the first line of a model file is malformed. -/
inductive HeaderError where
  | emptyFile (file : String)
  /-- The first line of a binary model has no end. -/
  | unterminated (file : String)
  | notAscii (file : String) (line : Bytes)
  | noSpace (file text : String)
  | noLine (file : String)
  /-- The first line of a text model has not two fields. -/
  | fieldCount (file line : String)
  | notIntegers (file text : String)
  /-- The sizes of a binary model are out of range. -/
  | sizes (file text : String)
  /-- The vectors of a text model have no component. -/
  | layerSize (file : String) (got : Int)
deriving DecidableEq, Repr

/-- The wording of a header error; at most 64 octets of a line are shown. -/
def HeaderError.message : HeaderError → String
  | emptyFile file => s!"Expected a header line in empty file '{file}'"
  | unterminated file => s!"Expected a newline-terminated header in file '{file}'"
  | notAscii file line =>
    s!"Expected an ASCII header in the first line of file '{file}': " ++
      Text.quoteBytes (line.take 64)
  | noSpace file text => s!"Expected a space in the first line of file '{file}': '{text}'"
  | noLine file => s!"Expected a header line in file '{file}'"
  | fieldCount file line =>
    s!"Expected '<vocab size> <layer size>' in the first line of file '{file}': '{line}'"
  | notIntegers file text =>
    s!"Expected two integers in the first line of file '{file}': '{text}'"
  | sizes file text => s!"Invalid sizes in the first line of file '{file}': '{text}'"
  | layerSize file got => s!"Invalid layer size {got} in file '{file}'"

/-- **A size in a text model that disagrees with the first line.** Line zero stands for the number
of lines. -/
structure SizeMismatch where
  file : String
  line : Nat
  /-- The size that the first line gives. -/
  expected : Int
  /-- The size found. -/
  actual : Int
deriving DecidableEq, Repr

/-- The wording of a size mismatch. -/
def SizeMismatch.message (e : SizeMismatch) : String :=
  if e.line = 0 then
    s!"For file '{e.file}', vocab size is {e.expected}, " ++
      s!"but there are {e.actual} word vectors in the file"
  else
    s!"For file '{e.file}', on line {e.line}, layer size is {e.expected}, " ++
      s!"but found {e.actual} values in the word vector"

/-- What a compact model ends inside of. -/
inductive CompactPart where
  | header
  /-- The token with this number. -/
  | token (index : Nat)
deriving DecidableEq, Repr

/-- The wording of a part of a compact model. -/
def CompactPart.message : CompactPart → String
  | header => "header"
  | token index => s!"token #{index}"

/-- Why a compact model is invalid. -/
inductive CompactError where
  | truncated (part : CompactPart)
  /-- The model ends inside its vectors. -/
  | truncatedValues (got expected : Nat)
  /-- The model does not start with the mark of the format. -/
  | magic (octets : Bytes)
  | version (got : Nat)
  /-- The vectors have no component. -/
  | layerSize
deriving DecidableEq, Repr

/-- The wording of a compact error. -/
def CompactError.message : CompactError → String
  | truncated part => s!"Unexpected end of compact model while reading {part.message}"
  | truncatedValues got expected =>
    s!"Unexpected end of compact model after {got} of {expected} values"
  | magic octets => s!"Not a compact model (magic {Text.quoteBytes octets})"
  | version got => s!"Unsupported compact model version {got}"
  | layerSize => "Compact model declares a layer size of 0"

/-- Why a file cannot be opened. -/
inductive FileError where
  /-- There is no such file. -/
  | absent (path : String)
  /-- The path leads through a file. -/
  | notDirectory (path : String)
  | isDirectory (path : String)
  /-- The path or a name in it is too long. -/
  | tooLong (path : String)
  /-- There is a null character in the path. -/
  | nul
  /-- Some other cause, as the system words it. -/
  | other (wording : String)
deriving DecidableEq, Repr

/-- The wording of a file error. -/
def FileError.message : FileError → String
  | absent path => s!"[Errno 2] No such file or directory: {Text.quote path}"
  | notDirectory path => s!"[Errno 20] Not a directory: {Text.quote path}"
  | isDirectory path => s!"[Errno 21] Is a directory: {Text.quote path}"
  | tooLong path => s!"[Errno 36] File name too long: {Text.quote path}"
  | nul => "embedded null byte"
  | other wording => wording

/-- Why a model cannot be written. -/
inductive WriteError where
  /-- A size does not fit its field. -/
  | fieldRange
  /-- A size does not fit any field. -/
  | wordRange
  /-- A size has too many digits. -/
  | numeral
  /-- The vectors cannot be laid out in rows. -/
  | room (e : RoomError)
deriving DecidableEq, Repr

/-- The wording of a write error. -/
def WriteError.message : WriteError → String
  | fieldRange => "'I' format requires 0 <= number <= 4294967295"
  | wordRange => "argument out of range"
  | numeral => Numeral.tooLongMessage
  | room e => e.message

/-- **Why an operation on a model fails.** -/
inductive ModelError where
  | header (e : HeaderError)
  /-- A size disagrees with the first line. -/
  | size (e : SizeMismatch)
  | compact (e : CompactError)
  /-- A vector lookup is out of range. -/
  | index (e : IndexError)
  | unknownWord (word : String)
  /-- A file cannot be opened. -/
  | file (e : FileError)
  /-- A window cannot be opened, moved or read. -/
  | window (e : WindowError)
  | encoding (e : Utf8.Error)
  /-- There is no store. -/
  | store (e : StoreError)
  /-- There is no room for the vectors. -/
  | room (e : RoomError)
  /-- A value of a text model is no number. -/
  | value (file : String) (line : Nat) (text : String)
  /-- A value has no numbers. -/
  | number (e : NumberError)
  | byteOrder (name : String)
  /-- A byte order is given for a file of a format that has none. -/
  | orderUnused (format : String)
  | backend (name : String)
  | format (name : String)
  | noFormat
  /-- No number of words is given. -/
  | noCount
  /-- A query vector has the wrong number of components. -/
  | query (got expected : Nat)
  | write (e : WriteError)
  | noOutput
deriving DecidableEq, Repr

/-- The wording of the failure to decode UTF-8. -/
def Utf8.Error.message : Utf8.Error → String
  | malformed octets position reason =>
    match octets with
    | [b] =>
      s!"'utf-8' codec can't decode byte 0x{String.ofList (Text.hex 2 b.toNat)} in position " ++
        s!"{position}: {reason.message}"
    | _ =>
      s!"'utf-8' codec can't decode bytes in position {position}-" ++
        s!"{position + octets.length - 1}: {reason.message}"
  | surrogate => "surrogates are no characters of a text"
  | writingOnly _ => "don't know how to handle UnicodeDecodeError in error callback"
  | unknownRecovery name => s!"unknown error handler name '{name}'"

namespace ModelError

/-- How messages show that a value is missing. -/
def noValue : String := "[]"

/-- The wording of an unknown format, as messages show it. -/
def formatMessage (shown : String) : String :=
  s!"Unknown model format {shown}, expected one of ('bin', 'text', 'compact')"

/-- The wording of an error. -/
def message : ModelError → String
  | header e => e.message
  | size e => e.message
  | compact e => e.message
  | index e => e.message
  | unknownWord word => s!"Unknown word: {Text.quote word}"
  | file e => e.message
  | window e => e.message
  | encoding e => e.message
  | store e => e.message
  | room e => e.message
  | value path line text =>
    s!"For file '{path}', on line {line}: {Numeral.realMessage text.toList}"
  | number e => e.message
  | byteOrder name => s!"byte_order must be 'little' or 'big', got {Text.quote name}"
  | orderUnused name =>
    s!"Word2VecModel.from_{name}_file() got an unexpected keyword argument 'byte_order'"
  | backend name => Backend.unknownMessage name
  | format name => formatMessage (Text.quote name)
  | noFormat => formatMessage noValue
  | noCount => "slice indices must be integers or None or have an __index__ method"
  | query got expected => s!"Query vector has {got} components, expected {expected}"
  | write e => e.message
  | noOutput => "expected str, bytes or os.PathLike object, not list"

/-- Whether the command line reports an error: those of model files, of lookups, of the file
system, and of files that end too early. -/
def isReported : ModelError → Bool
  | header _ => true
  | size _ => true
  | compact _ => true
  | index _ => true
  | unknownWord _ => true
  | file e => e ≠ .nul
  | window e => e.isEnd
  | _ => false

end ModelError

/-! ## Results -/

section Results

variable {ε ε' α β : Type} {r : Except ε α}

theorem exists_of_map_eq_ok {f : α → β} {b : β} (h : r.map f = .ok b) :
    ∃ a, r = .ok a ∧ f a = b := by
  cases r with
  | error e => cases h
  | ok a => exact ⟨a, rfl, Except.ok.inj h⟩

theorem exists_of_bind_eq_ok {f : α → Except ε β} {b : β} (h : r.bind f = .ok b) :
    ∃ a, r = .ok a ∧ f a = .ok b := by
  cases r with
  | error e => cases h
  | ok a => exact ⟨a, rfl, h⟩

theorem eq_ok_of_mapError_eq_ok {f : ε → ε'} {a : α} (h : r.mapError f = .ok a) : r = .ok a := by
  cases r with
  | error e => cases h
  | ok a' => exact congrArg Except.ok (Except.ok.inj h)

theorem map_eq_error_iff {f : α → β} {e : ε} : r.map f = .error e ↔ r = .error e := by
  cases r with
  | error e' => simp [Except.map]
  | ok a => simp [Except.map]

/-- Of two steps the first fails, or the second does. -/
theorem cases_of_bind_eq_error {f : α → Except ε β} {e : ε} (h : r.bind f = .error e) :
    r = .error e ∨ ∃ a, r = .ok a ∧ f a = .error e := by
  cases r with
  | error e' => exact .inl (congrArg Except.error (Except.error.inj h))
  | ok a => exact .inr ⟨a, rfl, h⟩

theorem exists_of_mapError_eq_error {f : ε → ε'} {e : ε'} (h : r.mapError f = .error e) :
    ∃ e', r = .error e' ∧ f e' = e := by
  cases r with
  | error e' => exact ⟨e', rfl, Except.error.inj h⟩
  | ok a => cases h

end Results

end WordVectors
