import WordVectors.Decimal.Places
import WordVectors.Error
import WordVectors.Report.Progress
import WordVectors.Store.Basic

/-!
# Binary models

A binary model is a line with the number of words and the number of components, and then one
record per word: the token, a space, and the components in four octets each. A newline may follow
each record and is read as part of the next token, from which newlines are dropped.

A model is read through a window that moves between records, so a record has to lie in one
window. The segments for the vectors that the first line declares are made before any of them is
read.

## Main definitions

* `Binary.parseHeader`: the two sizes of the first line
* `Binary.Plan`, `Binary.Request`: how a model is read, and what a caller may leave open
* `Binary.decode`: the model in a file
* `Binary.octets`, `Binary.encode`: the octets of a model
-/

namespace WordVectors.Binary

/-! ## The first line -/

/-- The text of a line of ASCII. -/
def asciiText? (line : Bytes) : Option (List Char) :=
  if line.all (· < 0x80) then some (line.map fun b => Char.ofNat b.toNat) else none

/-- **The number of words and of components** that a first line gives. -/
def parseHeader (line : Bytes) (file : String) : Except HeaderError (Nat × Nat) :=
  match asciiText? line with
  | none => .error (.notAscii file line)
  | some cs =>
    let text := String.ofList cs
    let before := cs.takeWhile (· ≠ ' ')
    match cs.dropWhile (· ≠ ' ') with
    | [] => .error (.noSpace file text)
    | _ :: after =>
      match Numeral.readInt before, Numeral.readInt after with
      | .ok vocabSize, .ok layerSize =>
        if vocabSize < 0 ∨ layerSize ≤ 0 then .error (.sizes file text)
        else .ok (vocabSize.toNat, layerSize.toNat)
      | _, _ => .error (.notIntegers file text)

/-! ## Requests -/

/-- **How a model is read.** -/
structure Plan where
  order : ByteOrder
  /-- The greatest size of a segment. -/
  capacity : Int
  /-- How far the window moves at a time. -/
  stride : Int
  /-- The greatest size of the window. -/
  limit : Int
  /-- What becomes of tokens that are not UTF-8. -/
  recovery : Utf8.Recovery
  /-- Whether a progress line is due after that many vectors. -/
  reportDue : Nat → Bool

/-- What a caller asks for; what is left open, zero or empty is taken from the settings. -/
structure Request where
  byteOrder : Option String
  capacity : Option Int
  stride : Option Int
  limit : Option Int
  recovery : String

/-- The request that leaves everything open. -/
def Request.unspecified : Request := ⟨none, none, none, none, "strict"⟩

/-- A size asked for, or else the default. -/
def sizeOr (asked : Option Int) (default : Int) : Int :=
  match asked with
  | none => default
  | some n => if n = 0 then default else n

/-- The byte order with a given name. -/
def orderNamed (name : String) : Except ModelError ByteOrder :=
  match ByteOrder.ofName? name with
  | some order => .ok order
  | none => .error (.byteOrder name)

/-- The name of a byte order asked for, or else the default. -/
def nameOr (asked : Option String) (default : String) : String :=
  match asked with
  | none => default
  | some name => if name.isEmpty then default else name

/-- The plan for a request. A progress line is due after every vector if the interval between two
lines is negative. -/
def Request.plan (r : Request) (s : Settings) : Except ModelError Plan := do
  let order ← orderNamed (nameOr r.byteOrder s.byteOrder)
  .ok {
    order
    capacity := sizeOr r.capacity s.segmentCapacity
    stride := sizeOr r.stride s.stride
    limit := sizeOr r.limit s.windowLimit
    recovery := .ofName r.recovery
    reportDue := fun _ => s.progressInterval.isBelowZero }

/-! ## Reading -/

/-- A word with its vector. -/
abbrev Record := String × List Binary64

variable (plan : Plan)

/-- The record at the position of a window. -/
def readRecord (layerSize : Nat) (w : Window) : Except ModelError (Record × Window) := do
  let (token, w) ← w.readToken.mapError .window
  let word ← (Utf8.decode plan.recovery token).mapError .encoding
  let (floats, w) ← (w.readFloats layerSize plan.order).mapError .window
  .ok ((word, floats.map Binary32.widen), w)

/-- The line that reports how many vectors were read. -/
def loadedLine (done vocabSize : Nat) : String :=
  let share := (Binary64.ofRatio false done vocabSize).mul (.ofRatio false 100 1)
  s!"Loaded {done}/{vocabSize} vectors ({String.ofList (share.fixedText 6)}%)"

/-- The name of the section for the window after the next move. -/
def windowLine (w : Window) : String :=
  let size := min ((w.file.size : Int) - w.nextOffset) w.limit
  s!"Reading gigabyte #{w.moves + 1}. Start: {w.nextOffset}, size: {size}"

/-- Move the window if that is due, in a section of its own. -/
def moveOn (w : Window) (p : Progress) : Progress × Except ModelError Window :=
  if w.isDue then
    let p := p.restart (windowLine w)
    match w.advance with
    | (w, .ok ()) => (p, .ok w)
    | (_, .error e) => (p, .error (.window e))
  else (p, .ok w)

/-- The records that are left, when `done` of `vocabSize` were read. -/
def readRecords (vocabSize layerSize : Nat) : (left : Nat) → Window → Progress →
    Progress × Except ModelError (List Record × Window)
  | 0, w, p => (p, .ok ([], w))
  | left + 1, w, p =>
    match readRecord plan layerSize w with
    | .error e => (p, .error e)
    | .ok (record, w) =>
      let done := vocabSize - left
      let p := if plan.reportDue done then p.note (loadedLine done vocabSize) else p
      match moveOn w p with
      | (p, .error e) => (p, .error e)
      | (p, .ok w) =>
        match readRecords vocabSize layerSize left w p with
        | (p, .error e) => (p, .error e)
        | (p, .ok (records, w)) => (p, .ok (record :: records, w))

/-- A model that was read. -/
structure Decoded where
  store : Store
  /-- How often the window was moved. -/
  moves : Nat

/-- The store of records, in segments of `perSegment` vectors. -/
def storeOf (layerSize perSegment : Nat) (records : List Record) : Except StoreError Store :=
  let sizes := partition records.length layerSize perSegment
  Store.ofSegments (records.map Prod.fst) layerSize (cut sizes (records.flatMap Prod.snd))
    (some perSegment)

/-- The model that a reading of its records comes to. -/
def ofReading (layerSize perSegment : Nat) :
    Progress × Except ModelError (List Record × Window) → Progress × Except ModelError Decoded
  | (p, .error e) => (p, .error e)
  | (p, .ok (records, w)) =>
    match storeOf layerSize perSegment records with
    | .error e => (p, .error (.store e))
    | .ok store => (p, .ok ⟨store, w.moves⟩)

section Memory

variable [Memory]

/-- The model behind the first line, read through a window at the front of the file. -/
def decodeFrom (file : String) (w : Window) (p : Progress) :
    Progress × Except ModelError Decoded :=
  match w.readUntil [Window.newline] "header" with
  | .error _ => (p, .error (.header (.unterminated file)))
  | .ok (line, w) =>
    match parseHeader line file with
    | .error e => (p, .error (.header e))
    | .ok (vocabSize, layerSize) =>
      let p := p.note s!"Loading {vocabSize} vectors with dimensionality {layerSize}"
      match vectorsPerSegment layerSize plan.capacity with
      | .error e => (p, .error (.store (.capacity e)))
      | .ok perSegment =>
        match Room.checkSegments vocabSize layerSize perSegment with
        | .error e => (p, .error (.room e))
        | .ok () =>
          ofReading layerSize perSegment (readRecords plan vocabSize layerSize vocabSize w p)

/-- **The model in a file**, whose name is given for messages. -/
def decode (file : String) (content : Bytes) (p : Progress) :
    Progress × Except ModelError Decoded :=
  p.within "Loading vectors from bin file" fun p =>
    if content.isEmpty then (p, .error (.header (.emptyFile file)))
    else
      match Window.ofFile content plan.limit plan.stride with
      | .error e => (p, .error (.window e))
      | .ok w => p.within "Reading gigabyte #1" (decodeFrom plan file w)

end Memory

/-! ## Writing -/

/-- The first line of a model. -/
def headerLine (store : Store) : Bytes :=
  Utf8.encode s!"{store.vocabSize} {store.layerSize}\n"

/-- The octets of a record, with a newline after it. -/
def encodeRecord (record : Record) : Bytes :=
  Utf8.encode record.1 ++ Window.space :: (record.2.flatMap fun x => x.narrow.toBytes) ++
    [Window.newline]

/-- The octets of a model, least significant octet of a component first. -/
def octets (store : Store) : Bytes :=
  headerLine store ++ store.entries.flatMap encodeRecord

/-- **The octets of a model**, if its sizes can be written and its vectors laid out. -/
def encode (store : Store) : Except WriteError Bytes :=
  if store.isTooLong then .error .numeral
  else match store.checkRows 4 with
  | .error e => .error (.room e)
  | .ok () => .ok (octets store)

end WordVectors.Binary
