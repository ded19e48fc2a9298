import WordVectors.Error
import WordVectors.Store.Basic

/-!
# Compact models

A compact model keeps every number with full precision. It has a header of fixed size, then the
tokens, each after its length, and then all numbers in eight octets each. What follows is not
part of the model.

## Main definitions

* `Compact.Header`: the sizes in the header
* `Compact.decode`: the model at the front of a byte string
* `Compact.octets`, `Compact.encode`: the octets of a model
* `Compact.head`: those that are written of a model whose sizes do not fit
-/

namespace WordVectors.Compact

/-- The octets that every compact model starts with. -/
def magic : Bytes := [0x57, 0x32, 0x56, 0x43]

/-- The version of the format. -/
def version : Nat := 1

/-- The number of octets of a header. -/
def headerSize : Nat := 17

/-! ## Reading -/

/-- The sizes in a header. -/
structure Header where
  /-- The number of components of a vector. -/
  layerSize : Nat
  /-- The number of words. -/
  vocabSize : Nat
deriving DecidableEq, Repr

/-- The first `count` octets and what follows them, if there are as many. -/
def take? (count : Nat) (bs : Bytes) : Option (Bytes × Bytes) :=
  let taken := bs.take count
  if taken.length < count then none else some (taken, bs.drop count)

/-- The sizes that a header gives, and what follows it. -/
def readHeader (bs : Bytes) : Except CompactError (Header × Bytes) :=
  match take? headerSize bs with
  | none => .error (.truncated .header)
  | some (fields, rest) =>
    let mark := fields.take 4
    let number := Bytes.toNatLE ((fields.drop 4).take 1)
    let layerSize := Bytes.toNatLE ((fields.drop 5).take 4)
    let vocabSize := Bytes.toNatLE ((fields.drop 9).take 8)
    if mark ≠ magic then .error (.magic mark)
    else if number ≠ version then .error (.version number)
    else if layerSize = 0 then .error .layerSize
    else .ok (⟨layerSize, vocabSize⟩, rest)

/-- The token with number `index`, and what follows it. -/
def readToken (index : Nat) (bs : Bytes) : Except ModelError (String × Bytes) :=
  match take? 4 bs with
  | none => .error (.compact (.truncated (.token index)))
  | some (length, bs) =>
    match take? (Bytes.toNatLE length) bs with
    | none => .error (.compact (.truncated (.token index)))
    | some (token, rest) =>
      match Utf8.decode .strict token with
      | .error e => .error (.encoding e)
      | .ok word => .ok (word, rest)

/-- The next `left` tokens, the first of which has number `index`, and what follows them. -/
def readTokens : (index left : Nat) → Bytes → Except ModelError (List String × Bytes)
  | _, 0, bs => .ok ([], bs)
  | index, left + 1, bs => do
    let (word, bs) ← readToken index bs
    let (words, bs) ← readTokens (index + 1) left bs
    .ok (word :: words, bs)

section Memory

variable [Memory]

/-- The next `count` numbers, for which an array is made first. -/
def readValues (count : Nat) (bs : Bytes) : Except ModelError (List Binary64) :=
  match Room.checkArray 0 count with
  | .error e => .error (.room e)
  | .ok () =>
    if bs.length < count * 8 then .error (.compact (.truncatedValues (bs.length / 8) count))
    else .ok ((chunks 8 count bs).map Binary64.ofBytes)

/-- **The model at the front of a byte string**, in a single segment unless a capacity is
given. -/
def decode (bs : Bytes) (capacity : Option Int) : Except ModelError Store := do
  let (header, bs) ← (readHeader bs).mapError .compact
  let (words, bs) ← readTokens 0 header.vocabSize bs
  let values ← readValues (header.vocabSize * header.layerSize) bs
  (Store.ofDense words header.layerSize values capacity).mapError .store

end Memory

/-! ## Writing -/

/-- The octets of a token after those of its length. -/
def encodeToken (word : String) : Bytes :=
  let octets := Utf8.encode word
  Bytes.ofNatLE 4 octets.length ++ octets

/-- The octets of a header. -/
def encodeHeader (header : Header) : Bytes :=
  magic ++ Bytes.ofNatLE 1 version ++ Bytes.ofNatLE 4 header.layerSize ++
    Bytes.ofNatLE 8 header.vocabSize

/-- The octets of a model whose sizes fit their fields. -/
def octets (store : Store) : Bytes :=
  encodeHeader ⟨store.layerSize, store.vocabSize⟩ ++ store.vocab.flatMap encodeToken ++
    store.flatten.flatMap Binary64.toBytes

/-- Numbers in fields of four octets are below this. -/
def fieldLimit : Nat := 0x100000000

/-- Whether the length of a token fits its field. -/
def fitsField (word : String) : Bool := (Utf8.encode word).length < fieldLimit

/-- What is written of a model whose sizes do not fit their fields: the header, unless it is the
number of components that does not, and the tokens in front of the first that is too long. -/
def head (store : Store) : Bytes :=
  if fieldLimit ≤ store.layerSize then []
  else encodeHeader ⟨store.layerSize, store.vocabSize⟩ ++
    (store.vocab.takeWhile fitsField).flatMap encodeToken

/-- **The octets of a model.** The number of components and the length of every token have to fit
in four octets. -/
def encode (store : Store) : Except WriteError Bytes :=
  if 0x10000000000000000 ≤ store.layerSize then .error .wordRange
  else if fieldLimit ≤ store.layerSize then .error .fieldRange
  else if !store.vocab.all fitsField then .error .fieldRange
  else .ok (octets store)

end WordVectors.Compact
