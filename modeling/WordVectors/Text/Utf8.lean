import WordVectors.Bytes
import WordVectors.Text.Hex

/-!
# UTF-8

Tokens and text files are stored as UTF-8. A reader splits the octets into pieces, one octet at a
time: each piece is a character, or a shortest run of octets that cannot be part of one, together
with the reason. What becomes of a malformed piece is decided afterwards, by a recovery, so that
every recovery sees the same pieces.

## Main definitions

* `Utf8.encode`: the octets of a text
* `Utf8.Piece`, `Utf8.scan`: the pieces of a byte string
* `Utf8.Recovery`: what becomes of a malformed piece
* `Utf8.decode`: the text of a byte string under a recovery
-/

namespace WordVectors.Utf8

/-! ## Writing -/

/-- The octets of a character: one to four, the first of which tells their number. -/
def encodeChar (c : Char) : Bytes :=
  let n := c.toNat
  if n < 0x80 then [UInt8.ofNat n]
  else if n < 0x800 then [UInt8.ofNat (0xC0 + n / 64), UInt8.ofNat (0x80 + n % 64)]
  else if n < 0x10000 then
    [UInt8.ofNat (0xE0 + n / 4096), UInt8.ofNat (0x80 + n / 64 % 64), UInt8.ofNat (0x80 + n % 64)]
  else
    [UInt8.ofNat (0xF0 + n / 262144), UInt8.ofNat (0x80 + n / 4096 % 64),
      UInt8.ofNat (0x80 + n / 64 % 64), UInt8.ofNat (0x80 + n % 64)]

/-- The octets of a text. -/
def encode (s : String) : Bytes :=
  s.toList.flatMap encodeChar

/-! ## Pieces -/

/-- Why a run of octets cannot be part of a character. -/
inductive Reason where
  /-- The first octet starts no character. -/
  | startByte
  /-- The octet that follows does not continue the character. -/
  | continuation
  /-- The byte string ends inside the character. -/
  | truncated
deriving DecidableEq, Repr

namespace Reason

/-- The wording of a reason. -/
def message : Reason → String
  | startByte => "invalid start byte"
  | continuation => "invalid continuation byte"
  | truncated => "unexpected end of data"

end Reason

/-- A character, or a shortest malformed run. -/
inductive Piece where
  | char (c : Char)
  /-- Octets that cannot be part of a character. -/
  | malformed (octets : Bytes) (reason : Reason)
deriving DecidableEq

/-- The octets that a piece was read from. -/
def Piece.octets : Piece → Bytes
  | char c => encodeChar c
  | malformed octets _ => octets

/-- **An unfinished character**: the octets seen, the number they spell so far, how many are
missing, and the range of the next one. The range is narrower than that of all continuations
after a first octet whose full range would include overlong forms, surrogates or numbers past the
last code point. -/
structure Pending where
  /-- The octets seen so far. -/
  seen : Bytes
  /-- The number that they spell. -/
  value : Nat
  /-- How many octets are missing after the next one. -/
  missing : Nat
  /-- The least next octet. -/
  low : UInt8
  /-- The greatest next octet. -/
  high : UInt8
deriving DecidableEq

/-- Read the first octet of a character. -/
def start (b : UInt8) : List Piece × Option Pending :=
  if b < 0x80 then ([.char (Char.ofNat b.toNat)], none)
  else if b < 0xC2 then ([.malformed [b] .startByte], none)
  else if b < 0xE0 then ([], some ⟨[b], b.toNat - 0xC0, 0, 0x80, 0xBF⟩)
  else if b < 0xF0 then
    ([], some ⟨[b], b.toNat - 0xE0, 1, if b = 0xE0 then 0xA0 else 0x80,
      if b = 0xED then 0x9F else 0xBF⟩)
  else if b < 0xF5 then
    ([], some ⟨[b], b.toNat - 0xF0, 2, if b = 0xF0 then 0x90 else 0x80,
      if b = 0xF4 then 0x8F else 0xBF⟩)
  else ([.malformed [b] .startByte], none)

/-- Read one octet: the pieces it completes, and the character it leaves unfinished. An octet
that does not continue the unfinished character ends it and is read again as a first one. -/
def step : Option Pending → UInt8 → List Piece × Option Pending
  | none, b => start b
  | some p, b =>
    if p.low ≤ b ∧ b ≤ p.high then
      let value := p.value * 64 + (b.toNat - 0x80)
      match p.missing with
      | 0 => ([.char (Char.ofNat value)], none)
      | missing + 1 => ([], some ⟨p.seen ++ [b], value, missing, 0x80, 0xBF⟩)
    else
      let (pieces, next) := start b
      (.malformed p.seen .continuation :: pieces, next)

/-- The pieces of a byte string that continues the given unfinished character. -/
def scanFrom : Option Pending → Bytes → List Piece
  | none, [] => []
  | some p, [] => [.malformed p.seen .truncated]
  | s, b :: bs => (step s b).1 ++ scanFrom (step s b).2 bs

/-- The pieces of a byte string. -/
def scan (bs : Bytes) : List Piece :=
  scanFrom none bs

/-! ## Recoveries -/

/-- What becomes of a malformed piece. -/
inductive Recovery where
  /-- It is an error. -/
  | strict
  /-- It becomes the replacement character. -/
  | replace
  /-- It is dropped. -/
  | ignore
  /-- Each of its octets is written with a backslash. -/
  | escape
  /-- Each of its octets becomes a surrogate. -/
  | surrogateEscape
  /-- It becomes the surrogate that it spells with those behind it, or else it is an error. -/
  | surrogatePass
  /-- The name is that of a recovery for writing alone. -/
  | writingOnly (name : String)
  /-- The name is that of no recovery. -/
  | unknown (name : String)
deriving DecidableEq, Repr

/-- The recovery with a given name. -/
def Recovery.ofName (name : String) : Recovery :=
  match name with
  | "strict" => strict
  | "replace" => replace
  | "ignore" => ignore
  | "backslashreplace" => escape
  | "surrogateescape" => surrogateEscape
  | "surrogatepass" => surrogatePass
  | "xmlcharrefreplace" => writingOnly name
  | "namereplace" => writingOnly name
  | _ => unknown name

/-- Why a byte string has no text. -/
inductive Error where
  /-- A run of octets from `position` on is malformed. -/
  | malformed (octets : Bytes) (position : Nat) (reason : Reason)
  /-- The recovery makes a surrogate, which is no character of a text. -/
  | surrogate
  /-- The recovery asked for cannot be used when reading. -/
  | writingOnly (name : String)
  /-- There is no recovery of that name. -/
  | unknownRecovery (name : String)
deriving DecidableEq, Repr

/-- The first malformed piece, with its position when the pieces start at `position`. -/
def firstMalformed? (position : Nat) : List Piece → Option (Bytes × Nat × Reason)
  | [] => none
  | .char c :: pieces => firstMalformed? (position + (encodeChar c).length) pieces
  | .malformed octets reason :: _ => some (octets, position, reason)

/-- Whether octets spell a surrogate. -/
def isSurrogate : Bytes → Bool
  | [first, second, third] =>
    first == 0xED && 0xA0 ≤ second && second ≤ 0xBF && 0x80 ≤ third && third ≤ 0xBF
  | _ => false

/-- The first malformed piece that does not spell a surrogate with the two behind it. -/
def firstNoSurrogate? (position : Nat) : List Piece → Option (Bytes × Nat × Reason)
  | [] => none
  | .char c :: pieces => firstNoSurrogate? (position + (encodeChar c).length) pieces
  | .malformed first reason :: .malformed second _ :: .malformed third _ :: pieces =>
    if isSurrogate (first ++ second ++ third) then firstNoSurrogate? (position + 3) pieces
    else some (first, position, reason)
  | .malformed octets reason :: _ => some (octets, position, reason)

/-- An octet written with a backslash and its two digits in base sixteen. -/
def escapeByte (b : UInt8) : List Char :=
  '\\' :: 'x' :: Text.hex 2 b.toNat

/-- The characters of the pieces, where `repair` gives those of a malformed one. -/
def textOf (repair : Bytes → List Char) (pieces : List Piece) : String :=
  String.ofList (pieces.flatMap fun
    | .char c => [c]
    | .malformed octets _ => repair octets)

/-- **The text of a byte string.** A recovery, even an unknown one, matters only if some piece is
malformed. -/
def decode (recovery : Recovery) (bs : Bytes) : Except Error String :=
  let pieces := scan bs
  match firstMalformed? 0 pieces with
  | none => .ok (textOf (fun _ => []) pieces)
  | some (octets, position, reason) =>
    match recovery with
    | .strict => .error (.malformed octets position reason)
    | .replace => .ok (textOf (fun _ => ['\uFFFD']) pieces)
    | .ignore => .ok (textOf (fun _ => []) pieces)
    | .escape => .ok (textOf (fun octets => octets.flatMap escapeByte) pieces)
    | .surrogateEscape => .error .surrogate
    | .surrogatePass =>
      match firstNoSurrogate? 0 pieces with
      | none => .error .surrogate
      | some (octets, position, reason) => .error (.malformed octets position reason)
    | .writingOnly name => .error (.writingOnly name)
    | .unknown name => .error (.unknownRecovery name)

end WordVectors.Utf8
