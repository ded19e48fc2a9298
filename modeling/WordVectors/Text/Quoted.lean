import WordVectors.Bytes
import WordVectors.Text.Hex
import WordVectors.Text.Printable

/-!
# Quoted texts

Messages show a text or a byte string between quotes, with backslash escapes, so that every
character of it can be told from the message around it. The quotes are single ones, unless the
text holds a single quote and no double one.

## Main definitions

* `Text.quote`: a text between quotes
* `Text.quoteBytes`: a byte string between quotes, marked with a leading `b`
-/

namespace WordVectors.Text

/-- The quote that surrounds `cs`: a single one, unless only single ones occur in it. -/
def quoteMark (cs : List Char) : Char :=
  if cs.contains '\'' && !cs.contains '"' then '"' else '\''

/-- The escapes shared by texts and byte strings: the quote itself, the backslash, and the three
blanks with a letter of their own. -/
def escape? (mark c : Char) : Option (List Char) :=
  if c = mark || c = '\\' then some ['\\', c]
  else if c = '\n' then some ['\\', 'n']
  else if c = '\r' then some ['\\', 'r']
  else if c = '\t' then some ['\\', 't']
  else none

/-- A character inside a quoted text: as itself if it is printable, else by its code point. -/
def quoteChar (mark c : Char) : List Char :=
  match escape? mark c with
  | some cs => cs
  | none =>
    if isPrintable c then [c]
    else if c.toNat < 0x100 then '\\' :: 'x' :: hex 2 c.toNat
    else if c.toNat < 0x10000 then '\\' :: 'u' :: hex 4 c.toNat
    else '\\' :: 'U' :: hex 8 c.toNat

/-- A text between quotes. -/
def quoteChars (cs : List Char) : List Char :=
  let mark := quoteMark cs
  mark :: (cs.flatMap (quoteChar mark) ++ [mark])

/-- A text between quotes. -/
def quote (s : String) : String :=
  String.ofList (quoteChars s.toList)

/-- An octet inside a quoted byte string: as a character of ASCII if that is printable, else by
its value. -/
def quoteByte (mark : Char) (b : UInt8) : List Char :=
  let c := Char.ofNat b.toNat
  match escape? mark c with
  | some cs => cs
  | none => if 0x20 ≤ b && b < 0x7F then [c] else '\\' :: 'x' :: hex 2 b.toNat

/-- A byte string between quotes, marked with a leading `b`. -/
def quoteBytes (bs : Bytes) : String :=
  let mark := quoteMark (bs.map fun b => Char.ofNat b.toNat)
  String.ofList ('b' :: mark :: (bs.flatMap (quoteByte mark) ++ [mark]))

end WordVectors.Text
