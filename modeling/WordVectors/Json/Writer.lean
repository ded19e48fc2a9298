import WordVectors.Decimal.Notation
import WordVectors.Json.Value
import WordVectors.Text.Hex

/-!
# Writing JSON

A value is written without blanks. A string escapes the quote, the backslash and the control
characters and shows every other character as itself; a number is the shortest decimal that reads
back, and one that is not finite is written as `null`.

## Main definitions

* `Json.numbers`: the notation of numbers
* `Json.write`: the text of a value
-/

namespace WordVectors.Json

open Text

/-- Numbers are positional from `0.00001` up to below ten to the power of 16, and their exponents
are as short as possible. -/
def numbers : Notation where
  isPositional exponent _ _ := -5 ≤ exponent && exponent < 16
  exponentDigits := 1

/-- A character inside a string. -/
def writeChar (c : Char) : List Char :=
  if c = '"' then ['\\', '"']
  else if c = '\\' then ['\\', '\\']
  else if c = '\x08' then ['\\', 'b']
  else if c = '\x0C' then ['\\', 'f']
  else if c = '\n' then ['\\', 'n']
  else if c = '\r' then ['\\', 'r']
  else if c = '\t' then ['\\', 't']
  else if c.toNat < 0x20 then '\\' :: 'u' :: hex 4 c.toNat
  else [c]

/-- A string. -/
def writeText (s : String) : List Char :=
  '"' :: (s.toList.flatMap writeChar ++ ['"'])

/-- A number, or `null` if it is not finite. -/
def writeReal (x : Binary64) : List Char :=
  match x.datum with
  | .finite _ _ => x.text numbers
  | _ => ['n', 'u', 'l', 'l']

mutual

/-- **The text of a value.** -/
def write : Value → List Char
  | .null => ['n', 'u', 'l', 'l']
  | .bool true => ['t', 'r', 'u', 'e']
  | .bool false => ['f', 'a', 'l', 's', 'e']
  | .int n => ofInt n
  | .real x => writeReal x
  | .text s => writeText s
  | .list [] => ['[', ']']
  | .list (item :: items) => '[' :: (write item ++ writeItems items)
  | .record [] => ['\x7b', '\x7d']
  | .record ((name, value) :: fields) =>
    '\x7b' :: (writeText name ++ ':' :: (write value ++ writeFields fields))

/-- The items after the first, and the closing bracket. -/
def writeItems : List Value → List Char
  | [] => [']']
  | item :: items => ',' :: (write item ++ writeItems items)

/-- The fields after the first, and the closing brace. -/
def writeFields : List (String × Value) → List Char
  | [] => ['\x7d']
  | (name, value) :: fields =>
    ',' :: (writeText name ++ ':' :: (write value ++ writeFields fields))

end

end WordVectors.Json
