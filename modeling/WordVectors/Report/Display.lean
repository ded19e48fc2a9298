import WordVectors.Decimal.Notation
import WordVectors.Json.Value
import WordVectors.Text.Quoted

/-!
# Displayed values

Journal entries and formatted messages show dynamic values: a list in brackets, a record in
braces, a text in quotes.

## Main definitions

* `Report.numbers`: the notation of numbers
* `Value.display`: a value inside other output, where a text is quoted
* `Value.plain`: a value by itself, where a text is not quoted
-/

namespace WordVectors

open Text

/-- Numbers are positional from `0.0001` up to below ten to the power of 16, and their exponents
have at least two digits. -/
def Report.numbers : Notation where
  isPositional exponent _ _ := -4 ≤ exponent && exponent < 16
  exponentDigits := 2

namespace Value

/-- The text of a value that is neither a list nor a record. -/
def displaySingle : Value → List Char
  | .null => "None".toList
  | .bool true => "True".toList
  | .bool false => "False".toList
  | .int n => ofInt n
  | .real x => x.text Report.numbers
  | .text s => quoteChars s.toList
  | .list _ => []
  | .record _ => []

mutual

/-- **The text of a value** inside other output. -/
def display : Value → List Char
  | .list [] => ['[', ']']
  | .list (item :: items) => '[' :: (display item ++ displayItems items)
  | .record [] => ['\x7b', '\x7d']
  | .record ((name, value) :: fields) =>
    '\x7b' :: (quoteChars name.toList ++ ':' :: ' ' :: (display value ++ displayFields fields))
  | value => displaySingle value

/-- The items after the first, and the closing bracket. -/
def displayItems : List Value → List Char
  | [] => [']']
  | item :: items => ',' :: ' ' :: (display item ++ displayItems items)

/-- The fields after the first, and the closing brace. -/
def displayFields : List (String × Value) → List Char
  | [] => ['\x7d']
  | (name, value) :: fields =>
    ',' :: ' ' :: (quoteChars name.toList ++ ':' :: ' ' :: (display value ++ displayFields fields))

end

/-- The text of a value by itself. -/
def plain : Value → List Char
  | .text s => s.toList
  | value => value.display

/-- The text of a value with every character outside ASCII escaped by its code point. -/
def displayAscii (value : Value) : List Char :=
  value.display.flatMap fun c =>
    if c.toNat < 0x80 then [c]
    else if c.toNat < 0x100 then '\\' :: 'x' :: hex 2 c.toNat
    else if c.toNat < 0x10000 then '\\' :: 'u' :: hex 4 c.toNat
    else '\\' :: 'U' :: hex 8 c.toNat

/-- The name of the kind of a value, as messages give it. -/
def kindName : Value → String
  | .null => "NoneType"
  | .bool _ => "bool"
  | .int _ => "int"
  | .real _ => "float"
  | .text _ => "str"
  | .list _ => "list"
  | .record _ => "dict"

end Value

end WordVectors
