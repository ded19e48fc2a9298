import WordVectors.Decimal.Shortest
import WordVectors.Json.Value
import WordVectors.Text.Hex

/-!
# Reading JSON

A text is read as one value with nothing but blanks around it. Beyond the standard, the three
words `NaN`, `Infinity` and `-Infinity` are numbers. The whole part of a number has at most a
given size, and lists and records that are not empty nest at most to a given depth. A text with a
lone surrogate escape is refused, since it has no characters.

## Main definitions

* `Json.read?`: the value that a text writes
* `Json.readNumber?`, `Json.readText?`: a number and the inside of a string at the front of a text
-/

namespace WordVectors.Json

open Text

/-- The text after the blanks in front of it. -/
def skip (cs : List Char) : List Char :=
  cs.dropWhile fun c => c == ' ' || c == '\t' || c == '\n' || c == '\r'

/-! ## Strings -/

/-- The number that four digits of base sixteen write, and what follows them. -/
def readUnit? : List Char → Option (Nat × List Char)
  | a :: b :: c :: d :: cs => do
    let a ← hexValue? a
    let b ← hexValue? b
    let c ← hexValue? c
    let d ← hexValue? d
    some (((a * 16 + b) * 16 + c) * 16 + d, cs)
  | _ => none

/-- The character that an escape with a letter stands for. -/
def escaped? : Char → Option Char
  | '"' => some '"'
  | '\\' => some '\\'
  | '/' => some '/'
  | 'b' => some '\x08'
  | 'f' => some '\x0C'
  | 'n' => some '\n'
  | 'r' => some '\r'
  | 't' => some '\t'
  | _ => none

/-- The character of an escape by code point, whose first unit has been read: a unit outside the
surrogates, or a high surrogate followed by the escape of a low one. -/
def readCodePoint? (first : Nat) (cs : List Char) : Option (Char × List Char) :=
  if first < 0xD800 ∨ 0xE000 ≤ first then some (Char.ofNat first, cs)
  else if first < 0xDC00 then
    match cs with
    | '\\' :: 'u' :: cs => do
      let (second, cs) ← readUnit? cs
      if 0xDC00 ≤ second ∧ second < 0xE000 then
        some (Char.ofNat (0x10000 + (first - 0xD800) * 0x400 + (second - 0xDC00)), cs)
      else none
    | _ => none
  else none

/-- The characters of a string up to its closing quote, and what follows that. Each round takes
at least one character, so `fuel` above the length of the text suffices. -/
def readTextFrom? : (fuel : Nat) → List Char → Option (List Char × List Char)
  | 0, _ => none
  | _ + 1, [] => none
  | _ + 1, '"' :: cs => some ([], cs)
  | fuel + 1, '\\' :: 'u' :: cs => do
    let (first, cs) ← readUnit? cs
    let (c, cs) ← readCodePoint? first cs
    let (text, cs) ← readTextFrom? fuel cs
    some (c :: text, cs)
  | fuel + 1, '\\' :: c :: cs => do
    let c ← escaped? c
    let (text, cs) ← readTextFrom? fuel cs
    some (c :: text, cs)
  | _ + 1, ['\\'] => none
  | fuel + 1, c :: cs =>
    if c.toNat < 0x20 then none
    else do
      let (text, cs) ← readTextFrom? fuel cs
      some (c :: text, cs)

/-- A string whose opening quote has been read, and what follows it. -/
def readText? (fuel : Nat) (cs : List Char) : Option (String × List Char) :=
  (readTextFrom? fuel cs).map fun (text, rest) => (String.ofList text, rest)

/-! ## Numbers -/

/-- The digits at the front of a text, at least one, and what follows them. -/
def takeDigits? (cs : List Char) : Option (List Char × List Char) :=
  let ds := cs.takeWhile isDigit
  if ds.isEmpty then none else some (ds, cs.dropWhile isDigit)

/-- The digits of the whole part: a zero alone, or digits that do not start with zero. -/
def takeWhole? (cs : List Char) : Option (List Char × List Char) := do
  let (ds, rest) ← takeDigits? cs
  if ds.head? = some '0' ∧ 1 < ds.length then none else some (ds, rest)

/-- The fraction at the front of a text; none in the outer sense if a point has no digits. -/
def takeFraction? : List Char → Option (Option (List Char) × List Char)
  | '.' :: cs => (takeDigits? cs).map fun (ds, rest) => (some ds, rest)
  | cs => some (none, cs)

/-- The exponent at the front of a text; none in the outer sense if it has no digits. -/
def takeExponent? : List Char → Option (Option Int × List Char)
  | c :: cs =>
    if c = 'e' ∨ c = 'E' then
      let (negative, cs) := Numeral.takeSign cs
      (takeDigits? cs).map fun (ds, rest) =>
        (some (if negative then -(ofDigits ds : Int) else ofDigits ds), rest)
    else some (none, c :: cs)
  | [] => some (none, [])

/-- The size of the whole part of a number: its digits, and its sign if it has one. -/
def wholeSize (negative : Bool) (whole : List Char) : Nat := whole.length + negative.toNat

/-- A number at the front of a text, the minus sign read already, whose whole part has at most
the size `limit`. A number without fraction and exponent is an integer. -/
def readNumber? (limit : Nat) (negative : Bool) (cs : List Char) :
    Option (Value × List Char) := do
  let (whole, cs) ← takeWhole? cs
  if limit < wholeSize negative whole then none
  else
    let (fraction, cs) ← takeFraction? cs
    let (exponent, cs) ← takeExponent? cs
    match fraction, exponent with
    | none, none =>
      some (.int (if negative then -(ofDigits whole : Int) else ofDigits whole), cs)
    | _, _ =>
      let places := fraction.getD []
      some (.real (.ofNumeral (.finite negative (ofDigits (whole ++ places))
        (exponent.getD 0 - places.length))), cs)

/-! ## Values -/

/-- What follows `word` at the front of a text. -/
def takeWord? (word : List Char) (cs : List Char) : Option (List Char) :=
  if word.isPrefixOf cs then some (cs.drop word.length) else none

mutual

/-- A value at the front of a text, nested at most to `depth`, and what follows it. An empty list
or record adds nothing to the depth. Each call that does not end takes at least one character
within two rounds, so `fuel` above twice the length of the text suffices. -/
def readValue? (limit : Nat) : (fuel : Nat) → (depth : Nat) → List Char → Option (Value × List Char)
  | 0, _, _ => none
  | fuel + 1, depth, cs =>
    match skip cs with
    | '"' :: cs => (readText? fuel cs).map fun (s, rest) => (.text s, rest)
    | '[' :: cs =>
      match skip cs, depth with
      | ']' :: cs, _ => some (.list [], cs)
      | _, 0 => none
      | cs, depth + 1 =>
        (readItems? limit fuel depth cs).map fun (items, rest) => (.list items, rest)
    | '\x7b' :: cs =>
      match skip cs, depth with
      | '\x7d' :: cs, _ => some (.record [], cs)
      | _, 0 => none
      | cs, depth + 1 =>
        (readFields? limit fuel depth cs).map fun (fields, rest) => (.record fields, rest)
    | '-' :: 'I' :: cs =>
      (takeWord? "nfinity".toList cs).map fun rest => (.real (.ofNumeral (.infinite true)), rest)
    | '-' :: cs => readNumber? limit true cs
    | 'n' :: cs => (takeWord? "ull".toList cs).map fun rest => (.null, rest)
    | 't' :: cs => (takeWord? "rue".toList cs).map fun rest => (.bool true, rest)
    | 'f' :: cs => (takeWord? "alse".toList cs).map fun rest => (.bool false, rest)
    | 'N' :: cs => (takeWord? "aN".toList cs).map fun rest => (.real .nan, rest)
    | 'I' :: cs =>
      (takeWord? "nfinity".toList cs).map fun rest => (.real (.ofNumeral (.infinite false)), rest)
    | cs => readNumber? limit false cs

/-- The items of a list up to its closing bracket, at least one. -/
def readItems? (limit : Nat) :
    (fuel : Nat) → (depth : Nat) → List Char → Option (List Value × List Char)
  | 0, _, _ => none
  | fuel + 1, depth, cs => do
    let (item, cs) ← readValue? limit fuel depth cs
    match skip cs with
    | ',' :: cs =>
      let (items, cs) ← readItems? limit fuel depth cs
      some (item :: items, cs)
    | ']' :: cs => some ([item], cs)
    | _ => none

/-- The fields of a record up to its closing brace, at least one. -/
def readFields? (limit : Nat) : (fuel : Nat) → (depth : Nat) → List Char →
    Option (List (String × Value) × List Char)
  | 0, _, _ => none
  | fuel + 1, depth, cs =>
    match skip cs with
    | '"' :: cs => do
      let (name, cs) ← readText? fuel cs
      match skip cs with
      | ':' :: cs =>
        let (value, cs) ← readValue? limit fuel depth cs
        match skip cs with
        | ',' :: cs =>
          let (fields, cs) ← readFields? limit fuel depth cs
          some ((name, value) :: fields, cs)
        | '\x7d' :: cs => some ([(name, value)], cs)
        | _ => none
      | _ => none
    | _ => none

end

/-- The greatest depth to which the values of a payload nest. -/
def maxDepth : Nat := 200

/-- The greatest size of the whole part of a number in a payload. -/
def maxWhole : Nat := Numeral.maxDigits

/-- **The value that a text writes**, whose numbers have whole parts of at most the size `limit`,
nested at most to `depth`. -/
def read? (limit depth : Nat) (cs : List Char) : Option Value :=
  match readValue? limit (2 * cs.length + 2) depth cs with
  | some (value, rest) => if (skip rest).isEmpty then some value else none
  | none => none

end WordVectors.Json
