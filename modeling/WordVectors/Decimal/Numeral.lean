import WordVectors.Text.Blank
import WordVectors.Text.DecimalDigit
import WordVectors.Text.Quoted

/-!
# Numerals

Sizes and values arrive as text. A numeral may stand between blanks, carry a sign, use the digits
of any script, and group its digits with single underscores.

## Main definitions

* `Numeral.readInt`: the integer that a text writes
* `Numeral`, `Numeral.readReal`: the decimal number that a text writes, not yet rounded
* `Numeral.IntFault`, `Numeral.realMessage`: the wording of the failures
-/

namespace WordVectors

/-- **A decimal number as written**: not a number, an infinity, or a coefficient times a power of
ten, each with a sign. -/
inductive Numeral where
  | nan (negative : Bool)
  | infinite (negative : Bool)
  /-- A coefficient times ten to the power of `exponent`. -/
  | finite (negative : Bool) (coefficient : Nat) (exponent : Int)
deriving DecidableEq, Repr

namespace Numeral

open Text

/-! ## Digits -/

/-- A character with its digit, if it is one of another script, replaced by that of ASCII. -/
def plainDigit (c : Char) : Char :=
  if c.toNat < 0x80 then c
  else match digitValue? c with
    | some d => digitChar d
    | none => c

/-- A numeral without the blanks around it and with digits of ASCII alone. -/
def plain (cs : List Char) : List Char :=
  (trim cs).map plainDigit

/-- The characters without their underscores, if each underscore stands between two digits;
`afterDigit` tells whether a digit stands before them. -/
def ungroupFrom? : (afterDigit : Bool) → List Char → Option (List Char)
  | _, [] => some []
  | afterDigit, '_' :: cs =>
    match afterDigit, cs with
    | true, c :: _ => if isDigit c then ungroupFrom? false cs else none
    | _, _ => none
  | _, c :: cs => (ungroupFrom? (isDigit c) cs).map (c :: ·)

/-- The characters without their underscores, if each underscore stands between two digits. -/
def ungroup? (cs : List Char) : Option (List Char) :=
  ungroupFrom? false cs

/-- The sign in front of a numeral, whether it is negative, and what follows it. -/
def takeSign : List Char → Bool × List Char
  | '-' :: cs => (true, cs)
  | '+' :: cs => (false, cs)
  | cs => (false, cs)

/-! ## Integers -/

/-- The greatest number of digits of an integer that is read or written. -/
def maxDigits : Nat := 4300

/-- Why a text writes no integer. -/
inductive IntFault where
  | malformed
  /-- It has more digits than are read. -/
  | tooLong (digits : Nat)
deriving DecidableEq, Repr

/-- The wording of the failure to read an integer from `text`; at most 200 characters of the text
are shown. -/
def IntFault.message (text : List Char) : IntFault → String
  | malformed =>
    "invalid literal for int() with base 10: " ++ String.ofList ((quoteChars text).take 200)
  | tooLong n =>
    s!"Exceeds the limit ({maxDigits} digits) for integer string conversion: value has {n} digits; "
      ++ "use sys.set_int_max_str_digits() to increase the limit"

/-- Whether an integer has too many digits to be written. -/
def isTooLong (n : Int) : Bool := Nat.pow 10 maxDigits ≤ n.natAbs

/-- The wording of the failure to write an integer. -/
def tooLongMessage : String :=
  s!"Exceeds the limit ({maxDigits} digits) for integer string conversion; " ++
    "use sys.set_int_max_str_digits() to increase the limit"

/-- A text with an integer in it, or why the integer is not written. -/
def withInteger (n : Int) (text : String) : String :=
  if isTooLong n then tooLongMessage else text

/-- **The integer that a text writes.** -/
def readInt (text : List Char) : Except IntFault Int :=
  let (negative, cs) := takeSign (plain text)
  let run := cs.takeWhile fun c => isDigit c || c == '_'
  match run, ungroup? run with
  | [], _ => .error .malformed
  | _, none => .error .malformed
  | _, some ds =>
    if maxDigits < ds.length then .error (.tooLong ds.length)
    else if run.length < cs.length then .error .malformed
    else .ok (if negative then -(ofDigits ds : Int) else ofDigits ds)

/-! ## Decimal numbers -/

/-- The lower-case form of a letter of ASCII. -/
def lower (c : Char) : Char :=
  if 'A' ≤ c ∧ c ≤ 'Z' then Char.ofNat (c.toNat + 32) else c

/-- The exponent that follows a coefficient; none if there is something else. -/
def readExponent? : List Char → Option Int
  | [] => some 0
  | c :: cs =>
    if lower c = 'e' then
      let (negative, ds) := takeSign cs
      if ds.isEmpty || !ds.all isDigit then none
      else some (if negative then -(ofDigits ds : Int) else ofDigits ds)
    else none

/-- The unsigned numeral with digits before and after an optional point, at least one digit in
all, and an optional exponent. -/
def readFinite? (negative : Bool) (cs : List Char) : Option Numeral :=
  let whole := cs.takeWhile isDigit
  let rest := cs.dropWhile isDigit
  let (fraction, rest) := match rest with
    | '.' :: rest => (rest.takeWhile isDigit, rest.dropWhile isDigit)
    | _ => ([], rest)
  if whole.isEmpty && fraction.isEmpty then none
  else (readExponent? rest).map fun e =>
    .finite negative (ofDigits (whole ++ fraction)) (e - fraction.length)

/-- **The decimal number that a text writes**: a numeral, or a word for an infinity or for what
is not a number, in letters of either case. -/
def readReal (text : List Char) : Option Numeral := do
  let cs ← ungroup? (plain text)
  let (negative, cs) := takeSign cs
  let word := String.ofList (cs.map lower)
  if word = "inf" || word = "infinity" then some (.infinite negative)
  else if word = "nan" then some (.nan negative)
  else readFinite? negative cs

/-- The wording of the failure to read a decimal number from `text`. -/
def realMessage (text : List Char) : String :=
  "could not convert string to float: " ++ String.ofList (quoteChars text)

end Numeral

end WordVectors
