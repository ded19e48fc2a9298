import WordVectors.Decimal.Shortest

/-!
# Notations of shortest decimals

The shortest decimal of a number is written positionally or with an exponent. A notation says
which magnitudes are positional and how many digits an exponent has at least; each output of the
library that shows numbers states its own notation.

## Main definitions

* `Notation`: the choices of one output
* `Decimal.positional`, `Decimal.scientific`: the two ways of writing a decimal
* `Binary64.text`, `Binary32.text`: a number in a notation
-/

namespace WordVectors

/-- **The choices of an output that shows numbers.** -/
structure Notation where
  /-- Whether the magnitude `num / den`, whose first digit stands at ten to the power of
  `exponent`, is written positionally. -/
  isPositional : (exponent : Int) → (num den : Nat) → Bool
  /-- The least number of digits of an exponent. -/
  exponentDigits : Nat

namespace Decimal

/-- A number in base ten with at least `width` digits. -/
def padded (width n : Nat) : List Char :=
  let ds := Text.digits n
  List.replicate (width - ds.length) '0' ++ ds

/-- The digits `ds`, of which the first stands at ten to the power of `exponent`, with a point
and at least one digit on either side of it. -/
def positional (ds : List Char) (exponent : Int) : List Char :=
  if exponent < 0 then
    '0' :: '.' :: (List.replicate (-exponent - 1).toNat '0' ++ ds)
  else
    let whole := exponent.toNat + 1
    let fraction := ds.drop whole
    ds.take whole ++ List.replicate (whole - ds.length) '0' ++
      '.' :: (if fraction.isEmpty then ['0'] else fraction)

/-- The digits `ds` with a point after the first, if there are others, and a signed exponent of
at least `width` digits. -/
def scientific (width : Nat) (ds : List Char) (exponent : Int) : List Char :=
  let fraction := ds.drop 1
  ds.take 1 ++ (if fraction.isEmpty then [] else '.' :: fraction) ++
    'e' :: (if exponent < 0 then '-' else '+') :: padded width exponent.natAbs

end Decimal

namespace FloatFormat

variable (f : FloatFormat)

/-- The magnitude with code `code`, below infinity, in a notation. -/
def magnitudeText (style : Notation) (code : Nat) : List Char :=
  if code = 0 then ['0', '.', '0']
  else
    let d := f.shortest code
    let ds := Text.digits d.coefficient
    let exponent := d.exponent + ds.length - 1
    if style.isPositional exponent (f.units code) f.one then Decimal.positional ds exponent
    else Decimal.scientific style.exponentDigits ds exponent

/-- A bit pattern in a notation. What is not a number has no sign. -/
def text (style : Notation) (bits : Nat) : List Char :=
  let code := f.magnitude bits
  if f.infinity < code then ['n', 'a', 'n']
  else (if f.isNegative bits then ['-'] else []) ++
    if code = f.infinity then ['i', 'n', 'f'] else f.magnitudeText style code

end FloatFormat

/-- A number in a notation. -/
def Binary64.text (style : Notation) (x : Binary64) : List Char :=
  format.text style x.pattern

/-- A number in a notation. -/
def Binary32.text (style : Notation) (x : Binary32) : List Char :=
  format.text style x.pattern

end WordVectors
