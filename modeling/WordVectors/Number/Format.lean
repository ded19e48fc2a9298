/-!
# Binary floating-point formats

A format of the binary interchange kind is given by the widths of its two fields. Everything the
library does with a floating-point number is exact arithmetic on the numbers behind the fields:
a finite magnitude is a whole number of *units*, the least positive magnitude of the format, and
an operation finds its exact result as a quotient of whole numbers of units and rounds it once.

Magnitudes in ascending order have ascending codes, with infinity after the last finite one, so
rounding up across a power of two, or past the last finite magnitude, needs no case of its own.

## Main definitions

* `FloatFormat`, `FloatFormat.binary32`, `FloatFormat.binary64`: the two formats in use
* `FloatFormat.units`: the magnitude with a given code
* `FloatFormat.roundUnits`: the code of the magnitude nearest to a quotient, ties to even
* `Datum`, `FloatFormat.datum`: what a bit pattern stands for
* `FloatFormat.pattern`: the bit pattern of a sign and a magnitude
-/

namespace WordVectors

/-! ## Rounding -/

/-- The whole number nearest to `num / den`, where a tie goes to the even neighbour. -/
def roundHalfEven (num den : Nat) : Nat :=
  let q := num / den
  let r := num % den
  if 2 * r < den then q
  else if den < 2 * r then q + 1
  else q + q % 2

/-- The widths of the fields of a binary floating-point format. -/
structure FloatFormat where
  /-- Bits of the fraction. -/
  fractionBits : Nat
  /-- Bits of the exponent. -/
  exponentBits : Nat

namespace FloatFormat

/-- The format with four octets. -/
def binary32 : FloatFormat := ⟨23, 8⟩

/-- The format with eight octets. -/
def binary64 : FloatFormat := ⟨52, 11⟩

variable (f : FloatFormat)

/-! ## Magnitudes -/

/-- The number of magnitudes that share an exponent; also the leading bit of a significand. -/
def lead : Nat := 1 <<< f.fractionBits

/-- The code of infinity, which follows that of the last finite magnitude. -/
def infinity : Nat := (1 <<< f.exponentBits - 1) * f.lead

/-- The weight of the sign in a bit pattern. -/
def signWeight : Nat := 1 <<< (f.fractionBits + f.exponentBits)

/-- The bit pattern of the quiet NaN without further payload. -/
def quietNaN : Nat := f.infinity + f.lead / 2

/-- The unit is two to the power of minus this. -/
def unitShift : Nat := 1 <<< (f.exponentBits - 1) + f.fractionBits - 2

/-- The number of units in one. -/
def one : Nat := 1 <<< f.unitShift

/-- How often the significand with this code is doubled to give the number of units. -/
def scale (code : Nat) : Nat := code / f.lead - 1

/-- The significand with this code: the fraction, with the leading bit unless the exponent field
is zero. -/
def significand (code : Nat) : Nat :=
  if code < f.lead then code else f.lead + code % f.lead

/-- The magnitude with this code, in units. -/
def units (code : Nat) : Nat := f.significand code <<< f.scale code

/-- The scale at which a magnitude of about `n` units has a full significand. -/
def scaleFor (n : Nat) : Nat := n.log2 - f.fractionBits

/-- The code of a significand at a scale. A significand of twice the leading bit gives the code
of the next scale. -/
def code (scale significand : Nat) : Nat :=
  min (scale * f.lead + significand) f.infinity

/-- **The code of the magnitude nearest to `num / den` units**, where a tie goes to the even
code; that of infinity if the quotient is past the last finite magnitude by half a step. -/
def roundUnits (num den : Nat) : Nat :=
  let s := f.scaleFor (num / den)
  f.code s (roundHalfEven num (den <<< s))

/-- The code of the magnitude nearest to the quotient `num / den`. -/
def roundRatio (num den : Nat) : Nat :=
  f.roundUnits (num * f.one) den

end FloatFormat

/-! ## What a bit pattern stands for -/

/-- What a bit pattern of a format stands for: not a number, or a sign with a magnitude. The
magnitude of a finite number is in units of the format. -/
inductive Datum where
  | nan
  | infinite (negative : Bool)
  /-- A finite number of units. -/
  | finite (negative : Bool) (units : Nat)
deriving DecidableEq, Repr

namespace FloatFormat

variable (f : FloatFormat)

/-- Whether a bit pattern has the sign of negative numbers. -/
def isNegative (bits : Nat) : Bool := f.signWeight ≤ bits

/-- The code of the magnitude of a bit pattern. -/
def magnitude (bits : Nat) : Nat := bits % f.signWeight

/-- The bit pattern of a sign and the code of a magnitude. -/
def pattern (negative : Bool) (code : Nat) : Nat :=
  if negative then f.signWeight + code else code

/-- What a bit pattern stands for. -/
def datum (bits : Nat) : Datum :=
  let negative := f.isNegative bits
  let code := f.magnitude bits
  if f.infinity < code then .nan
  else if code = f.infinity then .infinite negative
  else .finite negative (f.units code)

/-- The bit pattern of the quotient `num / den` with a sign, rounded. -/
def ofRatio (negative : Bool) (num den : Nat) : Nat :=
  f.pattern negative (f.roundRatio num den)

/-- The bit pattern of a datum of the format `g`, rounded to the format `f`. -/
def ofDatum (g : FloatFormat) : Datum → Nat
  | .nan => f.quietNaN
  | .infinite negative => f.pattern negative f.infinity
  | .finite negative units => f.ofRatio negative units g.one

/-- The position of a bit pattern in the order of numbers, on which the two zeros agree; none for
a bit pattern that stands for no number. -/
def rank? (bits : Nat) : Option Int :=
  let code := f.magnitude bits
  if f.infinity < code then none
  else some (if f.isNegative bits then -(code : Int) else code)

end FloatFormat

end WordVectors
