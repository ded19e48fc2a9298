import WordVectors.Decimal.Numeral
import WordVectors.Number.Binary

/-!
# Shortest decimals

A number is read from a decimal by rounding once, and written as the shortest decimal that reads
back: with one digit, two digits and so on, the two decimals on either side of the number are
tried, and the first that reads back is taken, the nearer one if both do.

## Main definitions

* `Decimal`: a coefficient times a power of ten
* `FloatFormat.ofDecimal`: the code of the magnitude nearest to a decimal
* `FloatFormat.shortest`: the shortest decimal that reads back
* `Binary64.ofNumeral`: the number that a numeral writes

## Main results

* `FloatFormat.ofDecimal_candidate?`: a candidate reads back
-/

namespace WordVectors

/-- A coefficient times ten to the power of `exponent`. -/
structure Decimal where
  coefficient : Nat
  exponent : Int
deriving DecidableEq, Repr

namespace Decimal

/-- Ten to the power of `k`. -/
def power (k : Nat) : Nat := Nat.pow 10 k

/-- Of a number that has more digits than this, as many are counted at a time. -/
def countedDigits : Nat := 256

/-- The least number with more digits than are counted at a time. -/
def countedWeight : Nat := Nat.pow 10 256

/-- The number of digits of `n`; zero has one. -/
def digitCount (n : Nat) : Nat :=
  if n < 10 then 1
  else if n < countedWeight then digitCount (n / 10) + 1
  else digitCount (n / countedWeight) + countedDigits
termination_by n
decreasing_by
  · exact Nat.div_lt_self (by omega) (by decide)
  · exact Nat.div_lt_self (by omega) (by decide)

/-- The exponent of the first digit of the quotient `num / den`, for a positive quotient. -/
def leadExponent (num den : Nat) : Int :=
  let k : Int := digitCount num - digitCount den
  if den * power k.toNat ≤ num * power (-k).toNat then k else k - 1

/-- The decimal of the same value without zeros at the end of its coefficient. -/
def strip (coefficient : Nat) (exponent : Int) : Decimal :=
  if coefficient ≠ 0 ∧ coefficient % 10 = 0 then strip (coefficient / 10) (exponent + 1)
  else ⟨coefficient, exponent⟩

/-- The value of `num / den` in units of ten to the power of `exponent`, as a quotient. -/
def scaled (num den : Nat) (exponent : Int) : Nat × Nat :=
  (num * power (-exponent).toNat, den * power exponent.toNat)

end Decimal

namespace FloatFormat

variable (f : FloatFormat)

/-- **The code of the magnitude nearest to `coefficient * 10 ^ exponent`.** Decimals below ten to
the power of `-f.unitShift` are nearest to zero and those from ten to the power of `f.unitShift`
on to infinity, so their powers of ten are not formed. -/
def ofDecimal (coefficient : Nat) (exponent : Int) : Nat :=
  let size : Int := Decimal.digitCount coefficient + exponent
  if coefficient = 0 ∨ size < -(f.unitShift : Int) then 0
  else if (f.unitShift : Int) < size then f.infinity
  else f.roundRatio (coefficient * Decimal.power exponent.toNat) (Decimal.power (-exponent).toNat)

/-- Of the two decimals with last digit at ten to the power of `exponent` on either side of the
magnitude with code `code`, the one that reads back; the nearer if both do, and of two equally
near the one with an even last digit. -/
def candidate? (code : Nat) (exponent : Int) : Option Decimal :=
  let (num, den) := Decimal.scaled (f.units code) f.one exponent
  let q := num / den
  let nearest := roundHalfEven num den
  let other := if nearest = q then q + 1 else q
  ([nearest, other].find? fun c => f.ofDecimal c exponent = code).map (⟨·, exponent⟩)

theorem ofDecimal_candidate? {code : Nat} {exponent : Int} {d : Decimal}
    (h : f.candidate? code exponent = some d) : f.ofDecimal d.coefficient d.exponent = code := by
  simp only [candidate?, Option.map_eq_some_iff] at h
  obtain ⟨c, hc, rfl⟩ := h
  simpa using List.find?_some hc

/-- The decimal with the exact value of the magnitude with code `code`. -/
def exactDecimal (code : Nat) : Decimal :=
  ⟨f.units code * Nat.pow 5 f.unitShift, -(f.unitShift : Int)⟩

/-- A number of digits with which every magnitude reads back. -/
def enoughDigits : Nat := f.fractionBits / 3 + 2

/-- **The shortest decimal that reads back** as the magnitude with code `code`. -/
def shortest (code : Nat) : Decimal :=
  let k := Decimal.leadExponent (f.units code) f.one
  let d := ((List.range f.enoughDigits).findSome? fun (n : Nat) => f.candidate? code (k - n)).getD
    (f.exactDecimal code)
  Decimal.strip d.coefficient d.exponent

end FloatFormat

/-- The number that a numeral writes, rounded once. -/
def Binary64.ofNumeral : Numeral → Binary64
  | .nan negative => .ofPattern (format.pattern negative format.quietNaN)
  | .infinite negative => .ofPattern (format.pattern negative format.infinity)
  | .finite negative coefficient exponent =>
    .ofPattern (format.pattern negative (format.ofDecimal coefficient exponent))

/-- The number that a text writes. -/
def Binary64.read? (text : List Char) : Option Binary64 :=
  (Numeral.readReal text).map ofNumeral

end WordVectors
