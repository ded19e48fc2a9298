/-!
# Base sixteen

Escapes write a code point or an octet with a fixed number of lower-case digits of base sixteen.

## Main definitions

* `Text.hexDigit`, `Text.hex`: a digit, and a number with a fixed number of digits
* `Text.hexValue?`: the value of a digit of either case
-/

namespace WordVectors.Text

/-- The lower-case digit of base sixteen with value `d`, for `d` below sixteen. -/
def hexDigit (d : Nat) : Char :=
  if d < 10 then Char.ofNat ('0'.toNat + d) else Char.ofNat ('a'.toNat + (d - 10))

/-- The last `width` digits of `n` in base sixteen, most significant first. -/
def hex : (width : Nat) → (n : Nat) → List Char
  | 0, _ => []
  | width + 1, n => hex width (n / 16) ++ [hexDigit (n % 16)]

/-- The value of a digit of base sixteen of either case. -/
def hexValue? (c : Char) : Option Nat :=
  if '0' ≤ c ∧ c ≤ '9' then some (c.toNat - '0'.toNat)
  else if 'a' ≤ c ∧ c ≤ 'f' then some (c.toNat - 'a'.toNat + 10)
  else if 'A' ≤ c ∧ c ≤ 'F' then some (c.toNat - 'A'.toNat + 10)
  else none

end WordVectors.Text
