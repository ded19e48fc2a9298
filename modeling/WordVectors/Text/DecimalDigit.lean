/-!
# Decimal digits

Numbers may be written with the decimal digits of any script. The digits of a script have
consecutive code points, zero first, so one code point per script describes them all. The table
is that of the general category `Nd`.

## Main definitions

* `Text.zeros`: the code points of the zeros
* `Text.digitValue?`: the value of a character as a decimal digit
* `Text.digits`: the digits of a number in base ten
* `Text.ofDigits`: the number that digits write

## Main results

* `Text.ofDigits_eq`: digits are read from the front, each ten times below the one before it
-/

namespace WordVectors.Text

/-- The code points of the zeros of all scripts, in ascending order. -/
def zeros : List Nat := [
  0x0030, 0x0660, 0x06F0, 0x07C0, 0x0966, 0x09E6, 0x0A66, 0x0AE6, 0x0B66, 0x0BE6, 0x0C66,
  0x0CE6, 0x0D66, 0x0DE6, 0x0E50, 0x0ED0, 0x0F20, 0x1040, 0x1090, 0x17E0, 0x1810, 0x1946,
  0x19D0, 0x1A80, 0x1A90, 0x1B50, 0x1BB0, 0x1C40, 0x1C50, 0xA620, 0xA8D0, 0xA900, 0xA9D0,
  0xA9F0, 0xAA50, 0xABF0, 0xFF10, 0x104A0, 0x10D30, 0x11066, 0x110F0, 0x11136, 0x111D0, 0x112F0,
  0x11450, 0x114D0, 0x11650, 0x116C0, 0x11730, 0x118E0, 0x11950, 0x11C50, 0x11D50, 0x11DA0,
  0x16A60, 0x16AC0, 0x16B50, 0x1D7CE, 0x1D7D8, 0x1D7E2, 0x1D7EC, 0x1D7F6, 0x1E140, 0x1E2F0,
  0x1E950, 0x1FBF0]

/-- The value of `c` as a decimal digit of some script. -/
def digitValue? (c : Char) : Option Nat :=
  (zeros.find? fun z => z ≤ c.toNat && c.toNat < z + 10).map (c.toNat - ·)

/-- Whether `c` is one of the digits of ASCII. -/
def isDigit (c : Char) : Bool :=
  '0' ≤ c && c ≤ '9'

/-- The digit of ASCII with value `d`, for `d` below ten. -/
def digitChar (d : Nat) : Char :=
  Char.ofNat ('0'.toNat + d % 10)

/-- The value of a digit of ASCII. -/
def digitNat (c : Char) : Nat :=
  c.toNat - '0'.toNat

/-- The digits of `n` in base ten, most significant first; zero has the one digit `0`. -/
def digits (n : Nat) : List Char :=
  if n < 10 then [digitChar n] else digits (n / 10) ++ [digitChar n]

/-- The text of an integer in base ten. -/
def ofInt (n : Int) : List Char :=
  if n < 0 then '-' :: digits n.natAbs else digits n.natAbs

/-! ## Reading digits -/

/-- The weight from which on gathered digits are added to the number. -/
def gatheredWeight : Nat := Nat.pow 10 256

/-- The number that digits write as far as they were read. A step on a long number takes as long
as the number is, so the last digits are gathered before they are added to it. -/
structure Gathered where
  /-- The number that the first digits write. -/
  high : Nat
  /-- The number that the gathered digits write. -/
  low : Nat
  /-- The weight of the gathered digits together. -/
  weight : Nat

namespace Gathered

/-- The number that all digits write. -/
def value (g : Gathered) : Nat := g.high * g.weight + g.low

/-- Read one more digit. -/
def push (g : Gathered) (c : Char) : Gathered :=
  if gatheredWeight ≤ g.weight then ⟨g.value, digitNat c, 10⟩
  else ⟨g.high, 10 * g.low + digitNat c, 10 * g.weight⟩

theorem value_push (g : Gathered) (c : Char) :
    (g.push c).value = 10 * g.value + digitNat c := by
  unfold push
  split
  · simp only [value, Nat.mul_comm]
  · simp only [value, Nat.mul_add, Nat.mul_left_comm g.high, Nat.add_assoc]

theorem value_foldl_push (g : Gathered) (cs : List Char) :
    (cs.foldl push g).value = cs.foldl (fun n c => 10 * n + digitNat c) g.value := by
  induction cs generalizing g with
  | nil => rfl
  | cons c cs ih => simp only [List.foldl_cons, ih, value_push]

end Gathered

/-- The number that a list of digits of ASCII writes in base ten. -/
def ofDigits (cs : List Char) : Nat :=
  (cs.foldl Gathered.push ⟨0, 0, 1⟩).value

/-- **Digits are read from the front**, each ten times below the one before it. -/
theorem ofDigits_eq (cs : List Char) :
    ofDigits cs = cs.foldl (fun n c => 10 * n + digitNat c) 0 :=
  Gathered.value_foldl_push ⟨0, 0, 1⟩ cs

end WordVectors.Text
