import WordVectors.Bytes
import WordVectors.Number.Arithmetic

/-!
# Numbers of the two formats

Vectors are held in the format with eight octets and stored in files in either. A number is the
word of its bit pattern, so that two numbers are equal exactly if their bits are.

## Main definitions

* `Binary64`, `Binary32`: numbers of the two formats
* `Binary64.narrow`, `Binary32.widen`: conversion between them
* `Binary64.toBytes`, `Binary64.ofBytes`, `Binary32.toBytes`, `Binary32.ofBytes`: the stored forms
-/

namespace WordVectors

/-! ## Eight octets -/

/-- A number of the format with eight octets. -/
structure Binary64 where
  bits : UInt64
deriving DecidableEq, Inhabited

/-- A number of the format with four octets. -/
structure Binary32 where
  bits : UInt32
deriving DecidableEq, Inhabited

namespace Binary64

/-- The format of these numbers. -/
abbrev format : FloatFormat := .binary64

/-- The number with a bit pattern given as a natural number. -/
def ofPattern (n : Nat) : Binary64 := ⟨UInt64.ofNat n⟩

/-- The bit pattern as a natural number. -/
def pattern (x : Binary64) : Nat := x.bits.toNat

/-- What a number stands for. -/
def datum (x : Binary64) : Datum := format.datum x.pattern

/-- Not a number. -/
def nan : Binary64 := ofPattern format.quietNaN

/-- Positive zero. -/
def zero : Binary64 := ⟨0⟩

/-- Whether `x` stands for no number. -/
def isNaN (x : Binary64) : Bool := x.datum = .nan

/-- The quotient `num / den` with a sign, rounded to the nearest number. -/
def ofRatio (negative : Bool) (num den : Nat) : Binary64 :=
  ofPattern (format.ofRatio negative num den)

/-- The number nearest to an integer, or none if that is an infinity. -/
def ofInt? (n : Int) : Option Binary64 :=
  let code := format.roundRatio n.natAbs 1
  if code < format.infinity then some (ofPattern (format.pattern (n < 0) code)) else none

/-- Whether a number is zero, of either sign. -/
def isZero (x : Binary64) : Bool := format.rank? x.pattern = some 0

/-- Whether a number is below zero. -/
def isBelowZero (x : Binary64) : Bool := (format.rank? x.pattern).any (· < 0)

/-- The sum of two numbers. -/
def add (x y : Binary64) : Binary64 := ofPattern (format.add x.pattern y.pattern)

/-- The number with the other sign. -/
def neg (x : Binary64) : Binary64 := ofPattern (format.neg x.pattern)

/-- The difference of two numbers. -/
def sub (x y : Binary64) : Binary64 := ofPattern (format.sub x.pattern y.pattern)

/-- The product of two numbers. -/
def mul (x y : Binary64) : Binary64 := ofPattern (format.mul x.pattern y.pattern)

/-- The quotient of two numbers. -/
def div (x y : Binary64) : Binary64 := ofPattern (format.div x.pattern y.pattern)

/-- The square root of a number. -/
def sqrt (x : Binary64) : Binary64 := ofPattern (format.sqrt x.pattern)

theorem mul_comm (x y : Binary64) : x.mul y = y.mul x := by
  simp [mul, FloatFormat.mul_comm]

/-- The eight octets of a number, least significant first. -/
def toBytes (x : Binary64) : Bytes := Bytes.ofNatLE 8 x.pattern

/-- The number with the given octets, least significant first. -/
def ofBytes (bs : Bytes) : Binary64 := ofPattern (Bytes.toNatLE bs)

end Binary64

/-! ## Four octets -/

namespace Binary32

/-- The format of these numbers. -/
abbrev format : FloatFormat := .binary32

/-- The number with a bit pattern given as a natural number. -/
def ofPattern (n : Nat) : Binary32 := ⟨UInt32.ofNat n⟩

/-- The bit pattern as a natural number. -/
def pattern (x : Binary32) : Nat := x.bits.toNat

/-- What a number stands for. -/
def datum (x : Binary32) : Datum := format.datum x.pattern

/-- Positive zero. -/
def zero : Binary32 := ⟨0⟩

/-- One. -/
def one : Binary32 := ofPattern (format.ofRatio false 1 1)

/-- Whether a number is above zero. -/
def isAboveZero (x : Binary32) : Bool := (format.rank? x.pattern).any (0 < ·)

/-- The sum of two numbers. -/
def add (x y : Binary32) : Binary32 := ofPattern (format.add x.pattern y.pattern)

/-- The product of two numbers. -/
def mul (x y : Binary32) : Binary32 := ofPattern (format.mul x.pattern y.pattern)

/-- The quotient of two numbers. -/
def div (x y : Binary32) : Binary32 := ofPattern (format.div x.pattern y.pattern)

/-- The square root of a number. -/
def sqrt (x : Binary32) : Binary32 := ofPattern (format.sqrt x.pattern)

/-- The four octets of a number, least significant first. -/
def toBytes (x : Binary32) : Bytes := Bytes.ofNatLE 4 x.pattern

/-- The number with the given octets, least significant first. -/
def ofBytes (bs : Bytes) : Binary32 := ofPattern (Bytes.toNatLE bs)

/-- **Widening** is exact. What is not a number keeps its sign and payload and becomes quiet. -/
def widen (x : Binary32) : Binary64 :=
  match x.datum with
  | .nan =>
    let payload := format.magnitude x.pattern - format.infinity
    let gap := Binary64.format.fractionBits - format.fractionBits
    .ofPattern (Binary64.format.pattern (format.isNegative x.pattern)
      (Binary64.format.infinity + (payload ||| format.lead / 2) <<< gap))
  | d => .ofPattern (Binary64.format.ofDatum format d)

end Binary32

/-- **Narrowing** goes to the nearest number, a tie to the even neighbour. What is not a number
keeps its sign and the leading part of its payload and becomes quiet. -/
def Binary64.narrow (x : Binary64) : Binary32 :=
  match x.datum with
  | .nan =>
    let payload := format.magnitude x.pattern - format.infinity
    let gap := format.fractionBits - Binary32.format.fractionBits
    .ofPattern (Binary32.format.pattern (format.isNegative x.pattern)
      (Binary32.format.infinity + (payload >>> gap ||| Binary32.format.lead / 2)))
  | d => .ofPattern (Binary32.format.ofDatum format d)

end WordVectors
