import WordVectors.Number.Format

/-!
# Arithmetic of a floating-point format

Sum, difference, product, quotient and square root on the bit patterns of a format. Each is the
exact result rounded once to the nearest number of the format, a tie going to the even neighbour.

## Main definitions

* `FloatFormat.add`, `FloatFormat.sub`, `FloatFormat.mul`, `FloatFormat.div`, `FloatFormat.sqrt`
* `natSqrt`: the whole part of a square root

## Main results

* `FloatFormat.mul_comm`: a product does not depend on the order of its factors
-/

namespace WordVectors

/-- The whole part of the square root of `n`, one binary digit of it at a time. -/
def natSqrt (n : Nat) : Nat :=
  if n = 0 then 0
  else
    let r := 2 * natSqrt (n / 4)
    if (r + 1) * (r + 1) ≤ n then r + 1 else r

/-- The whole number nearest to the square root of `num / den`, where a tie goes to the even
neighbour. -/
def roundSqrt (num den : Nat) : Nat :=
  let q := natSqrt (num / den)
  let middle := (2 * q + 1) * (2 * q + 1) * den
  if 4 * num < middle then q
  else if middle < 4 * num then q + 1
  else q + q % 2

namespace FloatFormat

variable (f : FloatFormat)

/-- The bit pattern of a whole number of units with a sign. A sum that is zero is positive unless
both of its terms are negative. -/
def ofUnits (bothNegative : Bool) (n : Int) : Nat :=
  f.pattern (if n = 0 then bothNegative else n < 0) (f.roundUnits n.natAbs 1)

/-- The units of a finite datum as a signed number. -/
def signed (negative : Bool) (units : Nat) : Int :=
  if negative then -(units : Int) else units

/-- The sum of two bit patterns. -/
def add (a b : Nat) : Nat :=
  match f.datum a, f.datum b with
  | .nan, _ => f.quietNaN
  | _, .nan => f.quietNaN
  | .infinite s, .infinite t => if s = t then f.pattern s f.infinity else f.quietNaN
  | .infinite s, .finite _ _ => f.pattern s f.infinity
  | .finite _ _, .infinite t => f.pattern t f.infinity
  | .finite s x, .finite t y => f.ofUnits (s && t) (signed s x + signed t y)

/-- The bit pattern with the other sign. -/
def neg (a : Nat) : Nat :=
  f.pattern (!f.isNegative a) (f.magnitude a)

/-- The difference of two bit patterns. -/
def sub (a b : Nat) : Nat :=
  f.add a (f.neg b)

/-- The product of two bit patterns. -/
def mul (a b : Nat) : Nat :=
  match f.datum a, f.datum b with
  | .nan, _ => f.quietNaN
  | _, .nan => f.quietNaN
  | .infinite s, .infinite t => f.pattern (s ^^ t) f.infinity
  | .infinite s, .finite t y => if y = 0 then f.quietNaN else f.pattern (s ^^ t) f.infinity
  | .finite s x, .infinite t => if x = 0 then f.quietNaN else f.pattern (s ^^ t) f.infinity
  | .finite s x, .finite t y => f.pattern (s ^^ t) (f.roundUnits (x * y) f.one)

/-- The quotient of two bit patterns. -/
def div (a b : Nat) : Nat :=
  match f.datum a, f.datum b with
  | .nan, _ => f.quietNaN
  | _, .nan => f.quietNaN
  | .infinite _, .infinite _ => f.quietNaN
  | .infinite s, .finite t _ => f.pattern (s ^^ t) f.infinity
  | .finite s _, .infinite t => f.pattern (s ^^ t) 0
  | .finite s x, .finite t y =>
    if y = 0 then if x = 0 then f.quietNaN else f.pattern (s ^^ t) f.infinity
    else f.pattern (s ^^ t) (f.roundRatio x y)

/-- The square root of a bit pattern. A negative zero is its own square root. -/
def sqrt (a : Nat) : Nat :=
  match f.datum a with
  | .nan => f.quietNaN
  | .infinite negative => if negative then f.quietNaN else f.infinity
  | .finite negative x =>
    if x = 0 then a
    else if negative then f.quietNaN
    else
      let n := x * f.one
      let s := n.log2 / 2 - f.fractionBits
      f.code s (roundSqrt n (1 <<< (2 * s)))

theorem mul_comm (a b : Nat) : f.mul a b = f.mul b a := by
  unfold mul
  cases f.datum a <;> cases f.datum b <;> simp [Bool.xor_comm, Nat.mul_comm]

end FloatFormat

end WordVectors
