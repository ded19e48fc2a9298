import WordVectors.Decimal.Shortest
import WordVectors.Json.Value

/-!
# Numbers of a dynamic value

A list of numbers may arrive nested to any regular shape, as a single number, or with texts,
truth values and absent values among the numbers. It is flattened row by row.

## Main definitions

* `Value.shape?`: the extents of a regular nesting
* `Value.number`: the number that a single value stands for
* `Value.numbers`: all numbers of a value
-/

namespace WordVectors

/-- Why a value has no numbers. -/
inductive NumberError where
  /-- The lists are not nested regularly. -/
  | irregular
  /-- A text writes no number. -/
  | malformed (text : String)
  /-- An integer is nearest to an infinity. -/
  | tooLarge
  | record
deriving DecidableEq, Repr

namespace NumberError

/-- The wording of a number error. -/
def message : NumberError → String
  | irregular => "setting an array element with a sequence"
  | malformed text => Numeral.realMessage text.toList
  | tooLarge => "int too large to convert to float"
  | record => "float() argument must be a string or a real number, not 'dict'"

end NumberError

namespace Value

/-- The greatest number of nested extents. -/
def maxExtents : Nat := 64

mutual

/-- The extents of a regular nesting: none for a single value; for a list, its length followed by
the extents that all of its items share. -/
def shape? : Value → Option (List Nat)
  | .list [] => some [0]
  | .list (item :: items) => do
    let shape ← shape? item
    if sameShape shape items then some ((items.length + 1) :: shape) else none
  | _ => some []

/-- Whether all items have the given shape. -/
def sameShape (shape : List Nat) : List Value → Bool
  | [] => true
  | item :: items => shape? item == some shape && sameShape shape items

end

/-- The number that a single value stands for. -/
def number : Value → Except NumberError Binary64
  | .null => .ok .nan
  | .bool b => .ok (.ofRatio false b.toNat 1)
  | .int n => match Binary64.ofInt? n with
    | some x => .ok x
    | none => .error .tooLarge
  | .real x => .ok x
  | .text s => match Binary64.read? s.toList with
    | some x => .ok x
    | none => .error (.malformed s)
  | .list _ => .error .irregular
  | .record _ => .error .record

mutual

/-- The numbers of a value, row by row. -/
def flattenNumbers : Value → Except NumberError (List Binary64)
  | .list items => flattenItems items
  | value => value.number.map ([·])

/-- The numbers of the items of a list. -/
def flattenItems : List Value → Except NumberError (List Binary64)
  | [] => .ok []
  | item :: items => do
    let xs ← flattenNumbers item
    let ys ← flattenItems items
    .ok (xs ++ ys)

end

/-- **All numbers of a value**, which has to be regular as a whole before any number is read. -/
def numbers (value : Value) : Except NumberError (List Binary64) :=
  match value.shape? with
  | none => .error .irregular
  | some shape => if maxExtents < shape.length then .error .irregular else value.flattenNumbers

end Value

end WordVectors
