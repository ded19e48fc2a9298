import WordVectors.Number.Binary

/-!
# Dynamic values

Payloads, details of a journal entry and arguments of a message template carry values of several
kinds. They are the values of JSON, where an integer is kept apart from a decimal number and the
fields of a record keep their order.

## Main definitions

* `Value`: a dynamic value
* `Value.field?`: the value of a field
-/

namespace WordVectors

/-- **A dynamic value.** -/
inductive Value where
  | null
  | bool (b : Bool)
  /-- An integer of any size. -/
  | int (n : Int)
  /-- A decimal number, rounded. -/
  | real (x : Binary64)
  | text (s : String)
  | list (items : List Value)
  /-- Named values, in order. -/
  | record (fields : List (String × Value))
deriving Inhabited

namespace Value

/-- The value of the field `name`; of several of that name the last counts. -/
def field? (fields : List (String × Value)) (name : String) : Option Value :=
  (fields.reverse.find? fun field => field.1 == name).map Prod.snd

end Value

end WordVectors
