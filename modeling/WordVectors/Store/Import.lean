import WordVectors.Error
import WordVectors.Store.Basic

/-!
# Stores from dynamic values

A trainer hands over its vectors as one dynamic value, or as one per segment. A size that no store
has is refused before the segments are looked at.

## Main definitions

* `Store.ofSegmentValues`: the store whose segments are the numbers of values
* `Store.ofValue`: the store of all numbers of a value
-/

namespace WordVectors.Store

/-- The numbers of several values. -/
def numbersOfAll : List Value → Except NumberError (List (List Binary64))
  | [] => .ok []
  | value :: values => do
    let xs ← value.numbers
    let rest ← numbersOfAll values
    .ok (xs :: rest)

/-- The store whose segments are the numbers of values. -/
def ofSegmentValues (vocab : List String) (layerSize : Int) (segments : List Value)
    (perSegment : Option Int) : Except ModelError Store :=
  if layerSize ≤ 0 then .error (.store (.layerSize layerSize))
  else do
    let segments ← (numbersOfAll segments).mapError .number
    (ofSegments vocab layerSize segments perSegment).mapError .store

/-- The store of all numbers of a value. -/
def ofValue (vocab : List String) (layerSize : Int) (vectors : Value) (capacity : Option Int) :
    Except ModelError Store := do
  let values ← vectors.numbers.mapError .number
  (ofDense vocab layerSize values capacity).mapError .store

end WordVectors.Store
