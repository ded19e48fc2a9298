import WordVectors.Error
import WordVectors.Json.Writer
import WordVectors.Store.Basic

/-!
# Payloads

A payload is a model as one record: the number of components, the words, and all numbers in one
list. It is what models are exchanged as between programs.

## Main definitions

* `Payload`: a model as one record
* `Payload.toStore`: the store of a payload
* `Store.toPayload`: the payload of a store
* `Payload.toJson`: the JSON text of a payload
-/

namespace WordVectors

/-- **A model as one record.** -/
structure Payload where
  /-- The number of components of a vector. -/
  layerSize : Nat
  /-- The words, in order. -/
  vocab : List String
  /-- All numbers, vector by vector. -/
  vectors : List Binary64
  layerSize_pos : 0 < layerSize
  /-- There is one vector per word. -/
  length_vectors : vectors.length = vocab.length * layerSize

namespace Payload

variable (p : Payload)

/-- The store of a payload, in a single segment or in segments of at most `capacity` numbers. -/
def toStore (capacity : Option Int) : Except StoreError Store :=
  Store.ofDense p.vocab p.layerSize p.vectors capacity

/-- A payload as a dynamic value. -/
def toValue : Value :=
  .record [("layer_size", .int p.layerSize), ("vocab", .list (p.vocab.map .text)),
    ("vectors", .list (p.vectors.map .real))]

/-- The JSON text of a payload. -/
def toJson : String :=
  String.ofList (Json.write p.toValue)

end Payload

namespace Store

/-- Segments that hold whole vectors hold as many numbers as their vectors have components. -/
theorem length_flatten_of_whole {layerSize : Nat} {segments : List (List Binary64)}
    (h : ∀ n ∈ segments.map List.length, n % layerSize = 0) :
    segments.flatten.length =
      Layout.vectorCount layerSize (segments.map List.length) * layerSize := by
  induction segments with
  | nil => simp [Layout.vectorCount]
  | cons segment segments ih =>
    have hn := Nat.div_mul_cancel (Nat.dvd_of_mod_eq_zero (h segment.length (by simp)))
    have ih := ih fun n hn => h n (by simp only [List.map_cons, List.mem_cons, hn, or_true])
    simp only [List.flatten_cons, List.length_append, List.map_cons, Layout.vectorCount,
      Nat.add_mul, hn, ih]

/-- The numbers of the segments of a fitting layout are those of one vector per word. -/
theorem length_flatten (store : Store) :
    store.flatten.length = store.vocab.length * store.layerSize := by
  rw [flatten, length_flatten_of_whole store.fits.whole, store.fits.total]

/-- The payload of a store. -/
def toPayload (store : Store) : Payload where
  layerSize := store.layerSize
  vocab := store.vocab
  vectors := store.flatten
  layerSize_pos := store.layerSize_pos
  length_vectors := store.length_flatten

end Store

end WordVectors
