import WordVectors.Proofs.Binary.RoundTrip
import WordVectors.Proofs.TextModel.RoundTrip

/-!
# Binary models over text

A model that goes over a text model to a binary one comes out as if it had gone there at once,
octet by octet, unless a component has the magnitude that is not read back. What stands for no
number is written without its sign and payload, and so is told apart by its octets alone.

## Main results

* `TextModel.binary_encode_eq_iff`: when two models of the same words are written alike
* `TextModel.encode_decode_iff`: what a model that goes over text is written as
-/

namespace WordVectors.TextModel

open Text

variable {store : Store}

/-- **When two models of the same words are written alike**, of which the first can be written. -/
theorem binary_encode_eq_iff {read : Store} (hvocab : read.vocab = store.vocab)
    (hlayer : read.layerSize = store.layerSize) (hlong : store.isTooLong = false)
    (hrows : store.HasRows 4) :
    Binary.encode read = Binary.encode store ↔
      read.HasRows 4 ∧ read.flatten.map Binary64.narrow = store.flatten.map Binary64.narrow := by
  rw [Binary.encode_eq_ok_iff.2 ⟨hlong, hrows, rfl⟩, Binary.encode_eq_ok_iff, Store.isTooLong,
    Store.vocabSize, hvocab, hlayer, ← Binary.octets_eq_iff hvocab hlayer,
    eq_comm (b := Binary.octets _)]
  exact and_iff_right hlong

/-- What is read from a text can be seen as rows where the text came from one with rows, unless it
came from no segments and is put into one. -/
theorem hasRows_of_read {read : Store} {capacity : Option Int}
    (hvocab : read.vocab = store.vocab) (hlayer : read.layerSize = store.layerSize)
    (hsegments : store.vocab = [] → read.segments = if capacity = none then [[]] else [])
    (hrows : store.HasRows 8) :
    read.HasRows 4 ↔
      (store.segments = [] → capacity = none → 4 * store.layerSize < Room.sizeLimit) := by
  have hwords : store.segments = [] → store.vocab = [] := fun hnil => by
    have hlength := store.length_flatten
    rw [Store.flatten, hnil, List.flatten_nil, List.length_nil] at hlength
    have hpos := store.layerSize_pos
    rcases Nat.mul_eq_zero.1 hlength.symm with h | h
    · exact List.length_eq_zero_iff.1 h
    · omega
  rw [Store.HasRows, hvocab, hlayer]
  constructor
  · rintro (h | h | h) hnil hcapacity
    · exact absurd (hwords hnil) h
    · rw [hsegments (hwords hnil), if_pos hcapacity] at h
      cases h
    · exact h
  · intro h
    by_cases hnil : store.vocab = []
    · right
      rw [hsegments hnil]
      by_cases hcapacity : capacity = none
      · right
        rcases hrows with hne | hnone | hlt
        · exact absurd hnil hne
        · exact h hnone hcapacity
        · omega
      · rw [if_neg hcapacity]
        exact .inl rfl
    · exact .inl hnil

/-- **What a model that goes over text is written as.** Every component is read back from its
text, as the same number of four octets unless its magnitude is the one that is not read back. A
model whose words can be fields of a line is written as text unless its sizes are out of range, and
is read back from it with the same components, but for those, if memory holds them. It is then
written with the same octets as before, unless a component is lost or stands for no number in
another way than the quiet one, or there are no segments and the components would be too many for
one. -/
theorem encode_decode_iff [Memory] (hwords : ∀ word ∈ store.vocab, IsField word.toList)
    {capacity : Option Int} (hcapacity : ∀ c ∈ capacity, (store.layerSize : Int) ≤ c)
    (file : String) :
    (∀ x, ∃ y, Binary64.read? (writeValue x) = some y ∧
      (y.narrow.Same x.narrow ↔ ¬ x.narrow.IsLost)) ∧
    ((∃ out, encode store = .ok out) ↔
      store.isTooLong = false ∧ store.HasRows Room.numberWidth) ∧
    ∀ out, encode store = .ok out → Memory.Holds [store.vocabSize * store.layerSize] →
      ∃ read, decodeBytes (Utf8.encode out) file capacity = .ok read ∧
        read.vocab = store.vocab ∧ read.layerSize = store.layerSize ∧
        (List.Forall₂ (fun x y => y.narrow.Same x.narrow) store.flatten read.flatten ↔
          ∀ x ∈ store.flatten, ¬ x.narrow.IsLost) ∧
        (Binary.encode read = Binary.encode store ↔
          (∀ x ∈ store.flatten, x.narrow.IsKept) ∧
            (store.segments = [] → capacity = none →
              4 * store.layerSize < Room.sizeLimit)) := by
  refine ⟨fun x => ⟨reread x, read?_writeValue x, same_narrow_reread_iff x⟩, ⟨?_, ?_⟩, ?_⟩
  · rintro ⟨out, hout⟩
    obtain ⟨hlong, hrows, -⟩ := encode_eq_ok_iff.1 hout
    exact ⟨hlong, hrows⟩
  · rintro ⟨hlong, hrows⟩
    exact ⟨_, encode_eq_ok_iff.2 ⟨hlong, hrows, rfl⟩⟩
  · intro out hout hroom
    obtain ⟨hlong, hrows, rfl⟩ := encode_eq_ok_iff.1 hout
    obtain ⟨read, hread, hvocab, hlayer, hvalues, hsegments⟩ :=
      decodeBytes_text hwords hlong hroom file hcapacity
    have hshort : store.HasRows 4 := hrows.imp_right (Or.imp_right fun h => by
      rw [Room.numberWidth] at h
      omega)
    refine ⟨read, hread, hvocab, hlayer, ?_, ?_⟩
    · rw [hvalues, List.forall₂_map_right_iff, List.forall₂_same]
      simp only [same_narrow_reread_iff]
    · rw [binary_encode_eq_iff hvocab hlayer hlong hshort,
        hasRows_of_read hvocab hlayer hsegments hrows, hvalues, List.map_map, List.map_inj_left,
        and_comm]
      simp only [Function.comp_apply, narrow_reread_eq_iff]

/-- Words with other blanks, and components of every kind: a rounded one, the least one, a negative
zero, an infinity and the quiet one that stands for no number. -/
theorem encode_decode_kept :
    letI : Memory := .ample
    let x := Binary64.ofPattern 0x3FB999999999999A
    let y := (Binary32.ofPattern 1).widen
    let z := (Binary32.ofPattern 0x80000000).widen
    let u := (Binary32.ofPattern 0xFF800000).widen
    let store : Store := ⟨["\té", "w"], 3, 2, [[x, y, z, u, .nan, x]], by decide,
      Layout.fault?_eq_none_iff.1 (by decide)⟩
    ∃ out read, encode store = .ok out ∧
      decodeBytes (Utf8.encode out) "model" (some 4) = .ok read ∧ read.vocab = store.vocab ∧
      Binary.encode read = Binary.encode store := by
  let memory : Memory := .ample
  intro x y z u store
  have hwords : ∀ word ∈ store.vocab, IsField word.toList := by decide +kernel
  have hlong : store.isTooLong = false := by decide +kernel
  have hkept : ∀ x ∈ store.flatten, x.narrow.IsKept := by decide +kernel
  have hcapacity : ∀ c ∈ some (4 : Int), (store.layerSize : Int) ≤ c := by decide
  obtain ⟨-, hwritten, hread⟩ := encode_decode_iff hwords hcapacity "model"
  obtain ⟨out, hout⟩ := hwritten.2 ⟨hlong, .inl (List.cons_ne_nil _ _)⟩
  obtain ⟨read, hdecode, hvocab, -, -, hsame⟩ := hread out hout (by decide)
  exact ⟨out, read, hout, hdecode, hvocab, hsame.2 ⟨hkept, fun h => by cases h⟩⟩

/-- **One magnitude is lost**: the number with the octets `FD 43 AE 15` comes out as its
neighbour. -/
theorem encode_decode_lost :
    letI : Memory := .ample
    let x := (Binary32.ofPattern 0x15AE43FD).widen
    let store : Store := ⟨["w"], 1, 1, [[x]], by decide,
      Layout.fault?_eq_none_iff.1 (by decide)⟩
    (∀ word ∈ store.vocab, IsField word.toList) ∧
      ∃ out read, encode store = .ok out ∧
        decodeBytes (Utf8.encode out) "model" none = .ok read ∧
        read.flatten.map Binary64.narrow = [.ofPattern 0x15AE43FE] ∧
        Binary.encode read ≠ Binary.encode store := by
  let memory : Memory := .ample
  intro x store
  have hwords : ∀ word ∈ store.vocab, IsField word.toList := by decide +kernel
  have hlong : store.isTooLong = false := by decide +kernel
  have hrows : ∀ width, store.HasRows width := fun _ => .inl (List.cons_ne_nil _ _)
  have hcapacity : ∀ c ∈ (none : Option Int), (store.layerSize : Int) ≤ c := fun c hc => by cases hc
  obtain ⟨read, hread, hvocab, hlayer, hvalues, -⟩ :=
    decodeBytes_text hwords hlong (by decide) "model" hcapacity
  have hnarrow : read.flatten.map Binary64.narrow = [.ofPattern 0x15AE43FE] := by
    rw [hvalues]
    decide +kernel
  refine ⟨hwords, _, read, encode_eq_ok_iff.2 ⟨hlong, hrows _, rfl⟩, hread, hnarrow, ?_⟩
  rw [Ne, binary_encode_eq_iff hvocab hlayer hlong (hrows 4), hnarrow]
  exact fun h => absurd h.2 (by decide +kernel)

end WordVectors.TextModel
