import WordVectors.Bytes.Lemmas
import WordVectors.Codec.Compact
import WordVectors.Proofs.Store
import WordVectors.Proofs.Utf8

/-!
# Round trip of compact models

Each part of a compact model is read from its octets alone, whatever stands behind them, and from
no others: a reader accepts a byte string exactly if it starts with what the writer makes of the
result. So a model comes back as it was written, and a byte string that holds one starts with the
octets of that model.

## Main results

* `Compact.readHeader_eq_ok_iff`, `Compact.readTokens_eq_ok_iff`, `Compact.readValues_eq_ok_iff`:
  which byte strings a part is read from
* `Compact.decode_eq_ok_iff`: which byte strings a model is read from
* `Compact.encode_eq_ok_iff`: which models are written
* `Compact.lossless_canonical`: models and their octets determine each other
-/

namespace WordVectors

/-- A number of eight octets is read back from them. -/
theorem Binary64.ofBytes_toBytes (x : Binary64) : ofBytes x.toBytes = x := by
  have hlt : x.pattern < 256 ^ 8 := x.bits.toNat_lt
  rw [ofBytes, toBytes, Bytes.toNatLE_ofNatLE hlt, ofPattern, pattern, UInt64.ofNat_toNat]

theorem Binary64.toBytes_ofBytes {bs : Bytes} (h : bs.length = 8) : (ofBytes bs).toBytes = bs := by
  have hlt : Bytes.toNatLE bs < 2 ^ 64 := by
    have := Bytes.toNatLE_lt bs
    rwa [h] at this
  rw [toBytes, ofBytes, pattern, ofPattern, UInt64.toNat_ofNat_of_lt' hlt, ← h,
    Bytes.ofNatLE_toNatLE]

theorem Binary64.length_toBytes (x : Binary64) : x.toBytes.length = 8 :=
  Bytes.length_ofNatLE 8 x.pattern

theorem Binary64.length_flatMap_toBytes (xs : List Binary64) :
    (xs.flatMap toBytes).length = xs.length * 8 := by
  rw [List.length_flatMap]
  simp only [length_toBytes, List.map_const', List.sum_replicate_nat]

namespace Compact

variable {bs rest : Bytes}

/-! ## Parts -/

theorem take?_eq_some_iff {count : Nat} {taken : Bytes} :
    take? count bs = some (taken, rest) ↔ bs = taken ++ rest ∧ taken.length = count := by
  rw [take?]
  split
  · next hlt =>
    refine iff_of_false (fun h => by cases h) ?_
    rintro ⟨rfl, hlength⟩
    rw [List.length_take, List.length_append] at hlt
    omega
  · next hle =>
    rw [List.length_take] at hle
    simp only [Option.some.injEq, Prod.mk.injEq]
    constructor
    · rintro ⟨rfl, rfl⟩
      refine ⟨(List.take_append_drop count bs).symm, ?_⟩
      rw [List.length_take]
      omega
    · rintro ⟨rfl, hlength⟩
      exact ⟨List.take_left' hlength, List.drop_left' hlength⟩

/-- **Whether the sizes of a header fit their fields**, and vectors have components. -/
structure Header.Fits (header : Header) : Prop where
  layerSize_pos : 0 < header.layerSize
  layerSize_lt : header.layerSize < fieldLimit
  vocabSize_lt : header.vocabSize < 256 ^ 8

/-- The fields of a header, one after another. -/
theorem fields_eq {fields : Bytes} (h : fields.length = headerSize) :
    fields = fields.take 4 ++ (fields.drop 4).take 1 ++ (fields.drop 5).take 4 ++
      (fields.drop 9).take 8 := by
  have hlast : (fields.drop 9).take 8 = fields.drop 9 := by
    apply List.take_of_length_le
    rw [List.length_drop, h]
    decide
  have hsize : (fields.drop 5).drop 4 = fields.drop 9 := List.drop_drop
  have hnumber : (fields.drop 4).drop 1 = fields.drop 5 := List.drop_drop
  rw [hlast, ← hsize, List.append_assoc, List.take_append_drop, ← hnumber, List.append_assoc,
    List.take_append_drop, List.take_append_drop]

/-- **A header is read from its octets.** -/
theorem readHeader_eq_ok_iff {header : Header} :
    readHeader bs = .ok (header, rest) ↔ bs = encodeHeader header ++ rest ∧ header.Fits := by
  constructor
  · intro h
    rw [readHeader] at h
    split at h
    · cases h
    · next fields rest' htake =>
      obtain ⟨rfl, hlength⟩ := take?_eq_some_iff.1 htake
      have hfield : ∀ {i width : Nat}, i + width ≤ headerSize →
          Bytes.ofNatLE width (Bytes.toNatLE ((fields.drop i).take width)) =
            (fields.drop i).take width ∧
          Bytes.toNatLE ((fields.drop i).take width) < 256 ^ width := by
        intro i width hle
        have hsize : ((fields.drop i).take width).length = width := by
          rw [List.length_take, List.length_drop, hlength]
          omega
        have hlt := Bytes.toNatLE_lt ((fields.drop i).take width)
        have hback := Bytes.ofNatLE_toNatLE ((fields.drop i).take width)
        rw [hsize] at hlt hback
        exact ⟨hback, hlt⟩
      dsimp only at h
      split_ifs at h with hmark hversion hlayer
      obtain ⟨rfl, rfl⟩ := Prod.mk.inj (Except.ok.inj h)
      rw [ne_eq, not_not] at hmark hversion
      refine ⟨?_, Nat.pos_of_ne_zero hlayer, (hfield (by decide)).2, (hfield (by decide)).2⟩
      rw [encodeHeader, ← hmark, ← hversion, (hfield (by decide)).1, (hfield (by decide)).1,
        (hfield (by decide)).1, ← fields_eq hlength]
  · rintro ⟨rfl, hfits⟩
    have htake : take? headerSize (encodeHeader header ++ rest) =
        some (encodeHeader header, rest) := take?_eq_some_iff.2 ⟨rfl, rfl⟩
    have hlt : header.layerSize < 256 ^ 4 := hfits.layerSize_lt
    have hmark : (encodeHeader header).take 4 = magic := rfl
    have hversion : Bytes.toNatLE (((encodeHeader header).drop 4).take 1) = version := rfl
    have hlayer : ((encodeHeader header).drop 5).take 4 = Bytes.ofNatLE 4 header.layerSize := rfl
    have hvocab : ((encodeHeader header).drop 9).take 8 = Bytes.ofNatLE 8 header.vocabSize := rfl
    have hpos := hfits.layerSize_pos
    simp only [readHeader, htake, hmark, hversion, hlayer, Bytes.toNatLE_ofNatLE hlt, hvocab,
      Bytes.toNatLE_ofNatLE hfits.vocabSize_lt, ne_eq, not_true_eq_false, if_false]
    rw [if_neg (by omega)]

/-- **A token is read from its octets.** -/
theorem readToken_eq_ok_iff {index : Nat} {word : String} :
    readToken index bs = .ok (word, rest) ↔
      bs = encodeToken word ++ rest ∧ (Utf8.encode word).length < fieldLimit := by
  constructor
  · intro h
    rw [readToken] at h
    split at h
    · cases h
    · next length tail hlength =>
      obtain ⟨rfl, hwidth⟩ := take?_eq_some_iff.1 hlength
      split at h
      · cases h
      · next token rest' htoken =>
        obtain ⟨rfl, hcount⟩ := take?_eq_some_iff.1 htoken
        split at h
        · cases h
        · next word' hword =>
          obtain ⟨rfl, rfl⟩ := Prod.mk.inj (Except.ok.inj h)
          rw [Utf8.decode_strict_eq_ok_iff] at hword
          subst hword
          have hlt := Bytes.toNatLE_lt length
          rw [hwidth, ← hcount] at hlt
          refine ⟨?_, hlt⟩
          rw [encodeToken, hcount, ← hwidth, Bytes.ofNatLE_toNatLE, List.append_assoc]
  · rintro ⟨rfl, hlt⟩
    have hlength : take? 4 (encodeToken word ++ rest) =
        some (Bytes.ofNatLE 4 (Utf8.encode word).length, Utf8.encode word ++ rest) :=
      take?_eq_some_iff.2 ⟨List.append_assoc _ _ _, Bytes.length_ofNatLE _ _⟩
    have htoken : take? (Utf8.encode word).length (Utf8.encode word ++ rest) =
        some (Utf8.encode word, rest) := take?_eq_some_iff.2 ⟨rfl, rfl⟩
    have hlt' : (Utf8.encode word).length < 256 ^ 4 := hlt
    have hcount := Bytes.toNatLE_ofNatLE hlt'
    simp only [readToken, hlength, hcount, htoken, Utf8.decode_encode]

/-- **Tokens are read from their octets**, one after another. -/
theorem readTokens_eq_ok_iff {index left : Nat} {words : List String} :
    readTokens index left bs = .ok (words, rest) ↔
      bs = words.flatMap encodeToken ++ rest ∧ words.length = left ∧
        ∀ word ∈ words, (Utf8.encode word).length < fieldLimit := by
  induction left generalizing index bs words with
  | zero =>
    rw [readTokens, Except.ok.injEq, Prod.mk.injEq, List.length_eq_zero_iff]
    constructor
    · rintro ⟨rfl, rfl⟩
      exact ⟨rfl, rfl, by simp⟩
    · rintro ⟨rfl, rfl, -⟩
      exact ⟨rfl, rfl⟩
  | succ left ih =>
    constructor
    · intro h
      obtain ⟨⟨word, bs'⟩, hword, h⟩ := exists_of_bind_eq_ok h
      obtain ⟨⟨words', bs''⟩, hwords, h⟩ := exists_of_bind_eq_ok h
      obtain ⟨rfl, rfl⟩ := Prod.mk.inj (Except.ok.inj h)
      obtain ⟨rfl, hlt⟩ := readToken_eq_ok_iff.1 hword
      obtain ⟨rfl, rfl, hall⟩ := ih.1 hwords
      exact ⟨(List.append_assoc _ _ _).symm, rfl, List.forall_mem_cons.2 ⟨hlt, hall⟩⟩
    · rintro ⟨rfl, hlength, hall⟩
      obtain _ | ⟨word, words⟩ := words
      · cases hlength
      · rw [List.forall_mem_cons] at hall
        have hword : readToken index (encodeToken word ++ (words.flatMap encodeToken ++ rest)) =
            .ok (word, words.flatMap encodeToken ++ rest) := readToken_eq_ok_iff.2 ⟨rfl, hall.1⟩
        have hwords : readTokens (index + 1) left (words.flatMap encodeToken ++ rest) =
            .ok (words, rest) := ih.2 ⟨rfl, Nat.succ.inj hlength, hall.2⟩
        rw [List.flatMap_cons, List.append_assoc, readTokens, hword]
        simp only [bind, Except.bind, hwords]

/-- **Numbers are read from their octets**, if memory holds them. -/
theorem readValues_eq_ok_iff [Memory] {count : Nat} {values : List Binary64} :
    readValues count bs = .ok values ↔
      Memory.Holds [count] ∧ values.flatMap Binary64.toBytes <+: bs ∧ values.length = count := by
  rw [readValues, holds_singleton_iff]
  cases hroom : Room.checkArray 0 count with
  | error e => exact iff_of_false (fun h => by cases h) fun h => by cases h.1
  | ok _ =>
    rw [and_iff_right rfl]
    dsimp only
    split
    · next hlt =>
      refine iff_of_false (fun h => by cases h) ?_
      rintro ⟨hfront, rfl⟩
      have hle := hfront.length_le
      rw [Binary64.length_flatMap_toBytes] at hle
      omega
    · next hle =>
      rw [Except.ok.injEq]
      constructor
      · rintro rfl
        have hpieces := length_of_mem_chunks (Nat.le_of_not_lt hle)
        have hback : ((chunks 8 count bs).map Binary64.ofBytes).flatMap Binary64.toBytes =
            (chunks 8 count bs).flatten := by
          rw [List.flatMap_map, List.flatten_eq_flatMap]
          exact List.flatMap_congr fun piece hpiece =>
            Binary64.toBytes_ofBytes (hpieces piece hpiece)
        rw [hback, flatten_chunks, List.length_map, length_chunks]
        exact ⟨List.take_prefix _ _, rfl⟩
      · rintro ⟨⟨rest, rfl⟩, rfl⟩
        have hpieces : ∀ piece ∈ values.map Binary64.toBytes, piece.length = 8 := by
          intro piece hpiece
          obtain ⟨x, -, rfl⟩ := List.mem_map.1 hpiece
          exact x.length_toBytes
        have hchunks := chunks_flatten hpieces rest
        rw [List.length_map] at hchunks
        rw [List.flatMap_def, hchunks, List.map_map]
        exact (List.map_congr_left fun x _ => x.ofBytes_toBytes).trans (List.map_id _)

/-! ## Models -/

/-- **Whether the sizes of a store fit their fields.** -/
structure FitsFields (store : Store) : Prop where
  layerSize_lt : store.layerSize < fieldLimit
  vocabSize_lt : store.vocabSize < 256 ^ 8
  token_lt : ∀ word ∈ store.vocab, (Utf8.encode word).length < fieldLimit

variable {store : Store} {capacity : Option Int}

/-- **A model is read from its octets**, whatever stands behind them, if memory holds its
numbers. -/
theorem decode_eq_ok_iff [Memory] :
    decode bs capacity = .ok store ↔ octets store <+: bs ∧ FitsFields store ∧
      Memory.Holds [store.vocabSize * store.layerSize] ∧
      Store.ofDense store.vocab store.layerSize store.flatten capacity = .ok store := by
  constructor
  · intro h
    obtain ⟨⟨header, bs₁⟩, hheader, htail⟩ := exists_of_bind_eq_ok h
    obtain ⟨⟨words, bs₂⟩, hwords, htail⟩ := exists_of_bind_eq_ok htail
    obtain ⟨values, hvalues, hstore⟩ := exists_of_bind_eq_ok htail
    obtain ⟨rfl, hfits⟩ := readHeader_eq_ok_iff.1 (eq_ok_of_mapError_eq_ok hheader)
    obtain ⟨rfl, hcount, htokens⟩ := readTokens_eq_ok_iff.1 hwords
    obtain ⟨hroom, ⟨rest, rfl⟩, -⟩ := readValues_eq_ok_iff.1 hvalues
    replace hstore := eq_ok_of_mapError_eq_ok hstore
    obtain ⟨rfl, hlayer, rfl, -⟩ := Store.of_ofDense_eq_ok hstore
    have hsizes : (⟨store.layerSize, store.vocabSize⟩ : Header) = header := by
      rw [Store.vocabSize, hlayer, hcount]
    rw [← hsizes] at hroom
    refine ⟨⟨rest, ?_⟩, ⟨hlayer ▸ hfits.layerSize_lt, ?_, htokens⟩, hroom, ?_⟩
    · simp only [octets, hsizes, List.append_assoc]
    · rw [Store.vocabSize, hcount]
      exact hfits.vocabSize_lt
    · rw [hlayer, hstore]
  · rintro ⟨⟨rest, rfl⟩, hfits, hroom, hstore⟩
    have hheader : readHeader (octets store ++ rest) =
        .ok (⟨store.layerSize, store.vocabSize⟩, store.vocab.flatMap encodeToken ++
          (store.flatten.flatMap Binary64.toBytes ++ rest)) := by
      rw [readHeader_eq_ok_iff, octets]
      exact ⟨by simp only [List.append_assoc],
        store.layerSize_pos, hfits.layerSize_lt, hfits.vocabSize_lt⟩
    have hwords : readTokens 0 store.vocabSize (store.vocab.flatMap encodeToken ++
        (store.flatten.flatMap Binary64.toBytes ++ rest)) =
          .ok (store.vocab, store.flatten.flatMap Binary64.toBytes ++ rest) :=
      readTokens_eq_ok_iff.2 ⟨rfl, rfl, hfits.token_lt⟩
    have hvalues : readValues (store.vocabSize * store.layerSize)
        (store.flatten.flatMap Binary64.toBytes ++ rest) = .ok store.flatten :=
      readValues_eq_ok_iff.2 ⟨hroom, List.prefix_append _ _, store.length_flatten⟩
    simp only [decode, hheader, Except.mapError, bind, Except.bind, hwords, hvalues, hstore]

/-- **Which models are written.** -/
theorem encode_eq_ok_iff {out : Bytes} :
    encode store = .ok out ↔ store.layerSize < fieldLimit ∧
      (∀ word ∈ store.vocab, (Utf8.encode word).length < fieldLimit) ∧ out = octets store := by
  have hlimit : fieldLimit = 0x100000000 := rfl
  have htokens : store.vocab.all fitsField = true ↔
      ∀ word ∈ store.vocab, (Utf8.encode word).length < fieldLimit := by
    simp only [List.all_eq_true, fitsField, decide_eq_true_eq]
  rw [encode]
  split_ifs with hword hfield htoken
  · exact iff_of_false (fun h => by cases h) (by omega)
  · exact iff_of_false (fun h => by cases h) (by omega)
  · refine iff_of_false (fun h => by cases h) ?_
    rintro ⟨-, hall, -⟩
    rw [htokens.2 hall] at htoken
    cases htoken
  · rw [Except.ok.injEq, eq_comm, ← htokens]
    rw [Bool.not_eq_true', Bool.not_eq_false] at htoken
    exact ⟨fun h => ⟨by omega, htoken, h⟩, fun h => h.2.2⟩

theorem octets_congr {store' : Store} (h : store.SameContent store') :
    octets store = octets store' := by
  rw [octets, octets, Store.vocabSize, Store.vocabSize, h.vocab, h.layerSize, h.flatten]

/-- **Compact models are lossless and canonical.** A model whose sizes fit their fields is written,
and read back from its octets with whatever stands behind them, number by number, exactly if memory
holds its numbers. The field of the number of words has eight octets, which is more than any list in
memory needs. A byte string that a model is read from starts with the octets of that model, so two
from which the same content is read differ only behind it. -/
theorem lossless_canonical [Memory] :
    (∀ store : Store, store.layerSize < 2 ^ 32 → store.vocabSize < 2 ^ 64 →
      (∀ word ∈ store.vocab, (Utf8.encode word).length < 2 ^ 32) →
      ∃ out, encode store = .ok out ∧
        ∀ (trailing : Bytes) (capacity : Option Int),
          (∀ c ∈ capacity, (store.layerSize : Int) ≤ c) →
          ((∃ read, decode (out ++ trailing) capacity = .ok read ∧ read.SameContent store) ↔
            Memory.Holds [store.vocabSize * store.layerSize])) ∧
    (∀ (bs : Bytes) (capacity : Option Int) (store : Store), decode bs capacity = .ok store →
      ∃ out, encode store = .ok out ∧ out <+: bs) ∧
    ∀ (bs bs' : Bytes) (capacity capacity' : Option Int) (store store' : Store),
      decode bs capacity = .ok store → decode bs' capacity' = .ok store' →
      store.SameContent store' → ∃ out trailing trailing', encode store = .ok out ∧
        bs = out ++ trailing ∧ bs' = out ++ trailing' := by
  have hstarts : ∀ (bs : Bytes) (capacity : Option Int) (store : Store),
      decode bs capacity = .ok store → encode store = .ok (octets store) ∧
        ∃ trailing, bs = octets store ++ trailing := by
    intro bs capacity store h
    obtain ⟨⟨trailing, rfl⟩, hfits, -⟩ := decode_eq_ok_iff.1 h
    exact ⟨encode_eq_ok_iff.2 ⟨hfits.layerSize_lt, hfits.token_lt, rfl⟩, trailing, rfl⟩
  refine ⟨?_, ?_, ?_⟩
  · intro store hlayer hvocab htokens
    refine ⟨_, encode_eq_ok_iff.2 ⟨hlayer, htokens, rfl⟩, ?_⟩
    intro trailing capacity hcapacity
    constructor
    · rintro ⟨read, hread, hsame⟩
      obtain ⟨-, -, hroom, -⟩ := decode_eq_ok_iff.1 hread
      rwa [Store.vocabSize, hsame.vocab, hsame.layerSize] at hroom
    · intro hroom
      obtain ⟨read, hread, hwords, hsize, hvalues, -⟩ :=
        Store.ofDense_eq_ok store.layerSize_pos hcapacity store.length_flatten
      have hsame : read.SameContent store := ⟨hwords, hsize, hvalues⟩
      refine ⟨read, decode_eq_ok_iff.2 ⟨?_, ⟨?_, ?_, ?_⟩, ?_, ?_⟩, hsame⟩
      · rw [octets_congr hsame]
        exact List.prefix_append _ _
      · rwa [hsize]
      · rwa [Store.vocabSize, hwords]
      · rwa [hwords]
      · rwa [Store.vocabSize, hwords, hsize]
      · rwa [hwords, hsize, hvalues]
  · intro bs capacity store h
    obtain ⟨hencode, trailing, rfl⟩ := hstarts bs capacity store h
    exact ⟨_, hencode, List.prefix_append _ _⟩
  · intro bs bs' capacity capacity' store store' h h' hsame
    obtain ⟨hencode, trailing, rfl⟩ := hstarts bs capacity store h
    obtain ⟨-, trailing', rfl⟩ := hstarts bs' capacity' store' h'
    exact ⟨_, trailing, trailing', hencode, rfl, by rw [octets_congr hsame]⟩

/-- Words that repeat, have no characters or need several octets for one, in two segments; read
into one, and back into as many as there are words. -/
theorem lossless_canonical_three :
    letI : Memory := .ample
    let x := Binary64.ofPattern 0x7FF8000000000001
    let store : Store := ⟨["é ", "", "é "], 2, 2, [[x, .zero, .zero, x], [x, x]], by decide,
      Layout.fault?_eq_none_iff.1 (by decide)⟩
    ∃ out read split, encode store = .ok out ∧
      decode (out ++ [0x0A, 0xFF]) none = .ok read ∧ read.SameContent store ∧
      decode (out ++ []) (some 3) = .ok split ∧ split.SameContent store ∧
      (∃ again, encode read = .ok again ∧ again <+: out ++ [0x0A, 0xFF]) ∧
      ∃ front trailing trailing', encode read = .ok front ∧
        out ++ [0x0A, 0xFF] = front ++ trailing ∧ out ++ [] = front ++ trailing' := by
  let memory : Memory := .ample
  intro x store
  obtain ⟨hlossless, hcanonical, hunique⟩ := lossless_canonical
  obtain ⟨out, hout, hdecode⟩ := hlossless store (by decide) (by decide) (by decide)
  obtain ⟨read, hread, hsame⟩ := (hdecode [0x0A, 0xFF] none (fun c hc => by cases hc)).2 (by decide)
  obtain ⟨split, hsplit, hsame'⟩ := (hdecode [] (some 3) (by decide)).2 (by decide)
  refine ⟨out, read, split, hout, hread, hsame, hsplit, hsame', hcanonical _ _ _ hread, ?_⟩
  exact hunique _ _ _ _ _ _ hread hsplit (hsame.trans hsame'.symm)

end Compact

end WordVectors
