import WordVectors.Proofs.Binary.BoundedWindows
import WordVectors.Proofs.Binary.Segments
import WordVectors.Proofs.Compact.RoundTrip
import WordVectors.Proofs.Store.Addressing
import WordVectors.Proofs.TextModel.Words

/-!
# Stores that differ in their segments only

What can be asked of a store is determined by its content, and so is what is written of it: the
segments only tell how it is kept. There is one exception. To list the vectors, a segment is seen as
rows, and an empty segment cannot be when a row would be too large for any array. A store without
words has such a segment if no bound is given, and no segment at all if one is.

## Main definitions

* `Store.Alike`: stores that cannot be told apart

## Main results

* `Store.SameContent.alike_iff`: stores with the same content are alike if both can be seen as rows
* `Store.ofDense_alike_iff`: when segments and a single segment are alike
* `TextModel.decode_alike`, `Compact.decode_alike`, `Binary.decode_alike`: a model that is read in
  segments of another size is alike
* `Store.segments_transparent`: where segments can be told apart, and that nothing else can
-/

namespace WordVectors

namespace Store

/-- **Stores that cannot be told apart**, neither by what is asked of them nor by what is written
of them. -/
structure Alike (s t : Store) : Prop where
  vocab : s.vocab = t.vocab
  layerSize : s.layerSize = t.layerSize
  vectorAt : ∀ index, s.vectorAt index = t.vectorAt index
  flatten : s.flatten = t.flatten
  listEntries : s.listEntries = t.listEntries
  toPayload : s.toPayload = t.toPayload
  binary : Binary.encode s = Binary.encode t
  text : TextModel.encode s = TextModel.encode t
  compact : Compact.encode s = Compact.encode t

variable {s t : Store}

/-! ## What the content determines -/

/-- A store that cannot be seen as rows fails as an array of one row would. -/
theorem checkRows_congr {width : Nat} (hwidth : 0 < width) (hlayer : s.layerSize = t.layerSize)
    (h : s.HasRows width ↔ t.HasRows width) : s.checkRows width = t.checkRows width := by
  have hcases : ∀ store : Store, store.checkRows width = .ok () ∨
      store.checkRows width = Room.checkRows width store.layerSize := by
    intro store
    rw [checkRows]
    split
    · exact .inr rfl
    · exact .inl rfl
  have hok := fun store : Store => store.checkRows_eq_ok_iff hwidth
  by_cases hs : s.HasRows width
  · rw [(hok s).2 hs, (hok t).2 (h.1 hs)]
  · rcases hcases s with hs' | hs'
    · exact absurd ((hok s).1 hs') hs
    · rcases hcases t with ht' | ht'
      · exact absurd (h.2 ((hok t).1 ht')) hs
      · rw [hs', ht', hlayer]

theorem listEntries_eq_ok_iff :
    s.listEntries = .ok s.entries ↔ s.HasRows Room.numberWidth := by
  rw [← s.checkRows_eq_ok_iff (by decide), listEntries]
  rcases s.checkRows Room.numberWidth with e | ⟨⟩
  · exact iff_of_false (fun h => by cases h) fun h => by cases h
  · exact iff_of_true rfl rfl

namespace SameContent

/-- Rows of shorter components can be told apart no better. -/
theorem hasRows_of_le {width width' : Nat} (h : s.SameContent t) (hle : width' ≤ width)
    (hrows : s.HasRows width → t.HasRows width) : s.HasRows width' → t.HasRows width' := by
  rintro (hne | hnil | hlt)
  · exact .inl (h.vocab ▸ hne)
  · exact (hrows (.inr (.inl hnil))).mono hle
  · exact .inr (.inr (h.layerSize ▸ hlt))

variable (h : s.SameContent t)
include h

theorem vocabSize : s.vocabSize = t.vocabSize := congrArg List.length h.vocab

theorem vectorAt (index : Int) : s.vectorAt index = t.vectorAt index := by
  rw [vectorAt_eq, vectorAt_eq, h.vocabSize, h.layerSize, h.flatten]

theorem entries : s.entries = t.entries := by
  rw [Store.entries, Store.entries, rows_eq_chunks, rows_eq_chunks, h.vocab, h.vocabSize,
    h.layerSize, h.flatten]

theorem toPayload : s.toPayload = t.toPayload := by
  simp only [Store.toPayload, h.vocab, h.layerSize, h.flatten]

theorem compact : Compact.encode s = Compact.encode t := by
  rw [Compact.encode, Compact.encode, h.layerSize, h.vocab, Compact.octets_congr h]

theorem isTooLong : s.isTooLong = t.isTooLong := by
  rw [Store.isTooLong, Store.isTooLong, h.vocabSize, h.layerSize]

theorem binary (hrows : s.HasRows 4 ↔ t.HasRows 4) : Binary.encode s = Binary.encode t := by
  have hoctets : Binary.octets s = Binary.octets t := by
    rw [Binary.octets, Binary.octets, Binary.headerLine, Binary.headerLine, h.vocabSize,
      h.layerSize, h.entries]
  rw [Binary.encode, Binary.encode, h.isTooLong, checkRows_congr (by decide) h.layerSize hrows,
    hoctets]

variable (hrows : s.HasRows Room.numberWidth ↔ t.HasRows Room.numberWidth)
include hrows

theorem text : TextModel.encode s = TextModel.encode t := by
  have htext : TextModel.text s = TextModel.text t := by
    rw [TextModel.text, TextModel.text, TextModel.headerLine, TextModel.headerLine, h.vocabSize,
      h.layerSize, h.entries]
  rw [TextModel.encode, TextModel.encode, h.isTooLong,
    checkRows_congr (by decide) h.layerSize hrows, htext]

theorem listEntries : s.listEntries = t.listEntries := by
  rw [Store.listEntries, Store.listEntries, checkRows_congr (by decide) h.layerSize hrows,
    h.entries]

omit hrows

/-- **Stores with the same content are alike** if both can be seen as rows, or neither can. -/
theorem alike_iff :
    s.Alike t ↔ (s.HasRows Room.numberWidth ↔ t.HasRows Room.numberWidth) := by
  constructor
  · intro halike
    have hlist := halike.listEntries
    rw [← listEntries_eq_ok_iff, ← listEntries_eq_ok_iff, hlist, h.entries]
  · intro hrows
    have hshort : s.HasRows 4 ↔ t.HasRows 4 :=
      ⟨h.hasRows_of_le (by decide) hrows.1, h.symm.hasRows_of_le (by decide) hrows.2⟩
    exact ⟨h.vocab, h.layerSize, h.vectorAt, h.flatten, h.listEntries hrows, h.toPayload,
      h.binary hshort, h.text hrows, h.compact⟩

/-- Without words there is nothing to tell apart if there are no segments. -/
theorem alike (hs : s.vocab = [] → s.segments = []) (ht : t.vocab = [] → t.segments = []) :
    s.Alike t := by
  have hrows : ∀ store : Store, (store.vocab = [] → store.segments = []) →
      store.HasRows Room.numberWidth := by
    intro store hnone
    by_cases hnil : store.vocab = []
    · exact .inr (.inl (hnone hnil))
    · exact .inl hnil
  rw [h.alike_iff]
  exact iff_of_true (hrows s hs) (hrows t ht)

end SameContent

/-! ## Numbers in one list -/

variable {vocab : List String} {layerSize : Nat} {values : List Binary64} {capacity : Int}

theorem sameContent_of_ofDense_eq_ok {bound bound' : Option Int}
    (h : ofDense vocab layerSize values bound = .ok s)
    (h' : ofDense vocab layerSize values bound' = .ok t) : s.SameContent t := by
  obtain ⟨hvocab, hsize, hvalues, -⟩ := of_ofDense_eq_ok h
  obtain ⟨hvocab', hsize', hvalues', -⟩ := of_ofDense_eq_ok h'
  exact ⟨hvocab.trans hvocab'.symm, hsize.trans hsize'.symm, hvalues.trans hvalues'.symm⟩

/-- **When segments and a single segment are alike**: there are words, or a row is not too large. -/
theorem ofDense_alike_iff (hlayer : 0 < layerSize) (hcapacity : (layerSize : Int) ≤ capacity)
    (hlength : values.length = vocab.length * layerSize) :
    ∃ split single, ofDense vocab layerSize values (some capacity) = .ok split ∧
      ofDense vocab layerSize values none = .ok single ∧ split.SameContent single ∧
      (split.Alike single ↔ vocab ≠ [] ∨ Room.numberWidth * layerSize < Room.sizeLimit) := by
  have hbound : ∀ c ∈ some capacity, (layerSize : Int) ≤ c := by simpa using hcapacity
  have hnone : ∀ c ∈ (none : Option Int), (layerSize : Int) ≤ c := by simp
  obtain ⟨split, hsplit, hvocab, -, -, hsegments⟩ := ofDense_eq_ok hlayer hbound hlength
  obtain ⟨single, hsingle, hvocab', hsize', -, hsegments'⟩ := ofDense_eq_ok hlayer hnone hlength
  have hsame := sameContent_of_ofDense_eq_ok hsplit hsingle
  refine ⟨split, single, hsplit, hsingle, hsame, ?_⟩
  rw [hsame.alike_iff, HasRows, HasRows, hvocab, hvocab', hsize']
  by_cases hnil : vocab = []
  · simp [hnil, hsegments hnil, hsegments' hnil]
  · simp [hnil]

/-- **Segments of another size are alike.** -/
theorem exists_alike_of_ofDense_eq_ok (h : ofDense vocab layerSize values (some capacity) = .ok s)
    {capacity' : Int} (hcapacity' : (s.layerSize : Int) ≤ capacity') :
    ∃ t, ofDense vocab layerSize values (some capacity') = .ok t ∧ s.SameContent t ∧
      s.Alike t := by
  obtain ⟨hvocab, hsize, -, hsegments⟩ := of_ofDense_eq_ok h
  have hbound : ∀ c ∈ some capacity', (layerSize : Int) ≤ c := by
    rw [← hsize]
    simpa using hcapacity'
  obtain ⟨t, ht, hvocab', -, -, hsegments'⟩ :=
    ofDense_eq_ok (le_of_ofDense_eq_ok h).1 hbound (length_of_ofDense_eq_ok h)
  have hsame := sameContent_of_ofDense_eq_ok h ht
  refine ⟨t, ht, hsame, hsame.alike ?_ ?_⟩
  · rw [hvocab]
    exact hsegments
  · rw [hvocab']
    exact hsegments'

end Store

/-! ## Models that are read -/

variable {store : Store} {capacity capacity' : Int}

theorem TextModel.decode_alike [Memory] {lines : List String} {file : String}
    (h : decode lines file (some capacity) = .ok store)
    (hcapacity' : (store.layerSize : Int) ≤ capacity') :
    ∃ other, decode lines file (some capacity') = .ok other ∧ store.Alike other := by
  obtain ⟨entries, -, layerSize, -, hdecode⟩ := exists_entries_of_decode_eq_ok h
  rw [hdecode] at h
  obtain ⟨other, hother, -, halike⟩ :=
    Store.exists_alike_of_ofDense_eq_ok (eq_ok_of_mapError_eq_ok h) hcapacity'
  refine ⟨other, ?_, halike⟩
  rw [hdecode, hother]
  rfl

theorem TextModel.decodeBytes_alike [Memory] {content : Bytes} {file : String}
    (h : decodeBytes content file (some capacity) = .ok store)
    (hcapacity' : (store.layerSize : Int) ≤ capacity') :
    ∃ other, decodeBytes content file (some capacity') = .ok other ∧ store.Alike other := by
  obtain ⟨text, htext, h⟩ := exists_of_bind_eq_ok h
  obtain ⟨other, hother, halike⟩ := decode_alike h hcapacity'
  refine ⟨other, ?_, halike⟩
  rw [decodeBytes, htext]
  exact hother

theorem Compact.decode_alike [Memory] {bs : Bytes}
    (h : decode bs (some capacity) = .ok store)
    (hcapacity' : (store.layerSize : Int) ≤ capacity') :
    ∃ other, decode bs (some capacity') = .ok other ∧ store.Alike other := by
  obtain ⟨hfront, hfits, hroom, hstore⟩ := decode_eq_ok_iff.1 h
  obtain ⟨other, hother, hsame, halike⟩ := Store.exists_alike_of_ofDense_eq_ok hstore hcapacity'
  refine ⟨other, decode_eq_ok_iff.2 ⟨?_, ⟨?_, ?_, ?_⟩, ?_, ?_⟩, halike⟩
  · rwa [← octets_congr hsame]
  · rw [← hsame.layerSize]
    exact hfits.layerSize_lt
  · rw [← hsame.vocabSize]
    exact hfits.vocabSize_lt
  · rw [← hsame.vocab]
    exact hfits.token_lt
  · rwa [← hsame.vocabSize, ← hsame.layerSize]
  · rw [← hsame.vocab, ← hsame.layerSize, ← hsame.flatten, hother]

theorem Binary.decode_alike [Memory] {plan : Plan} {file : String} {content : Bytes} {p : Progress}
    (h : outcome (decode plan file content p) = .ok store)
    (hcapacity' : (store.layerSize : Int) ≤ capacity')
    (hroom : Memory.HoldsSegments store.vocabSize store.layerSize capacity') :
    ∃ other, outcome (decode (plan.withCapacity capacity') file content p) = .ok other ∧
      store.Alike other := by
  obtain ⟨hsegments, hdecode⟩ := decode_withCapacity h
  obtain ⟨other, hother, hsame, hsegments'⟩ := hdecode capacity' hcapacity' hroom
  exact ⟨other, hother, hsame.alike hsegments hsegments'⟩

/-! ## Where segments can be told apart -/

namespace Store

/-- **Segments can hardly be told apart.** Numbers in one list make a store in segments and one in
a single segment, with the same words, vectors, numbers and payload, and the same octets as a
compact model. All else agrees too if there are words, or a row is not too large for an array, and
otherwise does not. Lines or octets that a model is read from are read in segments of any size that
holds a vector, and the stores cannot be told apart; the segments of a binary model are made as they
are read, and memory has to hold them. -/
theorem segments_transparent [Memory] {vocab : List String} {layerSize : Nat}
    {values : List Binary64} {capacity : Int} (hlayer : 0 < layerSize)
    (hcapacity : (layerSize : Int) ≤ capacity)
    (hlength : values.length = vocab.length * layerSize) :
    (∃ split single, ofDense vocab layerSize values (some capacity) = .ok split ∧
      ofDense vocab layerSize values none = .ok single ∧ split.SameContent single ∧
      (∀ index, split.vectorAt index = single.vectorAt index) ∧
      split.toPayload = single.toPayload ∧ Compact.encode split = Compact.encode single ∧
      (split.Alike single ↔
        vocab ≠ [] ∨ Room.numberWidth * layerSize < Room.sizeLimit)) ∧
    (∀ lines file capacity capacity' store,
      TextModel.decode lines file (some capacity) = .ok store →
      (store.layerSize : Int) ≤ capacity' →
      ∃ other, TextModel.decode lines file (some capacity') = .ok other ∧ store.Alike other) ∧
    (∀ content file capacity capacity' store,
      TextModel.decodeBytes content file (some capacity) = .ok store →
      (store.layerSize : Int) ≤ capacity' →
      ∃ other, TextModel.decodeBytes content file (some capacity') = .ok other ∧
        store.Alike other) ∧
    (∀ bs capacity capacity' store, Compact.decode bs (some capacity) = .ok store →
      (store.layerSize : Int) ≤ capacity' →
      ∃ other, Compact.decode bs (some capacity') = .ok other ∧ store.Alike other) ∧
    ∀ plan file content p capacity' store,
      Binary.outcome (Binary.decode plan file content p) = .ok store →
      (store.layerSize : Int) ≤ capacity' →
      Memory.HoldsSegments store.vocabSize store.layerSize capacity' →
      ∃ other, Binary.outcome (Binary.decode (plan.withCapacity capacity') file content p) =
        .ok other ∧ store.Alike other := by
  refine ⟨?dense, ?lines, ?text, ?compact, ?binary⟩
  case dense =>
    obtain ⟨split, single, hsplit, hsingle, hsame, halike⟩ :=
      ofDense_alike_iff hlayer hcapacity hlength
    exact ⟨split, single, hsplit, hsingle, hsame, hsame.vectorAt, hsame.toPayload,
      hsame.compact, halike⟩
  case lines => exact fun _ _ _ _ _ h hle => TextModel.decode_alike h hle
  case text => exact fun _ _ _ _ _ h hle => TextModel.decodeBytes_alike h hle
  case compact => exact fun _ _ _ _ h hle => Compact.decode_alike h hle
  case binary => exact fun _ _ _ _ _ _ h hle hroom => Binary.decode_alike h hle hroom

/-- Three vectors in a segment each and in a single segment; and what is written of them, read in
segments of one vector and of two. -/
theorem segments_transparent_three :
    letI : Memory := .ample
    let x := Binary64.ofPattern 0x3FF8000000000000
    let values := [x, .zero, .nan, x, .zero, .zero]
    let plan : Binary.Plan := ⟨.little, 2, 0, 0, .strict, fun _ => false⟩
    ∃ split single, ofDense ["a", "b", "a"] 2 values (some 2) = .ok split ∧
      ofDense ["a", "b", "a"] 2 values none = .ok single ∧ split.Alike single ∧
      (∃ other, TextModel.decode (TextModel.lines (TextModel.text split)) "model" (some 5) =
        .ok other) ∧
      (∃ other, TextModel.decodeBytes (Utf8.encode (TextModel.text split)) "model" (some 5) =
        .ok other) ∧
      (∃ other, Compact.decode (Compact.octets split) (some 5) = .ok other ∧ split.Alike other) ∧
      ∃ other, Binary.outcome (Binary.decode ((plan.whole (Binary.octets split)).withCapacity 5)
        "model" (Binary.octets split) .silent) = .ok other := by
  let memory : Memory := .ample
  intro x values plan
  have hlength : values.length = ["a", "b", "a"].length * 2 := rfl
  obtain ⟨hdense, hlines, htext, hcompact, hbinary⟩ :=
    segments_transparent Nat.two_pos (Int.le_refl 2) hlength
  obtain ⟨split, single, hsplit, hsingle, -, -, -, -, halike⟩ := hdense
  obtain ⟨hvocab, hsize, hvalues, -⟩ := of_ofDense_eq_ok hsplit
  have hlong : split.isTooLong = false := by
    rw [isTooLong, vocabSize, hvocab, hsize]
    decide +kernel
  have hbound : ∀ c ∈ some (2 : Int), (split.layerSize : Int) ≤ c := by
    rw [hsize]
    decide
  have hroom : Memory.Holds [split.vocabSize * split.layerSize] := by
    rw [vocabSize, hvocab, hsize]
    decide
  have hfields : ∀ word ∈ split.vocab, Text.IsField word.toList := by
    rw [hvocab]
    decide +kernel
  refine ⟨split, single, hsplit, hsingle, halike.2 (.inl (List.cons_ne_nil _ _)), ?_, ?_, ?_, ?_⟩
  · obtain ⟨read, hread, -, hlayer, -⟩ := (TextModel.restores_decode_iff hlong hbound).2
      ⟨fun word hword => ⟨(hfields word hword).ne_nil, (hfields word hword).no_space,
        (hfields word hword).no_newline⟩, hroom⟩
    obtain ⟨other, hother, -⟩ := hlines _ _ _ 5 _ hread (by rw [hlayer, hsize]; decide)
    exact ⟨other, hother⟩
  · obtain ⟨read, hread, -, hlayer, -⟩ :=
      TextModel.decodeBytes_text hfields hlong hroom "model" hbound
    obtain ⟨other, hother, -⟩ := htext _ _ _ 5 _ hread (by rw [hlayer, hsize]; decide)
    exact ⟨other, hother⟩
  · have hfits : Compact.FitsFields split := by
      refine ⟨by rw [hsize]; decide, by rw [vocabSize, hvocab]; decide, ?_⟩
      rw [hvocab]
      decide +kernel
    have hread : Compact.decode (Compact.octets split) (some 2) = .ok split := by
      rw [Compact.decode_eq_ok_iff]
      refine ⟨List.prefix_refl _, hfits, hroom, ?_⟩
      rw [hvocab, hsize, hvalues, hsplit]
    exact hcompact _ _ 5 _ hread (by rw [hsize]; decide)
  · have htokens : ∀ word ∈ split.vocab, Binary.IsToken word := by
      rw [hvocab]
      decide +kernel
    have hcapacity : (split.layerSize : Int) ≤ plan.capacity := by
      rw [hsize]
      decide
    have hsegments : Memory.HoldsSegments split.vocabSize split.layerSize plan.capacity := by
      rw [vocabSize, hvocab, hsize]
      decide
    obtain ⟨read, hread, hwords, hlayer⟩ :=
      Binary.decode_whole_octets plan rfl hlong hcapacity hsegments htokens "model" .silent
    obtain ⟨other, hother, -⟩ := hbinary _ _ _ _ 5 _ hread (by rw [hlayer, hsize]; decide)
      (by rw [vocabSize, hwords, hvocab, hlayer, hsize]; decide)
    exact ⟨other, hother⟩

/-- **An empty segment can be told from none**, for a row of it is too large for an array. -/
theorem segments_apart :
    let split : Store := ⟨[], 0x2000000000000000, 1, [], by decide,
      Layout.fault?_eq_none_iff.1 (by decide)⟩
    let single : Store := ⟨[], 0x2000000000000000, 0, [[]], by decide,
      Layout.fault?_eq_none_iff.1 (by decide)⟩
    ofDense [] 0x2000000000000000 [] (some 0x2000000000000000) = .ok split ∧
      ofDense [] 0x2000000000000000 [] none = .ok single ∧ ¬ split.Alike single ∧
      split.listEntries = .ok [] ∧ single.listEntries = .error .octets ∧
      TextModel.encode split = .ok "0 2305843009213693952\n" ∧
      TextModel.encode single = .error (.room .octets) ∧
      Binary.encode split = .ok (Utf8.encode "0 2305843009213693952\n") ∧
      Binary.encode single = .error (.room .octets) := by
  intro split single
  have hsingle : ofDense [] 0x2000000000000000 [] none = .ok single := by
    rw [ofDense, if_neg (by decide)]
    exact ofSegments_of_fits single.layerSize_pos single.fits
  refine ⟨rfl, hsingle, ?_, rfl, rfl, ?_, ?_, ?_, ?_⟩
  · intro h
    cases h.listEntries
  · exact TextModel.encode_eq_ok_iff.2 ⟨by decide +kernel, .inr (.inl rfl), by decide +kernel⟩
  · rw [TextModel.encode, if_neg (by decide +kernel)]
    rfl
  · exact Binary.encode_eq_ok_iff.2 ⟨by decide +kernel, .inr (.inl rfl), by decide +kernel⟩
  · rw [Binary.encode, if_neg (by decide +kernel)]
    rfl

end Store

end WordVectors
