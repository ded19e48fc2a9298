import WordVectors.Codec.Text
import WordVectors.Proofs.Decimal.ReadBack
import WordVectors.Proofs.Split
import WordVectors.Proofs.Store
import WordVectors.Proofs.Utf8

/-!
# Round trip of text models

A model whose words can be fields of a line is read back from its text, with every component
replaced by what is read from the text of that component.

## Main definitions

* `TextModel.reread`: what is read from the text of a component
* `TextModel.writtenLines`: the lines of the text of a model

## Main results

* `TextModel.lines_text`, `TextModel.fileLines_text`: the lines of the text of a model
* `TextModel.parseLines_lineText`: written vectors are read back one after another
* `TextModel.decodeBytes_text`: so is a written model
-/

namespace WordVectors.TextModel

open Text

/-! ## Components -/

/-- **What is read from the text of a component.** -/
def reread (x : Binary64) : Binary64 := (Binary64.read? (writeValue x)).getD .nan

/-- The text of a component is a numeral. -/
theorem read?_writeValue (x : Binary64) : Binary64.read? (writeValue x) = some (reread x) := by
  obtain ⟨y, hy, -⟩ := Binary32.exists_read?_text numbers x.narrow
  rw [reread, writeValue, hy, Option.getD_some]

/-- **Which components are read back**: all but one of either sign, if no difference is made
between those that stand for no number. -/
theorem same_narrow_reread_iff (x : Binary64) :
    (reread x).narrow.Same x.narrow ↔ ¬ x.narrow.IsLost := by
  obtain ⟨y, hy, hsame, -⟩ := Binary32.exists_read?_text numbers x.narrow
  rw [reread, writeValue, hy, Option.getD_some, hsame]

theorem narrow_reread_eq_iff (x : Binary64) :
    (reread x).narrow = x.narrow ↔ x.narrow.IsKept := by
  obtain ⟨y, hy, -, hkept⟩ := Binary32.exists_read?_text numbers x.narrow
  rw [reread, writeValue, hy, Option.getD_some, hkept]

/-- Space and line endings come before the visible characters. -/
theorem not_mem_of_isGraphic {c : Char} (hc : c.toNat < 0x21) {cs : List Char}
    (h : ∀ c ∈ cs, IsGraphic c) : c ∉ cs := by
  intro hmem
  have := (h c hmem).1
  omega

theorem isField_of_isGraphic {cs : List Char} (hne : cs ≠ []) (h : ∀ c ∈ cs, IsGraphic c) :
    IsField cs :=
  ⟨hne, not_mem_of_isGraphic (by decide) h, not_mem_of_isGraphic (by decide) h,
    not_mem_of_isGraphic (by decide) h⟩

theorem isField_writeValue (x : Binary64) : IsField (writeValue x) :=
  isField_of_isGraphic FloatFormat.isGraphic_of_mem_text.1 FloatFormat.isGraphic_of_mem_text.2

theorem isGraphic_of_mem_digits {n : ℕ} : ∀ c ∈ digits n, IsGraphic c :=
  fun c hc => isGraphic_of_isDigit (isDigit_of_mem_digits c hc)

theorem isField_digits (n : ℕ) : IsField (digits n) :=
  isField_of_isGraphic (digits_ne_nil n) isGraphic_of_mem_digits

/-! ## Lines -/

/-- The line of a word and its vector, without its newline. -/
def lineText (entry : String × List Binary64) : List Char :=
  entry.1.toList ++ spaced (entry.2.map writeValue)

/-- The first line of a model, without its newline. -/
def headerText (store : Store) : List Char :=
  digits store.vocabSize ++ spaced [digits store.layerSize]

/-- **The lines of the text of a model.** -/
def writtenLines (store : Store) : List (List Char) :=
  headerText store :: store.entries.map lineText

theorem toList_text (store : Store) :
    (text store).toList = (writtenLines store).flatMap fun line => line ++ ['\n'] := by
  have hheader : headerLine store = headerText store ++ ['\n'] := by
    rw [headerLine, headerText, spaced, List.flatMap_singleton]
  have hline : writeLine = fun entry => lineText entry ++ ['\n'] := funext fun entry => by
    rw [writeLine, lineText, spaced, List.flatMap_map]
  rw [text, String.toList_ofList, writtenLines, List.flatMap_cons, List.flatMap_map, hheader, hline]

variable {store : Store}

theorem fst_mem_vocab : ∀ entry ∈ store.entries, entry.1 ∈ store.vocab := by
  intro entry hentry
  rw [← store.map_fst_entries]
  exact List.mem_map_of_mem hentry

/-- **A line has no line ending** that is not in a word. -/
theorem not_mem_of_mem_writtenLines {c : Char} (hc : c.toNat < 0x20)
    (hwords : ∀ word ∈ store.vocab, c ∉ word.toList) : ∀ line ∈ writtenLines store, c ∉ line := by
  have hspace : c ≠ ' ' := by
    rintro rfl
    exact absurd hc (by decide)
  have hdigits : ∀ n, c ∉ digits n := fun n =>
    not_mem_of_isGraphic (by omega) isGraphic_of_mem_digits
  intro line hline
  rcases List.mem_cons.1 hline with rfl | hline
  · rw [headerText, List.mem_append, not_or]
    refine ⟨hdigits _, not_mem_spaced hspace ?_⟩
    intro f hf
    rw [List.mem_singleton.1 hf]
    exact hdigits _
  · obtain ⟨entry, hentry, rfl⟩ := List.mem_map.1 hline
    rw [lineText, List.mem_append, not_or]
    refine ⟨hwords _ (fst_mem_vocab entry hentry), not_mem_spaced hspace ?_⟩
    intro f hf
    obtain ⟨x, -, rfl⟩ := List.mem_map.1 hf
    exact not_mem_of_isGraphic (by omega) FloatFormat.isGraphic_of_mem_text.2

/-- **The lines of the text of a model** whose words have no newline. -/
theorem lines_text (hnewline : ∀ word ∈ store.vocab, '\n' ∉ word.toList) :
    lines (text store) = (writtenLines store).map String.ofList := by
  rw [lines, toList_text,
    splitLines_flatMap (not_mem_of_mem_writtenLines (by decide) hnewline)]

/-- **The lines of a file with the text of a model** whose words have no carriage return are those
of the text. -/
theorem fileLines_text (hreturn : ∀ word ∈ store.vocab, '\r' ∉ word.toList) :
    fileLines (text store) = lines (text store) := by
  have hnone : '\r' ∉ (text store).toList := by
    rw [toList_text, List.mem_flatMap]
    rintro ⟨line, hline, hmem⟩
    rcases List.mem_append.1 hmem with hmem | hmem
    · exact not_mem_of_mem_writtenLines (by decide) hreturn line hline hmem
    · exact absurd (List.mem_singleton.1 hmem) (by decide)
  rw [fileLines, unifyNewlines_of_not_mem hnone, lines]

/-- **Which models are written as text.** -/
theorem encode_eq_ok_iff {out : String} :
    encode store = .ok out ↔
      store.isTooLong = false ∧ store.HasRows Room.numberWidth ∧ out = text store := by
  rw [← store.checkRows_eq_ok_iff (by decide)]
  exact WriteError.eq_ok_iff

/-! ## Reading -/

/-- **The sizes on a written first line are read back.** -/
theorem parseHeader_headerText (hlong : store.isTooLong = false) (file : String) :
    parseHeader (String.ofList (headerText store)) file =
      .ok (store.vocabSize, store.layerSize) := by
  obtain ⟨hvocab, hlayer⟩ := Bool.or_eq_false_iff.1 hlong
  have hpos := store.layerSize_pos
  have hfields : splitFields (headerText store) =
      [digits store.vocabSize, digits store.layerSize] :=
    splitFields_spaced (isField_digits _).ne_nil (isField_digits _).no_space (List.cons_ne_nil _ _)
      fun f hf => List.mem_singleton.1 hf ▸ isField_digits _
  rw [parseHeader, String.toList_ofList, hfields]
  simp only [Numeral.readInt_digits hvocab, Numeral.readInt_digits hlayer]
  rw [if_neg (by omega), Int.toNat_natCast]

theorem parseValues_writeValue (file : String) (n : ℕ) (xs : List Binary64) :
    parseValues file n (xs.map writeValue) = .ok (xs.map reread) := by
  induction xs with
  | nil => rfl
  | cons x xs ih =>
    rw [List.map_cons, parseValues, read?_writeValue]
    simp only [ih]
    rfl

/-- **A written vector is read back** with its word. -/
theorem parseLine_lineText {entry : String × List Binary64} (hne : entry.1.toList ≠ [])
    (hspace : ' ' ∉ entry.1.toList) (hvalues : entry.2 ≠ []) (file : String) (n : ℕ) :
    parseLine entry.2.length file n (String.ofList (lineText entry)) =
      .ok (entry.1, entry.2.map reread) := by
  have hfields : splitFields (lineText entry) = entry.1.toList :: entry.2.map writeValue := by
    apply splitFields_spaced hne hspace fun h => hvalues (List.map_eq_nil_iff.1 h)
    intro f hf
    obtain ⟨x, -, rfl⟩ := List.mem_map.1 hf
    exact isField_writeValue x
  rw [parseLine, String.toList_ofList, hfields]
  rw [List.length_cons, List.length_map, if_neg (fun h => h rfl), List.tail_cons,
    parseValues_writeValue, List.head?_cons, Option.getD_some, String.ofList_toList]
  rfl

/-- **Written vectors are read back** one after another. -/
theorem parseLines_lineText {layerSize : ℕ} {entries : List (String × List Binary64)}
    (hlayer : 0 < layerSize)
    (hwords : ∀ entry ∈ entries, entry.1.toList ≠ [] ∧ ' ' ∉ entry.1.toList)
    (hlength : ∀ entry ∈ entries, entry.2.length = layerSize) (file : String) (n : ℕ) :
    parseLines layerSize file n ((entries.map lineText).map String.ofList) =
      .ok (entries.map fun entry => (entry.1, entry.2.map reread)) := by
  induction entries generalizing n with
  | nil => rfl
  | cons entry entries ih =>
    rw [List.forall_mem_cons] at hwords hlength
    obtain rfl := hlength.1
    have hvalues := List.ne_nil_of_length_pos hlayer
    rw [List.map_cons, List.map_cons, parseLines,
      parseLine_lineText hwords.1.1 hwords.1.2 hvalues, ih hwords.2 hlength.2]
    rfl

/-- The lines of the text of a model are read as its words, and what is read from its components,
if memory holds them. -/
theorem decode_writtenLines [Memory]
    (hwords : ∀ word ∈ store.vocab, word.toList ≠ [] ∧ ' ' ∉ word.toList)
    (hlong : store.isTooLong = false) (hroom : Memory.Holds [store.vocabSize * store.layerSize])
    (file : String) (capacity : Option Int) :
    decode ((writtenLines store).map String.ofList) file capacity =
      (Store.ofDense store.vocab store.layerSize (store.flatten.map reread)
        capacity).mapError .store := by
  have hcount : ((store.entries.map lineText).map String.ofList).length = store.vocabSize := by
    rw [List.length_map, List.length_map, store.length_entries]
  have hlines := parseLines_lineText store.layerSize_pos
    (fun entry hentry => hwords _ (fst_mem_vocab entry hentry)) store.length_of_mem_entries file 1
  have hfirst : (store.entries.map fun entry => (entry.1, entry.2.map reread)).map Prod.fst =
      store.vocab := by
    rw [List.map_map, ← store.map_fst_entries]
    rfl
  have hvalues : (store.entries.map fun entry => (entry.1, entry.2.map reread)).flatMap Prod.snd =
      store.flatten.map reread := by
    rw [← store.flatMap_snd_entries, List.flatMap_map, List.map_flatMap]
  rw [writtenLines, List.map_cons, decode]
  simp only [parseHeader_headerText hlong, hcount, bind, Except.bind, ne_eq, not_true_eq_false,
    if_false, holds_singleton_iff.1 hroom, Except.mapError, hlines, hfirst, hvalues]

theorem decodeBytes_encode [Memory] (text file : String) (capacity : Option Int) :
    decodeBytes (Utf8.encode text) file capacity = decode (fileLines text) file capacity := by
  rw [decodeBytes, Utf8.decode_encode]
  rfl

/-- **A written model is read back**, with what is read from its components. -/
theorem decodeBytes_text [Memory] (hwords : ∀ word ∈ store.vocab, IsField word.toList)
    (hlong : store.isTooLong = false) (hroom : Memory.Holds [store.vocabSize * store.layerSize])
    (file : String) {capacity : Option Int}
    (hcapacity : ∀ c ∈ capacity, (store.layerSize : Int) ≤ c) :
    ∃ read, decodeBytes (Utf8.encode (text store)) file capacity = .ok read ∧
      read.vocab = store.vocab ∧ read.layerSize = store.layerSize ∧
      read.flatten = store.flatten.map reread ∧
      (store.vocab = [] → read.segments = if capacity = none then [[]] else []) := by
  have hlength : (store.flatten.map reread).length = store.vocab.length * store.layerSize := by
    rw [List.length_map, store.length_flatten]
  obtain ⟨read, hread, hsame⟩ := Store.ofDense_eq_ok store.layerSize_pos hcapacity hlength
  refine ⟨read, ?_, hsame⟩
  rw [decodeBytes_encode, fileLines_text fun w hw => (hwords w hw).no_return,
    lines_text fun w hw => (hwords w hw).no_newline,
    decode_writtenLines (fun w hw => ⟨(hwords w hw).ne_nil, (hwords w hw).no_space⟩) hlong hroom,
    hread]
  rfl

end WordVectors.TextModel
