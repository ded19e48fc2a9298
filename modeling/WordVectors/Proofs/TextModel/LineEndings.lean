import WordVectors.Proofs.TextModel.RoundTrip

/-!
# Line endings of text models

The lines of a text model may end in newlines, in carriage returns, or in both. In a file every
ending is read as a newline. A text at hand is split at newlines only, and the carriage returns in
front of them are left at the ends of lines, where they are part of no field. Both come to the same,
since a reading sees no more of a line than what stands in front of the carriage returns at its end.

## Main definitions

* `Text.withEnding`: a text with another ending in the place of each newline
* `ModelError.unnamed`: what an error tells apart from the name of the file
* `TextModel.stripped`: a line without the carriage returns at its end

## Main results

* `Text.exists_splitLines_withEnding`: carriage returns in front of newlines are left on the lines
* `Text.unifyNewlines_both`, `Text.unifyNewlines_return`: in a file every ending is a newline
* `TextModel.decode_stripped`: carriage returns at the ends of lines have no part in a reading
* `TextModel.decode_line_endings`: a text is read alike, whatever its line endings are
-/

namespace WordVectors

/-! ## Texts with other line endings -/

namespace Text

/-- **A text with another ending in the place of each newline.** -/
def withEnding (ending cs : List Char) : List Char :=
  cs.flatMap fun c => if c = '\n' then ending else [c]

variable {ending cs : List Char}

theorem withEnding_newline (ending cs : List Char) :
    withEnding ending ('\n' :: cs) = ending ++ withEnding ending cs := by
  rw [withEnding, List.flatMap_cons, if_pos rfl, withEnding]

theorem withEnding_cons {c : Char} (hc : c ≠ '\n') (ending cs : List Char) :
    withEnding ending (c :: cs) = c :: withEnding ending cs := by
  rw [withEnding, List.flatMap_cons, if_neg hc, withEnding, List.singleton_append]

theorem withEnding_append {part : List Char} (h : '\n' ∉ part) (ending cs : List Char) :
    withEnding ending (part ++ cs) = part ++ withEnding ending cs := by
  induction part with
  | nil => rfl
  | cons c part ih =>
    rw [List.mem_cons, not_or] at h
    rw [List.cons_append, withEnding_cons (Ne.symm h.1), ih h.2, List.cons_append]

/-- A text that is split at newlines has a carriage return at the end of each part but the last. -/
theorem exists_splitOn_withEnding (cs : List Char) :
    ∃ front last, splitOn '\n' cs = front ++ [last] ∧
      splitOn '\n' (withEnding ['\r', '\n'] cs) = front.map (· ++ ['\r']) ++ [last] := by
  induction hn : cs.length using Nat.strong_induction_on generalizing cs with
  | _ n ih =>
    by_cases hmem : '\n' ∈ cs
    · obtain ⟨part, rest, rfl, hpart⟩ := List.eq_append_cons_of_mem hmem
      have hlt : rest.length < n := by
        rw [← hn, List.length_append, List.length_cons]
        omega
      obtain ⟨front, last, hsplit, hended⟩ := ih _ hlt rest rfl
      have hreturn : '\n' ∉ part ++ ['\r'] := by simpa using hpart
      have hrest : withEnding ['\r', '\n'] (part ++ '\n' :: rest) =
          (part ++ ['\r']) ++ '\n' :: withEnding ['\r', '\n'] rest := by
        rw [withEnding_append hpart, withEnding_newline, List.append_assoc]
        rfl
      refine ⟨part :: front, last, ?_, ?_⟩
      · rw [splitOn_append hpart, hsplit, List.cons_append]
      · rw [hrest, splitOn_append hreturn, hended, List.map_cons, List.cons_append]
    · have hsame : withEnding ['\r', '\n'] cs = cs := by
        rw [← List.append_nil cs, withEnding_append hmem, withEnding, List.flatMap_nil]
      exact ⟨[], cs, splitOn_of_not_mem hmem, by rw [hsame, splitOn_of_not_mem hmem]; rfl⟩

/-- **Carriage returns in front of newlines are left at the ends of the lines.** There are as many
lines as without them. -/
theorem exists_splitLines_withEnding (cs : List Char) :
    ∃ front back, splitLines cs = front ++ back ∧
      splitLines (withEnding ['\r', '\n'] cs) = front.map (· ++ ['\r']) ++ back := by
  obtain ⟨front, last, hsplit, hended⟩ := exists_splitOn_withEnding cs
  simp only [splitLines, hsplit, hended, List.getLast?_concat, Option.some.injEq]
  by_cases hlast : last = []
  · refine ⟨front, [], ?_, ?_⟩
    · rw [if_pos hlast, List.dropLast_concat, List.append_nil]
    · rw [if_pos hlast, List.dropLast_concat, List.append_nil]
  · exact ⟨front, [last], if_neg hlast, if_neg hlast⟩

theorem unifyNewlines_cons {c : Char} (hc : c ≠ '\r') (cs : List Char) :
    unifyNewlines (c :: cs) = c :: unifyNewlines cs := by
  rw [unifyNewlines]
  · rintro rest rfl
    exact absurd rfl hc
  · exact hc

/-- **In a file a carriage return with a newline is a newline.** -/
theorem unifyNewlines_both (h : '\r' ∉ cs) : unifyNewlines (withEnding ['\r', '\n'] cs) = cs := by
  induction cs with
  | nil => rfl
  | cons c cs ih =>
    rw [List.mem_cons, not_or] at h
    by_cases hc : c = '\n'
    · subst hc
      rw [withEnding_newline, List.cons_append, List.singleton_append, unifyNewlines, ih h.2]
    · rw [withEnding_cons hc, unifyNewlines_cons (Ne.symm h.1), ih h.2]

/-- **In a file a carriage return without a newline is one too.** -/
theorem unifyNewlines_return (h : '\r' ∉ cs) : unifyNewlines (withEnding ['\r'] cs) = cs := by
  induction cs with
  | nil => rfl
  | cons c cs ih =>
    rw [List.mem_cons, not_or] at h
    by_cases hc : c = '\n'
    · have hnone : '\n' ∉ withEnding ['\r'] cs := by
        rw [withEnding, List.mem_flatMap]
        rintro ⟨c, -, hmem⟩
        split at hmem
        · exact absurd (List.mem_singleton.1 hmem) (by decide)
        · next hne => exact hne (List.mem_singleton.1 hmem).symm
      subst hc
      rw [withEnding_newline, List.singleton_append, unifyNewlines, ih h.2]
      rintro rest heq
      rw [heq] at hnone
      exact hnone List.mem_cons_self
    · rw [withEnding_cons hc, unifyNewlines_cons (Ne.symm h.1), ih h.2]

end Text

/-! ## Errors without names -/

/-- A line without the carriage returns at its end. -/
def TextModel.stripped (line : String) : String := String.ofList (Text.dropReturns line.toList)

/-- **What an error tells apart from the name of the file**, and from the carriage returns at the
end of a line that it quotes. Its kind is kept, and so are line numbers, sizes and values. -/
def ModelError.unnamed : ModelError → ModelError
  | header (.noLine _) => header (.noLine "")
  | header (.fieldCount _ line) => header (.fieldCount "" (TextModel.stripped line))
  | header (.notIntegers _ line) => header (.notIntegers "" (TextModel.stripped line))
  | header (.layerSize _ got) => header (.layerSize "" got)
  | size e => size { e with file := "" }
  | value _ line text => value "" line text
  | e => e

/-- Errors that differ in their names only are of the same kind, and tell the same size. -/
theorem ModelError.unnamed_eq_size {e : ModelError} {line : ℕ} {expected actual : Int}
    (h : e.unnamed = .size ⟨"", line, expected, actual⟩) :
    ∃ file, e = .size ⟨file, line, expected, actual⟩ := by
  cases e with
  | size e =>
    obtain ⟨file, line, expected, actual⟩ := e
    obtain ⟨-, rfl, rfl, rfl⟩ := SizeMismatch.mk.inj (ModelError.size.inj h)
    exact ⟨file, rfl⟩
  | header e => cases e <;> cases h
  | _ => cases h

section

variable {ε ε' α β : Type} {f : ε → ε'}

theorem mapError_map (r : Except ε α) (g : α → β) :
    (r.map g).mapError f = (r.mapError f).map g := by
  cases r <;> rfl

/-- Two steps fail alike if each does. -/
theorem mapError_bind_congr {r r' : Except ε α} {g g' : α → Except ε β}
    (h : r.mapError f = r'.mapError f) (hg : ∀ a, (g a).mapError f = (g' a).mapError f) :
    (r.bind g).mapError f = (r'.bind g').mapError f := by
  rcases r with e | a <;> rcases r' with e' | a'
  · exact congrArg Except.error (Except.error.inj h)
  · cases h
  · cases h
  · obtain rfl := Except.ok.inj h
    exact hg a

end

/-! ## Readings of stripped lines -/

namespace TextModel

open Text

theorem dropReturns_stripped (line : String) :
    dropReturns (stripped line).toList = dropReturns line.toList := by
  rw [stripped, String.toList_ofList]
  exact List.rdropWhile_idempotent _ _

theorem splitFields_stripped (line : String) :
    splitFields (stripped line).toList = splitFields line.toList := by
  rw [splitFields, splitFields, dropReturns_stripped]

theorem stripped_stripped (line : String) : stripped (stripped line) = stripped line := by
  rw [stripped, dropReturns_stripped, stripped]

theorem parseHeader_stripped (line file : String) :
    (parseHeader (stripped line) "").mapError ModelError.unnamed =
      (parseHeader line file).mapError ModelError.unnamed := by
  simp only [parseHeader, splitFields_stripped]
  split
  · split
    · split <;> rfl
    · simp only [Except.mapError, ModelError.unnamed, stripped_stripped]
  · simp only [Except.mapError, ModelError.unnamed, stripped_stripped]

theorem parseValues_unnamed (file : String) (n : ℕ) (fields : List (List Char)) :
    (parseValues "" n fields).mapError ModelError.unnamed =
      (parseValues file n fields).mapError ModelError.unnamed := by
  induction fields with
  | nil => rfl
  | cons field fields ih =>
    rw [parseValues, parseValues]
    split
    · rfl
    · rw [mapError_map, mapError_map, ih]

theorem parseLine_stripped (layerSize : ℕ) (file : String) (n : ℕ) (line : String) :
    (parseLine layerSize "" n (stripped line)).mapError ModelError.unnamed =
      (parseLine layerSize file n line).mapError ModelError.unnamed := by
  simp only [parseLine, splitFields_stripped]
  split
  · rfl
  · rw [mapError_map, mapError_map, parseValues_unnamed file]

theorem parseLines_stripped (layerSize : ℕ) (file : String) (n : ℕ) (lines : List String) :
    (parseLines layerSize "" n (lines.map stripped)).mapError ModelError.unnamed =
      (parseLines layerSize file n lines).mapError ModelError.unnamed := by
  induction lines generalizing n with
  | nil => rfl
  | cons line lines ih =>
    rw [List.map_cons, parseLines, parseLines]
    refine mapError_bind_congr (parseLine_stripped layerSize file n line) fun entry => ?_
    exact mapError_bind_congr (ih (n + 1)) fun _ => rfl

/-- **Carriage returns at the ends of lines have no part in a reading**, nor has the name of the
file, but in the wording of errors. -/
theorem decode_stripped [Memory] (lines : List String) (file : String) (capacity : Option Int) :
    (decode (lines.map stripped) "" capacity).mapError ModelError.unnamed =
      (decode lines file capacity).mapError ModelError.unnamed := by
  cases lines with
  | nil => rfl
  | cons first lines =>
    rw [List.map_cons, decode, decode]
    refine mapError_bind_congr (parseHeader_stripped first file) ?_
    rintro ⟨vocabSize, layerSize⟩
    dsimp only
    rw [List.length_map]
    split
    · rfl
    · refine mapError_bind_congr rfl fun _ => ?_
      exact mapError_bind_congr (parseLines_stripped layerSize file 1 lines) fun _ => rfl

/-! ## Readings of texts and files -/

/-- The lines of a text with carriage returns in front of its newlines, when these are dropped. -/
theorem map_stripped_lines (text : String) :
    (lines (String.ofList (withEnding ['\r', '\n'] text.toList))).map stripped =
      (lines text).map stripped := by
  obtain ⟨front, back, hsplit, hended⟩ := exists_splitLines_withEnding text.toList
  have hreturn : (front.map (· ++ ['\r'])).map (stripped ∘ String.ofList) =
      front.map (stripped ∘ String.ofList) := by
    rw [List.map_map]
    refine List.map_congr_left fun line _ => ?_
    simp only [Function.comp_apply, stripped, String.toList_ofList, dropReturns_append_return]
  rw [lines, lines, String.toList_ofList, hsplit, hended, List.map_map, List.map_map,
    List.map_append, List.map_append, hreturn]

/-- A file is read like the text whose newlines stand for its line endings. -/
theorem decodeBytes_of_unifyNewlines [Memory] {text : String} {cs : List Char}
    (h : unifyNewlines cs = text.toList) (file : String) (capacity : Option Int) :
    decodeBytes (Utf8.encode (String.ofList cs)) file capacity =
      decode (lines text) file capacity := by
  rw [decodeBytes_encode, fileLines, String.toList_ofList, h, lines]

/-- **A text is read alike, whatever its line endings are.** A text that is at hand, with newlines
or with carriage returns and newlines, and a file with newlines, with both, or with carriage returns
all come to the same store, or all fail for the same cause: what their errors tell is the same but
for the name of the file, and the carriage returns at the end of a first line that is quoted. -/
theorem decode_line_endings [Memory] {text : String} (h : '\r' ∉ text.toList)
    (name₁ name₂ file₁ file₂ file₃ : String) (capacity : Option Int) :
    let both := String.ofList (withEnding ['\r', '\n'] text.toList)
    let returns := String.ofList (withEnding ['\r'] text.toList)
    let readings :=
      [decode (lines text) name₁ capacity, decode (lines both) name₂ capacity,
        decodeBytes (Utf8.encode text) file₁ capacity,
        decodeBytes (Utf8.encode both) file₂ capacity,
        decodeBytes (Utf8.encode returns) file₃ capacity]
    (∃ store, ∀ r ∈ readings, r = .ok store) ∨
      ∃ cause, ∀ r ∈ readings, ∃ e : ModelError, r = .error e ∧ e.unnamed = cause := by
  intro both returns readings
  have hall : ∀ r ∈ readings, r.mapError ModelError.unnamed =
      (decode ((lines text).map stripped) "" capacity).mapError ModelError.unnamed := by
    have hfile := decodeBytes_of_unifyNewlines (unifyNewlines_of_not_mem h) file₁ capacity
    rw [String.ofList_toList] at hfile
    simp only [readings, List.forall_mem_cons, hfile, both, returns,
      decodeBytes_of_unifyNewlines (unifyNewlines_both h),
      decodeBytes_of_unifyNewlines (unifyNewlines_return h)]
    refine ⟨(decode_stripped _ _ _).symm, ?_, (decode_stripped _ _ _).symm,
      (decode_stripped _ _ _).symm, (decode_stripped _ _ _).symm, by simp⟩
    rw [← decode_stripped, map_stripped_lines]
  rcases hcommon : decode ((lines text).map stripped) "" capacity with e | store
  · refine .inr ⟨e.unnamed, fun r hr => ?_⟩
    have heq := hall r hr
    rw [hcommon] at heq
    exact exists_of_mapError_eq_error heq
  · refine .inl ⟨store, fun r hr => ?_⟩
    have heq := hall r hr
    rw [hcommon] at heq
    exact eq_ok_of_mapError_eq_ok heq

/-- A blank line at the end is a line without fields, whether its ending is a carriage return in a
file or a carriage return and a newline in a text. -/
theorem decode_line_endings_blank :
    letI : Memory := .ample
    '\r' ∉ "2 1\na 0\n\n".toList ∧
      ∀ r ∈ [decode (lines "2 1\r\na 0\r\n\r\n") "m" none,
          decodeBytes (Utf8.encode "2 1\ra 0\r\r") "f" none],
        ∃ file, r = .error (.size ⟨file, 2, 1, -1⟩) := by
  let memory : Memory := .ample
  have hnone : '\r' ∉ "2 1\na 0\n\n".toList := by decide
  have hplain : decode (lines "2 1\na 0\n\n") "" none = .error (.size ⟨"", 2, 1, -1⟩) := rfl
  refine ⟨hnone, ?_⟩
  rcases decode_line_endings hnone "" "m" "" "" "f" none with ⟨store, hall⟩ | ⟨cause, hall⟩
  · have hstore := hall _ List.mem_cons_self
    rw [hplain] at hstore
    cases hstore
  · simp only [List.forall_mem_cons] at hall
    obtain ⟨⟨e, he, rfl⟩, ⟨e₂, he₂, hcause₂⟩, -, -, ⟨e₃, he₃, hcause₃⟩, -⟩ := hall
    obtain rfl := Except.error.inj (hplain.symm.trans he)
    obtain ⟨file₂, rfl⟩ := ModelError.unnamed_eq_size hcause₂
    obtain ⟨file₃, rfl⟩ := ModelError.unnamed_eq_size hcause₃
    simp only [List.forall_mem_cons]
    exact ⟨⟨file₂, he₂⟩, ⟨file₃, he₃⟩, by simp⟩

end TextModel

end WordVectors
