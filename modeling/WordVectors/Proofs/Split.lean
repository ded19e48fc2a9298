import WordVectors.Text.Split

/-!
# Lines and fields that are put together

Parts that do not contain a separator are found again between the separators. So the lines of a
text are those it was put together from, and the fields of a line are too, as long as none of them
is empty. No other parts are ever found: a line has no newline, and a field is not empty and has no
space.

## Main definitions

* `Text.IsField`: a text that can be a field of a line
* `Text.spaced`: fields with a space in front of each

## Main results

* `Text.splitOn_append_cons`, `Text.splitOn_append`: a text is split at each separator
* `Text.splitLines_flatMap`: the lines of a text that was put together from lines
* `Text.splitFields_spaced`: the fields of a line that was put together from fields
* `Text.unifyNewlines_of_not_mem`: without carriage returns nothing is replaced
* `Text.of_mem_splitLines`, `Text.of_mem_splitFields`: what a line and a field cannot contain
-/

namespace WordVectors.Text

/-! ## Parts -/

variable {sep : Char} {part : List Char}

theorem splitOn_of_not_mem (h : sep ∉ part) : splitOn sep part = [part] := by
  induction part with
  | nil => rfl
  | cons c cs ih =>
    rw [List.mem_cons, not_or] at h
    rw [splitOn, if_neg (Ne.symm h.1), ih h.2]

theorem splitOn_ne_nil (cs : List Char) : splitOn sep cs ≠ [] := by
  cases cs with
  | nil => exact List.cons_ne_nil _ _
  | cons c cs =>
    rw [splitOn]
    split
    · exact List.cons_ne_nil _ _
    · split <;> exact List.cons_ne_nil _ _

/-- **A text is split at each of its separators.** -/
theorem splitOn_append_cons (cs rest : List Char) :
    splitOn sep (cs ++ sep :: rest) = splitOn sep cs ++ splitOn sep rest := by
  induction cs with
  | nil => rw [List.nil_append, splitOn, splitOn, if_pos rfl, List.singleton_append]
  | cons c cs ih =>
    rw [List.cons_append, splitOn, splitOn]
    split
    · rw [ih, List.cons_append]
    · have hne : splitOn sep cs ≠ [] := splitOn_ne_nil cs
      obtain ⟨part, parts, hparts⟩ := List.exists_cons_of_ne_nil hne
      rw [ih, hparts, List.cons_append, List.cons_append]

/-- **The first part ends at the first separator.** -/
theorem splitOn_append (h : sep ∉ part) (rest : List Char) :
    splitOn sep (part ++ sep :: rest) = part :: splitOn sep rest := by
  rw [splitOn_append_cons, splitOn_of_not_mem h, List.singleton_append]

/-- **A part has no separator**, and nothing that is not in the text. -/
theorem of_mem_splitOn {cs : List Char} (h : part ∈ splitOn sep cs) : sep ∉ part ∧ part ⊆ cs := by
  induction cs generalizing part with
  | nil =>
    rw [splitOn, List.mem_singleton] at h
    subst h
    exact ⟨List.not_mem_nil, List.Subset.refl _⟩
  | cons c cs ih =>
    rw [splitOn] at h
    split at h
    · rcases List.mem_cons.1 h with rfl | h
      · exact ⟨List.not_mem_nil, List.nil_subset _⟩
      · exact ⟨(ih h).1, List.subset_cons_of_subset _ (ih h).2⟩
    · next hc =>
      have hfirst : ∀ {first : List Char}, sep ∉ first → first ⊆ cs →
          sep ∉ c :: first ∧ c :: first ⊆ c :: cs := fun hsep hsub => by
        rw [List.mem_cons, not_or]
        exact ⟨⟨Ne.symm hc, hsep⟩, List.cons_subset_cons _ hsub⟩
      split at h
      · rw [List.mem_singleton] at h
        subst h
        exact hfirst List.not_mem_nil (List.nil_subset _)
      · next first parts hparts =>
        rw [hparts] at ih
        rcases List.mem_cons.1 h with rfl | h
        · have := ih List.mem_cons_self
          exact hfirst this.1 this.2
        · have := ih (List.mem_cons_of_mem _ h)
          exact ⟨this.1, List.subset_cons_of_subset _ this.2⟩

/-! ## Lines -/

/-- **A line has no newline**, and nothing that is not in the text. -/
theorem of_mem_splitLines {cs line : List Char} (h : line ∈ splitLines cs) :
    '\n' ∉ line ∧ line ⊆ cs := by
  apply of_mem_splitOn
  simp only [splitLines] at h
  split at h
  · exact List.dropLast_subset _ h
  · exact h

theorem unifyNewlines_of_not_mem {cs : List Char} (h : '\r' ∉ cs) : unifyNewlines cs = cs := by
  induction cs with
  | nil => rfl
  | cons c cs ih =>
    rw [List.mem_cons, not_or] at h
    rw [unifyNewlines, ih h.2]
    · rintro rest rfl
      exact absurd rfl h.1
    · rintro rfl
      exact absurd rfl h.1

theorem splitOn_flatMap {lines : List (List Char)} (h : ∀ line ∈ lines, sep ∉ line) :
    splitOn sep (lines.flatMap fun line => line ++ [sep]) = lines ++ [[]] := by
  induction lines with
  | nil => rfl
  | cons line lines ih =>
    rw [List.forall_mem_cons] at h
    rw [List.flatMap_cons, List.append_assoc, List.singleton_append, splitOn_append h.1, ih h.2,
      List.cons_append]

/-- **The lines of a text are those it was put together from.** -/
theorem splitLines_flatMap {lines : List (List Char)} (h : ∀ line ∈ lines, '\n' ∉ line) :
    splitLines (lines.flatMap fun line => line ++ ['\n']) = lines := by
  simp only [splitLines, splitOn_flatMap h, List.getLast?_concat, if_true, List.dropLast_concat]

/-! ## Fields -/

theorem dropReturns_append {last : List Char} (hne : last ≠ []) (h : '\r' ∉ last)
    (front : List Char) : dropReturns (front ++ last) = front ++ last := by
  rcases List.eq_nil_or_concat last with rfl | ⟨init, c, rfl⟩
  · exact absurd rfl hne
  · rw [List.concat_eq_append, List.mem_append, not_or, List.mem_singleton] at h
    rw [dropReturns, List.concat_eq_append, ← List.append_assoc, List.reverse_concat,
      List.dropWhile_cons_of_neg, List.reverse_cons, List.reverse_reverse]
    rw [beq_iff_eq]
    exact Ne.symm h.2

/-- A carriage return at the end of a line is dropped like those in front of it. -/
theorem dropReturns_append_return (cs : List Char) :
    dropReturns (cs ++ ['\r']) = dropReturns cs := by
  rw [dropReturns, List.reverse_concat, List.dropWhile_cons_of_pos rfl, dropReturns]

theorem dropReturns_subset (cs : List Char) : dropReturns cs ⊆ cs := by
  intro c hc
  rw [dropReturns, List.mem_reverse] at hc
  exact List.mem_reverse.1 ((List.dropWhile_sublist _).subset hc)

/-- **A field is not empty and has no space**, and nothing that is not on the line. -/
theorem of_mem_splitFields {cs field : List Char} (h : field ∈ splitFields cs) :
    field ≠ [] ∧ ' ' ∉ field ∧ field ⊆ cs := by
  obtain ⟨hpart, hne⟩ := List.mem_filter.1 h
  obtain ⟨hspace, hsub⟩ := of_mem_splitOn hpart
  rw [Bool.not_eq_true', List.isEmpty_eq_false_iff] at hne
  exact ⟨hne, hspace, List.Subset.trans hsub (dropReturns_subset cs)⟩

/-- **A field of a line**: it is not empty and has neither space nor line ending. -/
structure IsField (field : List Char) : Prop where
  ne_nil : field ≠ []
  no_space : ' ' ∉ field
  no_newline : '\n' ∉ field
  no_return : '\r' ∉ field

instance (field : List Char) : Decidable (IsField field) :=
  decidable_of_iff (field ≠ [] ∧ ' ' ∉ field ∧ '\n' ∉ field ∧ '\r' ∉ field)
    ⟨fun h => ⟨h.1, h.2.1, h.2.2.1, h.2.2.2⟩,
      fun h => ⟨h.ne_nil, h.no_space, h.no_newline, h.no_return⟩⟩

/-- Fields behind one another, each with a space in front. -/
def spaced (fields : List (List Char)) : List Char := fields.flatMap fun field => ' ' :: field

variable {field : List Char} {fields : List (List Char)}

theorem not_mem_spaced {c : Char} (hc : c ≠ ' ') (h : ∀ field ∈ fields, c ∉ field) :
    c ∉ spaced fields := by
  rw [spaced, List.mem_flatMap]
  rintro ⟨field, hfield, hmem⟩
  rcases List.mem_cons.1 hmem with rfl | hmem
  · exact hc rfl
  · exact h field hfield hmem

theorem splitOn_spaced (hfield : ' ' ∉ field) (hfields : ∀ field ∈ fields, ' ' ∉ field) :
    splitOn ' ' (field ++ spaced fields) = field :: fields := by
  induction fields generalizing field with
  | nil =>
    rw [spaced, List.flatMap_nil, List.append_nil]
    exact splitOn_of_not_mem hfield
  | cons next fields ih =>
    rw [List.forall_mem_cons] at hfields
    have hrest := ih hfields.1 hfields.2
    rw [spaced, List.flatMap_cons, List.cons_append, splitOn_append hfield]
    exact congrArg (field :: ·) hrest

/-- A line that ends in a field has no carriage returns at its end. -/
theorem dropReturns_spaced (hfields : fields ≠ []) (hall : ∀ field ∈ fields, IsField field) :
    dropReturns (field ++ spaced fields) = field ++ spaced fields := by
  apply dropReturns_append
  · rw [spaced, Ne, List.flatMap_eq_nil_iff]
    exact fun hnil => absurd (hnil _ (List.head_mem hfields)) (List.cons_ne_nil _ _)
  · exact not_mem_spaced (by decide) fun f hf => (hall f hf).no_return

/-- **The fields of a line are those it was put together from.** The first may have carriage
returns, for it is not at the end of the line. -/
theorem splitFields_spaced (hne : field ≠ []) (hspace : ' ' ∉ field) (hfields : fields ≠ [])
    (hall : ∀ field ∈ fields, IsField field) :
    splitFields (field ++ spaced fields) = field :: fields := by
  rw [splitFields, dropReturns_spaced hfields hall,
    splitOn_spaced hspace fun f hf => (hall f hf).no_space, List.filter_eq_self]
  intro f hf
  rw [Bool.not_eq_true', List.isEmpty_eq_false_iff]
  rcases List.mem_cons.1 hf with rfl | hf
  · exact hne
  · exact (hall f hf).ne_nil

end WordVectors.Text
