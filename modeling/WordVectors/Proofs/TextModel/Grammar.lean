import WordVectors.Proofs.Store.Addressing
import WordVectors.Proofs.TextModel.RoundTrip

/-!
# The grammar of text models

What lines hold a model can be said without a reader. A line holds fields, with one or more spaces
between them and carriage returns at its end. The first line has two fields, the numbers of words
and of components, and every other line has a word and as many numbers as there are components. A
reading accepts exactly these lines if its segments can hold a vector, and otherwise it fails at the
first line that is at fault.

## Main definitions

* `Text.Separates`, `Text.HasFields`: the texts and the lines with given fields
* `TextModel.Sizes`, `TextModel.SpellsEntry`: a first line, and the line of a word and its vector
* `TextModel.HeaderFault`, `TextModel.LineFault`: why a line is neither
* `TextModel.Holds`, `TextModel.Fails`: the lines that hold a model, and why others hold none

## Main results

* `Text.splitFields_eq_iff`: the fields that are found on a line are those that it has
* `TextModel.parseLines_eq_ok_iff`, `TextModel.parseLines_eq_error_iff`: which lines are read, and
  at which line the reading fails
* `TextModel.decode_lines_grammar`: a reading accepts the lines of the grammar
-/

namespace WordVectors

/-! ## Fields -/

namespace Text

/-- **The texts with given fields**, which have one or more spaces between them. -/
inductive Separates : List Char → List (List Char) → Prop
  | nil : Separates [] []
  | space {cs : List Char} {fields : List (List Char)} (h : Separates cs fields) :
      Separates (' ' :: cs) fields
  | last {field : List Char} (hne : field ≠ []) (hspace : ' ' ∉ field) : Separates field [field]
  | field {field cs : List Char} {fields : List (List Char)} (hne : field ≠ [])
      (hspace : ' ' ∉ field) (h : Separates cs fields) :
      Separates (field ++ ' ' :: cs) (field :: fields)

/-- **The lines with given fields.** Carriage returns at the end of a line are part of no field. -/
inductive HasFields : List Char → List (List Char) → Prop
  | intro {cs : List Char} {fields : List (List Char)} (hreturn : cs.getLast? ≠ some '\r')
      (returns : ℕ) (h : Separates cs fields) :
      HasFields (cs ++ List.replicate returns '\r') fields

variable {cs : List Char} {fields : List (List Char)}

/-- The parts of a text that are not empty are its fields. -/
theorem separates_splitOn (cs : List Char) :
    Separates cs ((splitOn ' ' cs).filter (!·.isEmpty)) := by
  induction hn : cs.length using Nat.strong_induction_on generalizing cs with
  | _ n ih =>
    by_cases hmem : ' ' ∈ cs
    · obtain ⟨part, rest, rfl, hspace⟩ := List.eq_append_cons_of_mem hmem
      have hlt : rest.length < n := by
        rw [← hn, List.length_append, List.length_cons]
        omega
      have hrest := ih _ hlt rest rfl
      rw [splitOn_append hspace]
      cases part with
      | nil => exact .space hrest
      | cons c part => exact .field (List.cons_ne_nil _ _) hspace hrest
    · rw [splitOn_of_not_mem hmem]
      cases cs with
      | nil => exact .nil
      | cons c cs => exact .last (List.cons_ne_nil _ _) hmem

theorem Separates.filter_splitOn (h : Separates cs fields) :
    (splitOn ' ' cs).filter (!·.isEmpty) = fields := by
  induction h with
  | nil => rfl
  | space _ ih =>
    rw [← List.nil_append (' ' :: _), splitOn_append_cons, List.filter_append, ih]
    rfl
  | last hne hspace =>
    rw [splitOn_of_not_mem hspace, List.filter_singleton, List.isEmpty_eq_false_iff.2 hne]
    rfl
  | field hne hspace _ ih =>
    rw [splitOn_append hspace, List.filter_cons_of_pos, ih]
    rw [List.isEmpty_eq_false_iff.2 hne, Bool.not_false]

/-- A line is what is left of it and the carriage returns that were dropped. -/
theorem exists_eq_dropReturns_append (cs : List Char) :
    (dropReturns cs).getLast? ≠ some '\r' ∧
      ∃ returns, cs = dropReturns cs ++ List.replicate returns '\r' := by
  constructor
  · intro h
    rw [dropReturns, List.getLast?_reverse] at h
    have hhead := List.head?_dropWhile_not (· == '\r') cs.reverse
    simp [h] at hhead
  · have hreturns : ∀ c ∈ cs.reverse.takeWhile (· == '\r'), c = '\r' := fun c hc => by
      simpa using List.mem_takeWhile_imp hc
    have hreplicate := List.eq_replicate_of_mem hreturns
    refine ⟨(cs.reverse.takeWhile (· == '\r')).length, ?_⟩
    calc cs = (cs.reverse.takeWhile (· == '\r') ++ cs.reverse.dropWhile (· == '\r')).reverse := by
          rw [List.takeWhile_append_dropWhile, List.reverse_reverse]
      _ = dropReturns cs ++ (cs.reverse.takeWhile (· == '\r')).reverse := by
          rw [List.reverse_append, dropReturns]
      _ = _ := by rw [hreplicate, List.reverse_replicate, List.length_replicate]

theorem dropReturns_append_replicate (hreturn : cs.getLast? ≠ some '\r') (returns : ℕ) :
    dropReturns (cs ++ List.replicate returns '\r') = cs := by
  have hdrop : ∀ c ∈ List.replicate returns '\r', (c == '\r') = true := fun c hc => by
    rw [(List.mem_replicate.1 hc).2, beq_self_eq_true]
  rw [dropReturns, List.reverse_append, List.reverse_replicate, List.dropWhile_append_of_pos hdrop]
  rcases List.eq_nil_or_concat cs with rfl | ⟨init, last, rfl⟩
  · rfl
  · rw [List.concat_eq_append, List.getLast?_concat, Ne, Option.some.injEq] at hreturn
    rw [List.concat_eq_append, List.reverse_concat,
      List.dropWhile_cons_of_neg (by simpa using hreturn), List.reverse_cons, List.reverse_reverse]

/-- **The fields that are found on a line are those that it has.** -/
theorem splitFields_eq_iff : splitFields cs = fields ↔ HasFields cs fields := by
  constructor
  · rintro rfl
    obtain ⟨hreturn, returns, heq⟩ := exists_eq_dropReturns_append cs
    have hfields := HasFields.intro hreturn returns (separates_splitOn (dropReturns cs))
    rwa [← heq] at hfields
  · rintro ⟨hreturn, returns, h⟩
    rw [splitFields, dropReturns_append_replicate hreturn, h.filter_splitOn]

end Text

namespace TextModel

open Text

/-! ## Lines -/

/-- **A first line**: the numbers of words and of components, of which the second is positive. -/
inductive Sizes (line : String) : (vocabSize : Int) → (layerSize : ℕ) → Prop
  | intro {first second : List Char} {vocabSize layerSize : Int}
      (hfields : HasFields line.toList [first, second])
      (hvocab : Numeral.readInt first = .ok vocabSize)
      (hlayer : Numeral.readInt second = .ok layerSize) (hpos : 0 < layerSize) :
      Sizes line vocabSize layerSize.toNat

/-- **Why a line is no first line.** -/
inductive HeaderFault (file line : String) : HeaderError → Prop
  | fieldCount {fields : List (List Char)} (hfields : HasFields line.toList fields)
      (hcount : fields.length ≠ 2) : HeaderFault file line (.fieldCount file line)
  | notIntegers {first second : List Char} (hfields : HasFields line.toList [first, second])
      (hnone : ∀ m n, Numeral.readInt first = .ok m → Numeral.readInt second ≠ .ok n) :
      HeaderFault file line (.notIntegers file line)
  | layerSize {first second : List Char} {vocabSize layerSize : Int}
      (hfields : HasFields line.toList [first, second])
      (hvocab : Numeral.readInt first = .ok vocabSize)
      (hlayer : Numeral.readInt second = .ok layerSize) (hle : layerSize ≤ 0) :
      HeaderFault file line (.layerSize file layerSize)

/-- **The line of a word and its vector.** -/
inductive SpellsEntry (layerSize : ℕ) (line : String) : String × List Binary64 → Prop
  | intro {word : List Char} {fields : List (List Char)} {values : List Binary64}
      (hfields : HasFields line.toList (word :: fields))
      (hvalues : List.Forall₂ (fun field x => Binary64.read? field = some x) fields values)
      (hcount : fields.length = layerSize) : SpellsEntry layerSize line (String.ofList word, values)

/-- **Why line `n` is not that of a word and its vector**: it has the wrong number of fields, or
one that is no number behind others that are. -/
inductive LineFault (layerSize : ℕ) (file : String) (n : ℕ) (line : String) : ModelError → Prop
  | count {fields : List (List Char)} (hfields : HasFields line.toList fields)
      (hcount : fields.length ≠ layerSize + 1) :
      LineFault layerSize file n line (.size ⟨file, n, layerSize, (fields.length : Int) - 1⟩)
  | value {word field : List Char} {before after : List (List Char)} {values : List Binary64}
      (hfields : HasFields line.toList (word :: (before ++ field :: after)))
      (hcount : (before ++ field :: after).length = layerSize)
      (hbefore : List.Forall₂ (fun field x => Binary64.read? field = some x) before values)
      (hfield : Binary64.read? field = none) :
      LineFault layerSize file n line (.value file n (String.ofList field))

variable {file line : String} {layerSize n : ℕ} {e : ModelError}

theorem parseHeader_eq_ok_iff {vocabSize : Int} :
    parseHeader line file = .ok (vocabSize, layerSize) ↔ Sizes line vocabSize layerSize := by
  constructor
  · intro h
    rw [parseHeader] at h
    split at h
    · next first second hfields =>
      split at h
      · next m n hvocab hlayer =>
        split at h
        · cases h
        · next hpos =>
          obtain ⟨rfl, rfl⟩ := Prod.mk.inj (Except.ok.inj h)
          exact .intro (splitFields_eq_iff.1 hfields) hvocab hlayer (Int.not_le.1 hpos)
      · cases h
    · cases h
  · rintro ⟨hfields, hvocab, hlayer, hpos⟩
    rw [parseHeader, splitFields_eq_iff.2 hfields]
    simp only [hvocab, hlayer]
    rw [if_neg (Int.not_le.2 hpos)]

/-- **A first line is not read exactly if it has a fault.** -/
theorem parseHeader_eq_error_iff :
    parseHeader line file = .error e ↔ ∃ e', HeaderFault file line e' ∧ e = .header e' := by
  constructor
  · intro h
    rw [parseHeader] at h
    split at h
    · next first second hfields =>
      rw [splitFields_eq_iff] at hfields
      split at h
      · next m n hvocab hlayer =>
        split at h
        · next hle =>
          obtain rfl := Except.error.inj h
          exact ⟨_, .layerSize hfields hvocab hlayer hle, rfl⟩
        · cases h
      · next hnone =>
        obtain rfl := Except.error.inj h
        exact ⟨_, .notIntegers hfields hnone, rfl⟩
    · next hcount =>
      obtain rfl := Except.error.inj h
      refine ⟨_, .fieldCount (splitFields_eq_iff.1 rfl) fun hlength => ?_, rfl⟩
      obtain ⟨first, second, hfields⟩ := List.length_eq_two.1 hlength
      exact hcount _ _ hfields
  · rintro ⟨_, hfault, rfl⟩
    cases hfault with
    | fieldCount hfields hcount =>
      rw [parseHeader, splitFields_eq_iff.2 hfields]
      split
      · exact absurd rfl hcount
      · rfl
    | notIntegers hfields hnone =>
      rw [parseHeader, splitFields_eq_iff.2 hfields]
      dsimp only
      split
      · next m n hvocab hlayer => exact absurd hlayer (hnone m n hvocab)
      · rfl
    | layerSize hfields hvocab hlayer hle =>
      rw [parseHeader, splitFields_eq_iff.2 hfields]
      simp only [hvocab, hlayer]
      rw [if_pos hle]

theorem parseValues_eq_ok_iff {fields : List (List Char)} {values : List Binary64} :
    parseValues file n fields = .ok values ↔
      List.Forall₂ (fun field x => Binary64.read? field = some x) fields values := by
  induction fields generalizing values with
  | nil => rw [parseValues, Except.ok.injEq, List.forall₂_nil_left_iff, eq_comm]
  | cons field fields ih =>
    constructor
    · intro h
      rw [parseValues] at h
      split at h
      · cases h
      · next x hx =>
        obtain ⟨xs, hxs, rfl⟩ := exists_of_map_eq_ok h
        exact .cons hx (ih.1 hxs)
    · rintro (_ | ⟨hx, hxs⟩)
      rw [parseValues, hx]
      dsimp only
      rw [ih.2 hxs]
      rfl

/-- **Fields are not read exactly if one of them is no number**, and the first such is named. -/
theorem parseValues_eq_error_iff {fields : List (List Char)} :
    parseValues file n fields = .error e ↔
      ∃ before field after values, fields = before ++ field :: after ∧
        List.Forall₂ (fun field x => Binary64.read? field = some x) before values ∧
        Binary64.read? field = none ∧ e = .value file n (String.ofList field) := by
  induction fields with
  | nil =>
    refine iff_of_false (fun h => by cases h) ?_
    rintro ⟨before, field, after, -, hnil, -⟩
    exact absurd hnil.symm (List.append_ne_nil_of_right_ne_nil _ (List.cons_ne_nil _ _))
  | cons field fields ih =>
    constructor
    · intro h
      rw [parseValues] at h
      split at h
      · next hnone =>
        obtain rfl := Except.error.inj h
        exact ⟨[], field, fields, [], rfl, .nil, hnone, rfl⟩
      · next x hx =>
        obtain ⟨before, bad, after, values, rfl, hbefore, hnone, rfl⟩ :=
          ih.1 (map_eq_error_iff.1 h)
        exact ⟨field :: before, bad, after, x :: values, rfl, .cons hx hbefore, hnone, rfl⟩
    · rintro ⟨before, bad, after, values, heq, hbefore, hnone, rfl⟩
      cases hbefore with
      | nil =>
        obtain ⟨rfl, rfl⟩ := List.cons.inj heq
        rw [parseValues, hnone]
      | cons hx hbefore =>
        obtain ⟨rfl, rfl⟩ := List.cons.inj heq
        rw [parseValues, hx]
        exact map_eq_error_iff.2 (ih.2 ⟨_, bad, after, _, rfl, hbefore, hnone, rfl⟩)

theorem parseLine_eq_ok_iff {entry : String × List Binary64} :
    parseLine layerSize file n line = .ok entry ↔ SpellsEntry layerSize line entry := by
  constructor
  · intro h
    simp only [parseLine] at h
    split at h
    · cases h
    · next hcount =>
      obtain ⟨values, hvalues, rfl⟩ := exists_of_map_eq_ok h
      obtain ⟨word, fields, hfields⟩ := List.exists_cons_of_length_eq_add_one (not_not.1 hcount)
      rw [hfields] at hcount hvalues ⊢
      exact .intro (splitFields_eq_iff.1 hfields) (parseValues_eq_ok_iff.1 hvalues)
        (Nat.succ.inj (not_not.1 hcount))
  · rintro ⟨hfields, hvalues, hcount⟩
    simp only [parseLine, splitFields_eq_iff.2 hfields, List.length_cons, hcount, ne_eq,
      not_true_eq_false, if_false, List.tail_cons, parseValues_eq_ok_iff.2 hvalues]
    rfl

/-- **A line is not read exactly if it has a fault.** -/
theorem parseLine_eq_error_iff :
    parseLine layerSize file n line = .error e ↔ LineFault layerSize file n line e := by
  constructor
  · intro h
    simp only [parseLine] at h
    split at h
    · next hcount =>
      obtain rfl := Except.error.inj h
      exact .count (splitFields_eq_iff.1 rfl) hcount
    · next hcount =>
      obtain ⟨word, fields, hfields⟩ := List.exists_cons_of_length_eq_add_one (not_not.1 hcount)
      rw [hfields] at hcount h
      obtain ⟨before, field, after, values, rfl, hbefore, hnone, rfl⟩ :=
        parseValues_eq_error_iff.1 (map_eq_error_iff.1 h)
      exact .value (splitFields_eq_iff.1 hfields) (Nat.succ.inj (not_not.1 hcount)) hbefore hnone
  · intro h
    cases h with
    | count hfields hcount =>
      simp only [parseLine, splitFields_eq_iff.2 hfields]
      rw [if_pos hcount]
    | value hfields hcount hbefore hfield =>
      simp only [parseLine, splitFields_eq_iff.2 hfields, List.length_cons, hcount, ne_eq,
        not_true_eq_false, if_false, List.tail_cons, map_eq_error_iff]
      exact parseValues_eq_error_iff.2 ⟨_, _, _, _, rfl, hbefore, hfield, rfl⟩

/-! ## Lines one behind the other -/

/-- **Lines are read exactly if each is that of a word and its vector.** -/
theorem parseLines_eq_ok_iff {lines : List String} {entries : List (String × List Binary64)} :
    parseLines layerSize file n lines = .ok entries ↔
      List.Forall₂ (SpellsEntry layerSize) lines entries := by
  induction lines generalizing n entries with
  | nil => rw [parseLines, Except.ok.injEq, List.forall₂_nil_left_iff, eq_comm]
  | cons line lines ih =>
    constructor
    · intro h
      obtain ⟨entry, hentry, h⟩ := exists_of_bind_eq_ok h
      obtain ⟨rest, hrest, h⟩ := exists_of_bind_eq_ok h
      obtain rfl := Except.ok.inj h
      exact .cons (parseLine_eq_ok_iff.1 hentry) (ih.1 hrest)
    · rintro (_ | ⟨hentry, hrest⟩)
      rw [parseLines, parseLine_eq_ok_iff.2 hentry, ih.2 hrest]
      rfl

/-- **A reading of lines fails at the first that has a fault.** -/
theorem parseLines_eq_error_iff {lines : List String} :
    parseLines layerSize file n lines = .error e ↔
      ∃ good line rest entries, lines = good ++ line :: rest ∧
        List.Forall₂ (SpellsEntry layerSize) good entries ∧
        LineFault layerSize file (n + good.length) line e := by
  -- By induction on the lines: the fault is that of the first one, or lies behind it.
  induction lines generalizing n with
  | nil =>
    refine iff_of_false (fun h => by cases h) ?_
    rintro ⟨good, line, rest, -, hnil, -⟩
    exact absurd hnil.symm (List.append_ne_nil_of_right_ne_nil _ (List.cons_ne_nil _ _))
  | cons first lines ih =>
    constructor
    · intro h
      rcases cases_of_bind_eq_error h with hfirst | ⟨entry, hentry, h⟩
      · exact ⟨[], first, lines, [], rfl, .nil, parseLine_eq_error_iff.1 hfirst⟩
      · rcases cases_of_bind_eq_error h with hrest | ⟨entries, -, h⟩
        · obtain ⟨good, line, rest, entries, rfl, hgood, hfault⟩ := ih.1 hrest
          refine ⟨first :: good, line, rest, entry :: entries, rfl,
            .cons (parseLine_eq_ok_iff.1 hentry) hgood, ?_⟩
          rwa [List.length_cons, Nat.add_comm good.length, ← Nat.add_assoc]
        · cases h
    · rintro ⟨good, line, rest, entries, heq, hgood, hfault⟩
      cases hgood with
      | nil =>
        obtain ⟨rfl, rfl⟩ := List.cons.inj heq
        have hfirst : LineFault layerSize file n first e := hfault
        rw [parseLines, parseLine_eq_error_iff.2 hfirst]
        rfl
      | cons hentry hgood =>
        obtain ⟨rfl, rfl⟩ := List.cons.inj heq
        rw [List.length_cons, Nat.add_comm (List.length _), ← Nat.add_assoc] at hfault
        rw [parseLines, parseLine_eq_ok_iff.2 hentry,
          ih.2 ⟨_, line, rest, _, rfl, hgood, hfault⟩]
        rfl

/-- A vector has as many components as the line has numbers. -/
theorem SpellsEntry.length_eq {entry : String × List Binary64}
    (h : SpellsEntry layerSize line entry) : entry.2.length = layerSize := by
  obtain ⟨-, hvalues, hcount⟩ := h
  rw [← hvalues.length_eq, hcount]

theorem SpellsEntry.all_length_eq {lines : List String} {entries : List (String × List Binary64)}
    (h : List.Forall₂ (SpellsEntry layerSize) lines entries) :
    ∀ entry ∈ entries, entry.2.length = layerSize := by
  induction h with
  | nil => exact fun _ hmem => absurd hmem List.not_mem_nil
  | cons hentry _ ih => exact List.forall_mem_cons.2 ⟨hentry.length_eq, ih⟩

/-! ## Models -/

/-- **The lines that hold a model**: a first line with the two sizes, and the lines of the words and
their vectors. If there is a bound, a segment of so many components has to hold a vector. -/
inductive Holds (bound : Option Int) :
    List String → (layerSize : ℕ) → List (String × List Binary64) → Prop
  | intro {first : String} {lines : List String} {layerSize : ℕ}
      {entries : List (String × List Binary64)} (hsizes : Sizes first lines.length layerSize)
      (hentries : List.Forall₂ (SpellsEntry layerSize) lines entries)
      (hbound : ∀ b ∈ bound, (layerSize : Int) ≤ b) :
      Holds bound (first :: lines) layerSize entries

/-- **Why lines hold no model**, in the order in which the causes count: the first line, the number
of lines, the room for the vectors, the first line that has a fault, and then the bound. -/
inductive Fails [Memory] (bound : Option Int) (file : String) : List String → ModelError → Prop
  | noLine : Fails bound file [] (.header (.noLine file))
  | header {first : String} {lines : List String} {e : HeaderError}
      (hfault : HeaderFault file first e) : Fails bound file (first :: lines) (.header e)
  | count {first : String} {lines : List String} {vocabSize : Int} {layerSize : ℕ}
      (hsizes : Sizes first vocabSize layerSize) (hcount : vocabSize ≠ lines.length) :
      Fails bound file (first :: lines) (.size ⟨file, 0, vocabSize, lines.length⟩)
  | room {first : String} {lines : List String} {layerSize : ℕ} {e : RoomError}
      (hsizes : Sizes first lines.length layerSize)
      (hroom : Room.checkArray 0 (lines.length * layerSize) = .error e) :
      Fails bound file (first :: lines) (.room e)
  | line {first line : String} {good rest : List String} {layerSize : ℕ}
      {entries : List (String × List Binary64)} {e : ModelError}
      (hsizes : Sizes first (good ++ line :: rest).length layerSize)
      (hroom : Room.checkArray 0 ((good ++ line :: rest).length * layerSize) = .ok ())
      (hgood : List.Forall₂ (SpellsEntry layerSize) good entries)
      (hfault : LineFault layerSize file (1 + good.length) line e) :
      Fails bound file (first :: (good ++ line :: rest)) e
  | capacity {first : String} {lines : List String} {layerSize : ℕ}
      {entries : List (String × List Binary64)} {b : Int}
      (hsizes : Sizes first lines.length layerSize)
      (hroom : Room.checkArray 0 (lines.length * layerSize) = .ok ())
      (hentries : List.Forall₂ (SpellsEntry layerSize) lines entries)
      (hbound : bound = some b) (hlt : b < layerSize) :
      Fails bound file (first :: lines) (.store (.capacity (.tooSmall b layerSize)))

theorem Sizes.pos {vocabSize : Int} (h : Sizes line vocabSize layerSize) : 0 < layerSize := by
  obtain ⟨-, -, -, hpos⟩ := h
  exact Int.lt_toNat.2 hpos

/-- Lines behind a first line that gives their number. -/
theorem decode_cons [Memory] {first : String} {lines : List String}
    (hsizes : Sizes first lines.length layerSize) (file : String) (bound : Option Int) :
    decode (first :: lines) file bound =
      ((Room.checkArray 0 (lines.length * layerSize)).mapError .room).bind fun _ =>
      (parseLines layerSize file 1 lines).bind fun entries =>
        (Store.ofDense (entries.map Prod.fst) layerSize (entries.flatMap Prod.snd)
          bound).mapError .store := by
  rw [decode, parseHeader_eq_ok_iff.2 hsizes]
  simp only [bind, Except.bind, ne_eq, not_true_eq_false, if_false]

variable {bound : Option Int} {lines : List String} {entries : List (String × List Binary64)}

/-- **Lines that hold a model are read** if memory holds the components, and what they hold are the
entries of the store. -/
theorem exists_store_of_holds [Memory] (h : Holds bound lines layerSize entries)
    (hroom : Memory.Holds [entries.length * layerSize]) (file : String) :
    ∃ store, decode lines file bound = .ok store ∧ store.layerSize = layerSize ∧
      store.vocab = entries.map Prod.fst ∧ store.entries = entries := by
  obtain ⟨hsizes, hentries, hbound⟩ := h
  have hall := SpellsEntry.all_length_eq hentries
  obtain ⟨store, hstore, hvocab, hlayer, hvalues, -⟩ :=
    Store.ofDense_eq_ok hsizes.pos hbound (length_flatMap_snd hall)
  refine ⟨store, ?_, hlayer, hvocab, Store.entries_eq_of_flatten (hlayer ▸ hall) hvocab hvalues⟩
  rw [← hentries.length_eq, holds_singleton_iff] at hroom
  rw [decode_cons hsizes, hroom, parseLines_eq_ok_iff.2 hentries]
  simp only [Except.bind, Except.mapError, hstore]

/-- **A bound that holds no vector is refused** when the lines have been read. -/
theorem ofDense_eq_error {vocab : List String} {values : List Binary64} {b : Int}
    (hlayer : 0 < layerSize) (hlt : b < layerSize)
    (hlength : values.length = vocab.length * layerSize) :
    Store.ofDense vocab layerSize values (some b) = .error (.capacity (.tooSmall b layerSize)) := by
  have hper : vectorsPerSegment layerSize b = .error (.tooSmall b layerSize) := by
    rw [vectorsPerSegment, if_neg (by omega), if_pos hlt]
  have hsizes : segmentSizes vocab.length layerSize b = .error (.tooSmall b layerSize) := by
    rw [segmentSizes, if_neg (by omega), hper]
    rfl
  rw [Store.ofDense, if_neg (by rw [hlength]; exact fun hne => hne (Int.natCast_mul _ _))]
  simp only [hsizes]
  rfl

/-- **What lines that are read hold**, and memory holds the components. -/
theorem exists_holds_of_decode_eq_ok [Memory] {store : Store}
    (h : decode lines file bound = .ok store) :
    ∃ layerSize entries, Holds bound lines layerSize entries ∧
      Memory.Holds [entries.length * layerSize] := by
  cases lines with
  | nil => cases h
  | cons first lines =>
    obtain ⟨⟨vocabSize, layerSize⟩, hheader, -⟩ := exists_of_bind_eq_ok h
    have hsizes := parseHeader_eq_ok_iff.1 hheader
    by_cases hcount : vocabSize = lines.length
    · subst hcount
      rw [decode_cons hsizes] at h
      obtain ⟨⟨⟩, hroom, h⟩ := exists_of_bind_eq_ok h
      obtain ⟨entries, hentries, h⟩ := exists_of_bind_eq_ok h
      rw [parseLines_eq_ok_iff] at hentries
      refine ⟨layerSize, entries, .intro hsizes hentries
        (Store.le_of_ofDense_eq_ok (eq_ok_of_mapError_eq_ok h)).2, ?_⟩
      rw [← hentries.length_eq, holds_singleton_iff]
      exact eq_ok_of_mapError_eq_ok hroom
    · rw [decode, hheader] at h
      simp only [bind, Except.bind, if_pos hcount, reduceCtorEq] at h

/-- **Lines that are not read fail at the first that does not follow the grammar.** -/
theorem decode_eq_error_iff [Memory] :
    decode lines file bound = .error e ↔ Fails bound file lines e := by
  constructor
  · intro h
    cases lines with
    | nil =>
      obtain rfl := Except.error.inj h
      exact .noLine
    | cons first lines =>
      rcases cases_of_bind_eq_error h with hheader | ⟨⟨vocabSize, layerSize⟩, hheader, -⟩
      · obtain ⟨e', hfault, rfl⟩ := parseHeader_eq_error_iff.1 hheader
        exact .header hfault
      · have hsizes := parseHeader_eq_ok_iff.1 hheader
        by_cases hcount : vocabSize = lines.length
        · subst hcount
          rw [decode_cons hsizes] at h
          rcases cases_of_bind_eq_error h with hroom | ⟨⟨⟩, hroom, h⟩
          · obtain ⟨e', hroom', rfl⟩ := exists_of_mapError_eq_error hroom
            exact .room hsizes hroom'
          · rcases cases_of_bind_eq_error h with hlines | ⟨entries, hentries, h⟩
            · obtain ⟨good, line, rest, entries, rfl, hgood, hfault⟩ :=
                parseLines_eq_error_iff.1 hlines
              exact .line hsizes (eq_ok_of_mapError_eq_ok hroom) hgood hfault
            · rw [parseLines_eq_ok_iff] at hentries
              have hlength := length_flatMap_snd (SpellsEntry.all_length_eq hentries)
              by_cases hbound : ∀ b ∈ bound, (layerSize : Int) ≤ b
              · obtain ⟨store, hstore, -⟩ := Store.ofDense_eq_ok hsizes.pos hbound hlength
                rw [hstore] at h
                cases h
              · obtain ⟨b, hb, hlt⟩ : ∃ b ∈ bound, b < (layerSize : Int) := by
                  simpa using hbound
                rw [Option.mem_def.1 hb, ofDense_eq_error hsizes.pos hlt hlength] at h
                obtain rfl := Except.error.inj h
                exact .capacity hsizes (eq_ok_of_mapError_eq_ok hroom) hentries hb hlt
        · rw [decode, hheader] at h
          simp only [bind, Except.bind, if_pos hcount, Except.error.injEq] at h
          subst h
          exact .count hsizes hcount
  · intro h
    cases h with
    | noLine => rfl
    | header hfault =>
      rw [decode, parseHeader_eq_error_iff.2 ⟨_, hfault, rfl⟩]
      rfl
    | count hsizes hcount =>
      rw [decode, parseHeader_eq_ok_iff.2 hsizes]
      simp only [bind, Except.bind, if_pos hcount]
    | room hsizes hroom =>
      rw [decode_cons hsizes, hroom]
      rfl
    | line hsizes hroom hgood hfault =>
      rw [decode_cons hsizes, hroom, parseLines_eq_error_iff.2 ⟨_, _, _, _, rfl, hgood, hfault⟩]
      rfl
    | capacity hsizes hroom hentries hbound hlt =>
      rw [decode_cons hsizes, hroom, parseLines_eq_ok_iff.2 hentries, hbound]
      have hlength := length_flatMap_snd (SpellsEntry.all_length_eq hentries)
      simp only [Except.bind, Except.mapError, ofDense_eq_error hsizes.pos hlt hlength]

/-- **A reading accepts exactly the lines of the grammar** whose components memory holds. What it
accepts has the sizes, words and vectors that the lines hold, in their order; what it does not
accept fails at the first line, for the number of lines, for want of room, at the first line that
has a fault, or for the bound. -/
theorem decode_lines_grammar [Memory] (lines : List String) (file : String) (bound : Option Int) :
    ((∃ store, decode lines file bound = .ok store) ↔
      ∃ layerSize entries, Holds bound lines layerSize entries ∧
        Memory.Holds [entries.length * layerSize]) ∧
    (∀ layerSize entries, Holds bound lines layerSize entries →
      Memory.Holds [entries.length * layerSize] →
      ∃ store, decode lines file bound = .ok store ∧ store.layerSize = layerSize ∧
        store.vocab = entries.map Prod.fst ∧ store.entries = entries ∧
        ∀ (i : ℕ) entry, entries[i]? = some entry → store.vectorAt i = .ok entry.2) ∧
    ∀ e, decode lines file bound = .error e ↔ Fails bound file lines e := by
  refine ⟨⟨?_, ?_⟩, ?_, fun e => decode_eq_error_iff⟩
  · rintro ⟨store, hstore⟩
    exact exists_holds_of_decode_eq_ok hstore
  · rintro ⟨layerSize, entries, hholds, hroom⟩
    obtain ⟨store, hstore, -⟩ := exists_store_of_holds hholds hroom file
    exact ⟨store, hstore⟩
  · intro layerSize entries hholds hroom
    obtain ⟨store, hstore, hlayer, hvocab, hentries⟩ := exists_store_of_holds hholds hroom file
    refine ⟨store, hstore, hlayer, hvocab, hentries, ?_⟩
    intro i entry hentry
    rw [← hentries] at hentry
    exact Store.vectorAt_eq_of_entries hentry

/-- Spaces, blank ends and carriage returns are part of no field; of two lines at fault it is the
first that counts, and the bound counts behind both. -/
theorem decode_lines_grammar_spaces :
    letI : Memory := .ample
    (∃ store, decode ["1   2\r", " a  0 -0 \r\r"] "m" none = .ok store ∧ store.layerSize = 2 ∧
      store.vocab = ["a"] ∧ store.vectorAt 0 = .ok [.zero, .ofPattern (1 <<< 63)]) ∧
    decode ["3 1", "a 0", " b ", "c d"] "m" (some 0) = .error (.size ⟨"m", 2, 1, 0⟩) := by
  let memory : Memory := .ample
  have hzero : Binary64.read? ['0'] = some .zero := by decide +kernel
  constructor
  · have hminus : Binary64.read? ['-', '0'] = some (.ofPattern (1 <<< 63)) := by decide +kernel
    have hsizes : Sizes "1   2\r" (1 : ℕ) (Int.toNat 2) :=
      .intro (splitFields_eq_iff.1 rfl) rfl rfl two_pos
    have hentry : SpellsEntry 2 " a  0 -0 \r\r" ("a", [.zero, .ofPattern (1 <<< 63)]) :=
      .intro (splitFields_eq_iff.1 rfl) (.cons hzero (.cons hminus .nil)) rfl
    obtain ⟨store, hstore, hlayer, hvocab, -, hvectors⟩ :=
      (decode_lines_grammar ["1   2\r", " a  0 -0 \r\r"] "m" none).2.1 _ _
        (.intro hsizes (.cons hentry .nil) fun b hb => by cases hb) (by decide)
    exact ⟨store, hstore, hlayer, hvocab, hvectors 0 _ rfl⟩
  · have hsizes : Sizes "3 1" (["a 0"] ++ " b " :: ["c d"]).length (Int.toNat 1) :=
      .intro (splitFields_eq_iff.1 rfl) rfl rfl Int.zero_lt_one
    have hgood : SpellsEntry 1 "a 0" ("a", [.zero]) :=
      .intro (splitFields_eq_iff.1 rfl) (.cons hzero .nil) rfl
    have hfields : HasFields " b ".toList [['b']] := splitFields_eq_iff.1 rfl
    have hfault : LineFault 1 "m" 2 " b " (.size ⟨"m", 2, 1, 0⟩) := .count hfields (by decide)
    exact ((decode_lines_grammar ["3 1", "a 0", " b ", "c d"] "m" (some 0)).2.2 _).2
      (.line hsizes rfl (.cons hgood .nil) hfault)

end TextModel

end WordVectors
