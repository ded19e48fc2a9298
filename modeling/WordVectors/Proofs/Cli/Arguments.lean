import Mathlib
import WordVectors.Cli.Arguments

/-!
# Values of a command line

Whatever a command line looks like, each value that it gives has passed the check of its option: an
option is only ever taken from the grammar, however it is written, and its value is checked before
it is kept. So the byte order of a command always has a name that is known.

## Main definitions

* `Grammar.Word.IsOf`: the words whose option, if it is known, is one of a grammar
* `Grammar.Parsed.Checked`: what was read so far if all values have passed their checks

## Main results

* `Grammar.useOption_checked`, `Grammar.takeArguments_options`: one step keeps the values checked
* `Grammar.parse_checked`: all values that a command line gives have passed their checks
* `Cli.exists_order_of_parse`: the byte order of a command
-/

namespace WordVectors

/-- What is looked up stands in the list. -/
theorem mem_of_lookup_eq_some {β : Type} {l : List (String × β)} {name : String} {b : β}
    (h : l.lookup name = some b) : (name, b) ∈ l := by
  obtain ⟨before, after, rfl, -⟩ := List.lookup_eq_some_iff.1 h
  exact List.mem_append_right _ List.mem_cons_self

namespace Grammar

variable {g : Grammar}

/-! ## Options of a grammar -/

/-- The words whose option, if it is known, is one of a grammar. -/
def Word.IsOf (g : Grammar) (w : Word) : Prop :=
  ∀ use spec, w.role = .option use → use.spec = some spec → spec ∈ g.options

theorem mem_options_of_mem_namedOptions {name : String} {spec : OptionSpec}
    (h : (name, spec) ∈ g.namedOptions) : spec ∈ g.options := by
  obtain ⟨spec', hspec, h⟩ := List.mem_flatMap.1 h
  obtain ⟨name', -, h⟩ := List.mem_map.1 h
  obtain ⟨-, rfl⟩ := Prod.mk.inj h
  exact hspec

theorem mem_options_of_mem_meanings {cs : List Char} {use : Use} {spec : OptionSpec}
    (h : use ∈ g.meanings cs) (hspec : use.spec = some spec) : spec ∈ g.options := by
  simp only [meanings] at h
  split at h
  · obtain ⟨⟨name, spec'⟩, hmem, h⟩ := List.mem_filterMap.1 h
    dsimp only at h
    split at h
    · obtain rfl := Option.some.inj h
      obtain rfl := Option.some.inj hspec
      exact mem_options_of_mem_namedOptions hmem
    · cases h
  · obtain ⟨⟨name, spec'⟩, hmem, h⟩ := List.mem_filterMap.1 h
    dsimp only at h
    split at h
    · obtain rfl := Option.some.inj h
      obtain rfl := Option.some.inj hspec
      exact mem_options_of_mem_namedOptions hmem
    · split at h
      · obtain rfl := Option.some.inj h
        obtain rfl := Option.some.inj hspec
        exact mem_options_of_mem_namedOptions hmem
      · cases h

/-- An element of a command line is an option only if the grammar has it. -/
theorem isOf_of_roleOf {text : String} {role : Role} (h : g.roleOf text = .ok role) :
    Word.IsOf g ⟨text, role⟩ := by
  intro use spec hrole hspec
  obtain rfl : role = .option use := hrole
  simp only [roleOf] at h
  split at h
  · cases h
  · split at h
    · next hlookup =>
      cases h
      obtain rfl := Option.some.inj hspec
      exact mem_options_of_mem_namedOptions (mem_of_lookup_eq_some hlookup)
    · split at h
      · cases h
      · split at h
        · next hlookup _ =>
          cases h
          obtain rfl := Option.some.inj hspec
          exact mem_options_of_mem_namedOptions (mem_of_lookup_eq_some hlookup)
        · split at h
          · next hmeanings =>
            cases h
            exact mem_options_of_mem_meanings (hmeanings ▸ List.mem_singleton_self _) hspec
          · split at h
            · cases h
            · cases h
              cases hspec
          · cases h

theorem isOf_of_words {texts : List String} {ws : List Word} (h : g.words texts = .ok ws) :
    ∀ w ∈ ws, w.IsOf g := by
  induction texts generalizing ws with
  | nil =>
    obtain rfl := Except.ok.inj h
    simp
  | cons text texts ih =>
    rw [words] at h
    split at h
    · obtain rfl := Except.ok.inj h
      intro w hw use spec hrole
      rcases List.mem_cons.1 hw with rfl | hw
      · cases hrole
      · obtain ⟨text, -, rfl⟩ := List.mem_map.1 hw
        cases hrole
    · obtain ⟨role, hrole, h⟩ := exists_of_bind_eq_ok h
      obtain ⟨rest, hrest, h⟩ := exists_of_bind_eq_ok h
      obtain rfl := Except.ok.inj h
      exact List.forall_mem_cons.2 ⟨isOf_of_roleOf hrole, ih hrest⟩

/-! ## Steps -/

/-- **What was read so far if all values have passed their checks.** -/
def Parsed.Checked (g : Grammar) (parsed : Parsed) : Prop :=
  ∀ entry ∈ parsed.options, ∃ spec ∈ g.options, ∃ kind, spec.role = .value kind ∧
    OptionSpec.key spec = entry.1 ∧ ∀ value ∈ entry.2, checkValue spec kind value = .ok ()

/-- The value that an option takes has passed its check. -/
theorem of_takeValue_eq_ok {spec : OptionSpec} {kind : ValueKind} {attached : Option String}
    {rest left : List Word} {value? : Option String}
    (h : takeValue spec kind attached rest = .ok (value?, left)) :
    (∀ value ∈ value?, checkValue spec kind value = .ok ()) ∧ left <:+ rest := by
  simp only [takeValue] at h
  split at h
  · split at h
    · cases h
      exact ⟨by simp, List.suffix_rfl⟩
    · obtain ⟨⟨⟩, hcheck, h⟩ := exists_of_map_eq_ok h
      cases h
      exact ⟨by simpa using hcheck, List.suffix_rfl⟩
  · obtain ⟨⟨⟩, hcheck, h⟩ := exists_of_map_eq_ok h
    cases h
    exact ⟨by simpa using hcheck, List.suffix_cons _ _⟩
  · cases h

/-- **An option keeps the values checked.** -/
theorem useOption_checked {use : Use} {text : String} {rest left : List Word}
    {parsed after : Parsed} (hspec : ∀ spec, use.spec = some spec → spec ∈ g.options)
    (hparsed : parsed.Checked g) (h : g.useOption use text rest parsed = .ok (after, left)) :
    after.Checked g ∧ left <:+ rest := by
  simp only [useOption] at h
  split at h
  · cases h
    exact ⟨hparsed, List.suffix_rfl⟩
  · next spec hsome =>
    split at h
    · cases h
    · cases h
    · next kind hkind =>
      obtain ⟨⟨value?, left'⟩, hvalue, h⟩ := exists_of_bind_eq_ok h
      cases h
      obtain ⟨hcheck, hsuffix⟩ := of_takeValue_eq_ok hvalue
      refine ⟨?_, hsuffix⟩
      exact List.forall_mem_cons.2 ⟨⟨spec, hspec spec hsome, kind, hkind, rfl, hcheck⟩, hparsed⟩

theorem suffix_of_takeArgument? {takesRest : Bool} {ws left : List Word} {texts : List String}
    (h : takeArgument? takesRest ws = some (texts, left)) : left <:+ ws := by
  simp only [takeArgument?] at h
  split at h
  · next text rest hdrop =>
    have hrest : rest <:+ ws :=
      (List.suffix_cons _ _).trans (hdrop ▸ List.dropWhile_suffix Word.isMark)
    split at h
    · cases h
      exact List.nil_suffix
    · cases h
      exact (List.dropWhile_suffix Word.isMark).trans hrest
  · cases h

/-- Arguments leave the options as they are. -/
theorem takeArguments_options (missing : Nat) (ws : List Word) (parsed : Parsed) :
    (g.takeArguments missing ws parsed).1.options = parsed.options ∧
      (g.takeArguments missing ws parsed).2 <:+ ws := by
  induction missing generalizing ws parsed with
  | zero => exact ⟨rfl, List.suffix_rfl⟩
  | succ missing ih =>
    rw [takeArguments]
    split
    · exact ⟨rfl, List.suffix_rfl⟩
    · next texts rest htake =>
      obtain ⟨hoptions, hsuffix⟩ := ih rest { parsed with arguments := parsed.arguments ++ [texts] }
      exact ⟨hoptions, hsuffix.trans (suffix_of_takeArgument? htake)⟩

/-! ## Command lines -/

/-- **All steps keep the values checked.** -/
theorem parseWords_checked {fuel : Nat} {ws : List Word} {parsed after : Parsed}
    (hws : ∀ w ∈ ws, w.IsOf g) (hparsed : parsed.Checked g)
    (h : g.parseWords fuel ws parsed = .ok after) : after.Checked g := by
  -- By induction on the rounds: each leaves the end of the words, whose options are still those of
  -- the grammar.
  induction fuel generalizing ws parsed with
  | zero =>
    obtain rfl := Except.ok.inj h
    exact hparsed
  | succ fuel ih =>
    have hargs (missing : Nat) := takeArguments_options (g := g) missing ws parsed
    simp only [parseWords] at h
    split at h
    · obtain rfl := Except.ok.inj h
      rw [Parsed.Checked, (hargs _).1]
      exact hparsed
    · split at h
      · next text use rest _ =>
        obtain ⟨⟨parsed', rest'⟩, huse, h⟩ := exists_of_bind_eq_ok h
        have hspec := fun spec => hws ⟨text, .option use⟩ List.mem_cons_self use spec rfl
        obtain ⟨hchecked, hsuffix⟩ := useOption_checked hspec hparsed huse
        refine ih (fun w hw => hws w ?_) hchecked h
        exact List.mem_cons_of_mem _ (hsuffix.mem hw)
      · split at h
        · refine ih (fun w hw => hws w ((hargs _).2.mem hw)) ?_ h
          rw [Parsed.Checked, (hargs _).1]
          exact hparsed
        · refine ih (fun w hw => hws w ?_) ?_ h
          · exact (List.dropWhile_suffix _).mem hw
          · exact hparsed

/-- **All values that a command line gives have passed their checks.** -/
theorem parse_checked {texts : List String} {parsed : Parsed} (h : g.parse texts = .ok parsed) :
    parsed.Checked g := by
  obtain ⟨ws, hws, h⟩ := exists_of_bind_eq_ok h
  obtain ⟨parsed', hparsed, h⟩ := exists_of_bind_eq_ok h
  split at h
  · obtain rfl := Except.ok.inj h
    exact parseWords_checked (isOf_of_words hws) (by simp [Parsed.Checked]) hparsed
  · cases h

end Grammar

namespace Cli

open Grammar

/-! ## Commands -/

variable {settings : Settings}

/-- The name of the byte order of a command. -/
def Command.byteOrder : Command → String
  | convert c => c.byteOrder
  | inspect i => i.byteOrder

theorem exists_order_of_ofName? {name : String} (h : (ByteOrder.ofName? name).isSome) :
    ∃ order : ByteOrder, order.name = name := by
  obtain ⟨order, horder⟩ := Option.isSome_iff_exists.1 h
  exact ⟨order, by simpa using List.find?_some horder⟩

theorem checked_of_parseWith {grammar : Grammar} {texts : List String} {parsed : Parsed}
    (h : parseWith grammar texts = .ok parsed) : parsed.Checked grammar := by
  simp only [parseWith] at h
  split at h
  · next hparse =>
    obtain rfl := Except.ok.inj h
    exact parse_checked hparse
  all_goals cases h

/-- The byte order is the one that is given, which was checked, or that of the settings. -/
theorem exists_order_of_checked (husable : settings.Usable) {grammar : Grammar}
    (honly : ∀ spec ∈ grammar.options, OptionSpec.key spec = "--byte-order" →
      spec = byteOrderOption) {parsed : Parsed} (hparsed : parsed.Checked grammar) :
    ∃ order : ByteOrder, order.name = byteOrderOf settings parsed := by
  have hdefault := exists_order_of_ofName? husable.order_known
  unfold byteOrderOf valueOf
  rcases hlookup : parsed.options.lookup "--byte-order" with _ | _ | text
  · exact hdefault
  · exact hdefault
  · obtain ⟨spec, hspec, kind, hkind, hkey, hcheck⟩ := hparsed _ (mem_of_lookup_eq_some hlookup)
    obtain rfl := honly spec hspec hkey
    obtain rfl := OptionRole.value.inj hkind
    have hchoice : text ∈ [ByteOrder.little.name, ByteOrder.big.name] := by
      by_contra hne
      have hfail := hcheck text rfl
      simp only [checkValue] at hfail
      rw [if_neg (by simpa using hne)] at hfail
      cases hfail
    rcases List.mem_pair.1 hchoice with rfl | rfl
    · exact ⟨.little, rfl⟩
    · exact ⟨.big, rfl⟩

theorem exists_order_of_parseConversion (husable : settings.Usable) {texts : List String}
    {command : Command} {extras : List String}
    (h : parseConversion settings texts = .ok (command, extras)) :
    ∃ order : ByteOrder, order.name = command.byteOrder := by
  obtain ⟨parsed, hparsed, h⟩ := exists_of_bind_eq_ok h
  obtain ⟨rfl, -⟩ := Prod.mk.inj (Except.ok.inj h)
  exact exists_order_of_checked husable (by decide) (checked_of_parseWith hparsed)

theorem exists_order_of_parseInspection (husable : settings.Usable) {texts : List String}
    {command : Command} {extras : List String}
    (h : parseInspection settings texts = .ok (command, extras)) :
    ∃ order : ByteOrder, order.name = command.byteOrder := by
  obtain ⟨parsed, hparsed, h⟩ := exists_of_bind_eq_ok h
  obtain ⟨rfl, -⟩ := Prod.mk.inj (Except.ok.inj h)
  exact exists_order_of_checked husable (by decide) (checked_of_parseWith hparsed)

/-- **The byte order of a command** has a name that is known. -/
theorem exists_order_of_parse (husable : settings.Usable) {texts : List String}
    {command : Command} (h : parse settings texts = .ok command) :
    ∃ order : ByteOrder, order.name = command.byteOrder := by
  obtain ⟨parsed, -, h⟩ := exists_of_bind_eq_ok h
  dsimp only at h
  split at h
  · obtain ⟨⟨found, extras⟩, hfound, h⟩ := exists_of_bind_eq_ok h
    dsimp only at h
    split at h
    · obtain rfl := Except.ok.inj h
      exact exists_order_of_parseConversion husable hfound
    · cases h
  · split at h
    · obtain ⟨⟨found, extras⟩, hfound, h⟩ := exists_of_bind_eq_ok h
      dsimp only at h
      split at h
      · obtain rfl := Except.ok.inj h
        exact exists_order_of_parseInspection husable hfound
      · cases h
    · cases h

end Cli

end WordVectors
