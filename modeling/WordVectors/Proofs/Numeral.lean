import Mathlib
import WordVectors.Decimal.Numeral

/-!
# Numerals that are written

A number that is written in base ten is read back, as long as it has no more digits than are read.
Written numerals have no blanks, no digits of other scripts and no underscores, so that reading
them comes down to their digits.

## Main definitions

* `Text.IsGraphic`: a visible character of ASCII other than an underscore

## Main results

* `Text.ofDigits_digits`, `Text.toList_toString`: the digits of a number
* `Numeral.plain_of_isGraphic`, `Numeral.ungroup?_of_isGraphic`: numerals of visible characters
* `Numeral.readInt_digits`: a written integer is read back
* `Numeral.isTooLong_of_readInt`: an integer that was read can be written
-/

namespace WordVectors

namespace Text

/-! ## Digits -/

theorem isDigit_iff {c : Char} : isDigit c = true ↔ 48 ≤ c.toNat ∧ c.toNat ≤ 57 := by
  simp only [isDigit, Bool.and_eq_true, decide_eq_true_eq, Char.le_def, UInt32.le_iff_toNat_le]
  exact Iff.rfl

theorem toNat_digitChar (d : Nat) : (digitChar d).toNat = 48 + d % 10 := by
  have hd : d % 10 < 10 := Nat.mod_lt _ (by decide)
  have hvalid : (48 + d % 10).isValidChar := .inl (by omega)
  rw [digitChar, show '0'.toNat = 48 from rfl, Char.ofNat, dif_pos hvalid]
  rfl

theorem isDigit_digitChar (d : Nat) : isDigit (digitChar d) = true := by
  have hd : d % 10 < 10 := Nat.mod_lt _ (by decide)
  rw [isDigit_iff, toNat_digitChar]
  omega

theorem digitNat_digitChar (d : Nat) : digitNat (digitChar d) = d % 10 := by
  rw [digitNat, toNat_digitChar, show '0'.toNat = 48 from rfl, Nat.add_sub_cancel_left]

theorem digits_of_lt {n : Nat} (h : n < 10) : digits n = [digitChar n] := by
  rw [digits, if_pos h]

theorem digits_of_le {n : Nat} (h : 10 ≤ n) : digits n = digits (n / 10) ++ [digitChar n] := by
  rw [digits, if_neg (Nat.not_lt.2 h)]

theorem isDigit_of_mem_digits {n : Nat} : ∀ c ∈ digits n, isDigit c = true := by
  induction n using Nat.strongRecOn with
  | _ n ih =>
    by_cases h : n < 10
    · intro c hc
      rw [digits_of_lt h, List.mem_singleton] at hc
      exact hc ▸ isDigit_digitChar n
    · intro c hc
      rw [digits_of_le (by omega), List.mem_append, List.mem_singleton] at hc
      rcases hc with hc | rfl
      · exact ih (n / 10) (by omega) c hc
      · exact isDigit_digitChar n

theorem digits_ne_nil (n : Nat) : digits n ≠ [] := by
  by_cases h : n < 10
  · rw [digits_of_lt h]
    exact List.cons_ne_nil _ _
  · rw [digits_of_le (by omega)]
    exact List.append_ne_nil_of_right_ne_nil _ (List.cons_ne_nil _ _)

/-- The digits of a positive number do not start with a zero. -/
theorem head?_digits_ne {n : Nat} (h : n ≠ 0) : (digits n).head? ≠ some '0' := by
  induction n using Nat.strongRecOn with
  | _ n ih =>
    by_cases hn : n < 10
    · rw [digits_of_lt hn, List.head?_cons, Ne, Option.some.injEq]
      intro hzero
      have hdigit := congrArg digitNat hzero
      rw [digitNat_digitChar, Nat.mod_eq_of_lt hn] at hdigit
      exact h hdigit
    · rw [digits_of_le (by omega), List.head?_append_of_ne_nil _ (digits_ne_nil _)]
      exact ih (n / 10) (by omega) (by omega)

/-- A number below a power of ten has at most as many digits. -/
theorem length_digits_le {n k : Nat} (hk : 0 < k) (h : n < 10 ^ k) : (digits n).length ≤ k := by
  induction k generalizing n with
  | zero => cases hk
  | succ k ih =>
    by_cases hn : n < 10
    · rw [digits_of_lt hn, List.length_singleton]
      omega
    · rw [digits_of_le (by omega), List.length_append, List.length_singleton]
      have hk : 0 < k := by
        rcases Nat.eq_zero_or_pos k with rfl | hk
        · simp only [Nat.zero_add, Nat.pow_one] at h
          omega
        · exact hk
      have := ih hk (n := n / 10) (by rw [Nat.pow_succ] at h; omega)
      omega

/-! ## Reading digits -/

theorem ofDigits_append (cs ds : List Char) :
    ofDigits (cs ++ ds) = ofDigits cs * 10 ^ ds.length + ofDigits ds := by
  have hfold : ∀ (ds : List Char) (n : Nat), ds.foldl (fun n c => 10 * n + digitNat c) n =
      n * 10 ^ ds.length + ds.foldl (fun n c => 10 * n + digitNat c) 0 := by
    intro ds
    induction ds with
    | nil =>
      intro n
      simp only [List.foldl_nil, List.length_nil, Nat.pow_zero, Nat.mul_one, Nat.add_zero]
    | cons d ds ih =>
      intro n
      rw [List.foldl_cons, List.foldl_cons, ih (10 * n + digitNat d),
        ih (10 * 0 + digitNat d), List.length_cons, Nat.pow_succ', Nat.add_mul, Nat.add_mul,
        Nat.mul_zero, Nat.zero_mul, Nat.zero_add, ← Nat.mul_assoc, Nat.mul_comm n 10,
        Nat.add_assoc]
  rw [ofDigits_eq, ofDigits_eq, ofDigits_eq, List.foldl_append, hfold]

theorem ofDigits_singleton (c : Char) : ofDigits [c] = digitNat c := by
  rw [ofDigits_eq, List.foldl_cons, List.foldl_nil, Nat.mul_zero, Nat.zero_add]

/-- **A number is read back from its digits.** -/
theorem ofDigits_digits (n : Nat) : ofDigits (digits n) = n := by
  induction n using Nat.strongRecOn with
  | _ n ih =>
    by_cases h : n < 10
    · rw [digits_of_lt h, ofDigits_singleton, digitNat_digitChar, Nat.mod_eq_of_lt h]
    · rw [digits_of_le (by omega), ofDigits_append, ih (n / 10) (by omega), ofDigits_singleton,
        digitNat_digitChar, List.length_singleton, Nat.pow_one]
      omega

/-- A list of digits writes a number below the power of ten for its length. -/
theorem ofDigits_lt {cs : List Char} (h : ∀ c ∈ cs, isDigit c = true) :
    ofDigits cs < 10 ^ cs.length := by
  induction cs using List.reverseRecOn with
  | nil => exact Nat.one_pos
  | append_singleton cs c ih =>
    have hlow := ih fun d hd => h d (List.mem_append_left _ hd)
    have hdigit : digitNat c < 10 := by
      have := isDigit_iff.1 (h c (by simp))
      rw [digitNat, show '0'.toNat = 48 from rfl]
      omega
    rw [ofDigits_append, ofDigits_singleton, List.length_append, List.length_singleton, Nat.pow_one,
      Nat.pow_succ]
    omega

theorem ofDigits_replicate_zero (count : Nat) : ofDigits (List.replicate count '0') = 0 := by
  induction count with
  | zero => rfl
  | succ count ih =>
    rw [List.replicate_succ', ofDigits_append, ih, ofDigits_singleton]
    rfl

/-- The text of a natural number is its digits. -/
theorem toList_toString (n : Nat) : (toString n).toList = digits n := by
  rw [Nat.toString_eq_repr, Nat.toList_repr]
  induction n using Nat.strongRecOn with
  | _ n ih =>
    have hchar : ∀ d < 10, Nat.digitChar d = digitChar d := by decide
    by_cases h : n < 10
    · rw [Nat.toDigits_of_lt_base h, digits_of_lt h, hchar n h]
    · rw [Nat.toDigits_of_base_le (by decide) (by omega), digits_of_le (by omega),
        ih (n / 10) (by omega), hchar _ (Nat.mod_lt _ (by decide)), digitChar, digitChar,
        Nat.mod_mod]

/-! ## Visible characters -/

/-- **A visible character of ASCII** other than an underscore. -/
def IsGraphic (c : Char) : Prop := 0x21 ≤ c.toNat ∧ c.toNat < 0x7F ∧ c ≠ '_'

instance (c : Char) : Decidable (IsGraphic c) :=
  inferInstanceAs (Decidable (_ ∧ _))

theorem isGraphic_of_isDigit {c : Char} (h : isDigit c = true) : IsGraphic c := by
  obtain ⟨hlow, hhigh⟩ := isDigit_iff.1 h
  refine ⟨by omega, by omega, ?_⟩
  rintro rfl
  exact absurd hhigh (by decide)

theorem isBlank_of_isGraphic {c : Char} (h : IsGraphic c) : isBlank c = false := by
  obtain ⟨hlow, hhigh, -⟩ := h
  simp only [isBlank, Bool.or_eq_false_iff, Bool.and_eq_false_iff, decide_eq_false_iff_not,
    beq_eq_false_iff_ne]
  omega

theorem trimLeft_of_isGraphic {cs : List Char} (h : ∀ c ∈ cs, IsGraphic c) : trimLeft cs = cs := by
  cases cs with
  | nil => rfl
  | cons c cs =>
    have hc := isBlank_of_isGraphic (h c List.mem_cons_self)
    rw [trimLeft, List.dropWhile_cons_of_neg (by rw [hc]; exact Bool.false_ne_true)]

theorem trim_of_isGraphic {cs : List Char} (h : ∀ c ∈ cs, IsGraphic c) : trim cs = cs := by
  rw [trim, trimLeft_of_isGraphic h,
    trimLeft_of_isGraphic fun c hc => h c (List.mem_reverse.1 hc), List.reverse_reverse]

end Text

namespace Numeral

open Text

variable {cs : List Char}

theorem plain_of_isGraphic (h : ∀ c ∈ cs, IsGraphic c) : plain cs = cs := by
  have hplain : ∀ c ∈ cs, plainDigit c = c := fun c hc => by
    have := (h c hc).2.1
    rw [plainDigit, if_pos (by omega)]
  rw [plain, trim_of_isGraphic h]
  exact (List.map_congr_left hplain).trans (List.map_id _)

theorem ungroupFrom?_of_isGraphic (h : ∀ c ∈ cs, IsGraphic c) (afterDigit : Bool) :
    ungroupFrom? afterDigit cs = some cs := by
  induction cs generalizing afterDigit with
  | nil => cases afterDigit <;> rfl
  | cons c cs ih =>
    have hc : c ≠ '_' := (h c List.mem_cons_self).2.2
    rw [ungroupFrom?, ih fun d hd => h d (List.mem_cons_of_mem _ hd)]
    · rfl
    · exact fun hcs => hc hcs

theorem ungroup?_of_isGraphic (h : ∀ c ∈ cs, IsGraphic c) : ungroup? cs = some cs :=
  ungroupFrom?_of_isGraphic h false

/-- No sign stands in front of a digit. -/
theorem takeSign_cons_of_isDigit {c : Char} (h : isDigit c = true) :
    takeSign (c :: cs) = (false, c :: cs) := by
  rw [takeSign]
  · rintro ds ⟨⟩
    exact absurd h (by decide)
  · rintro ds ⟨⟩
    exact absurd h (by decide)

theorem takeSign_of_isDigit (h : ∀ c ∈ cs, isDigit c = true) : takeSign cs = (false, cs) := by
  cases cs with
  | nil => rfl
  | cons c cs => exact takeSign_cons_of_isDigit (h c List.mem_cons_self)

/-- **A written integer is read back**, unless it has too many digits to be written. -/
theorem readInt_digits {n : Nat} (h : isTooLong n = false) : readInt (digits n) = .ok n := by
  have hdigit := isDigit_of_mem_digits (n := n)
  have hgraphic : ∀ c ∈ digits n, IsGraphic c := fun c hc => isGraphic_of_isDigit (hdigit c hc)
  have hrun : (digits n).takeWhile (fun c => isDigit c || c == '_') = digits n := by
    rw [← List.append_nil (digits n), List.takeWhile_append_of_pos, List.takeWhile_nil]
    exact fun c hc => by rw [hdigit c hc, Bool.true_or]
  have hlength : (digits n).length ≤ maxDigits := by
    have hpos : 0 < maxDigits := by decide
    rw [isTooLong, decide_eq_false_iff_not, Nat.pow_eq, Int.natAbs_natCast, Nat.not_le] at h
    -- The bound is not evaluated as long as the number of digits has no value.
    generalize maxDigits = k at hpos h ⊢
    exact length_digits_le hpos h
  simp only [readInt, plain_of_isGraphic hgraphic, takeSign_of_isDigit hdigit, hrun,
    ungroup?_of_isGraphic hgraphic]
  split
  · next hnil => exact absurd hnil (digits_ne_nil n)
  · next hnone _ => cases hnone
  · next hsome _ =>
    obtain rfl := Option.some.inj hsome
    rw [if_neg (Nat.not_lt.2 hlength), if_neg (Nat.lt_irrefl _), if_neg Bool.false_ne_true,
      ofDigits_digits]

/-- What is left without the underscores are the other characters. -/
theorem of_mem_ungroupFrom? {afterDigit : Bool} {ds : List Char}
    (h : ungroupFrom? afterDigit cs = some ds) : ∀ d ∈ ds, d ∈ cs ∧ d ≠ '_' := by
  induction cs generalizing afterDigit ds with
  | nil =>
    obtain rfl : [] = ds := by cases afterDigit <;> exact Option.some.inj h
    simp
  | cons c cs ih =>
    by_cases hc : c = '_'
    · subst hc
      have hrest : ungroupFrom? false cs = some ds := by
        cases afterDigit with
        | false => cases h
        | true =>
          cases cs with
          | nil => cases h
          | cons d cs =>
            rw [ungroupFrom?] at h
            split at h
            · exact h
            · cases h
      exact fun d hd => (ih hrest d hd).imp_left (List.mem_cons_of_mem _)
    · rw [ungroupFrom?, Option.map_eq_some_iff] at h
      · obtain ⟨rest, hrest, rfl⟩ := h
        refine List.forall_mem_cons.2 ⟨⟨List.mem_cons_self, hc⟩, ?_⟩
        exact fun d hd => (ih hrest d hd).imp_left (List.mem_cons_of_mem _)
      · exact fun heq => hc heq

/-- **An integer that was read can be written.** -/
theorem isTooLong_of_readInt {n : Int} (h : readInt cs = .ok n) : isTooLong n = false := by
  simp only [readInt] at h
  generalize hrun : List.takeWhile (fun c => isDigit c || c == '_') (takeSign (plain cs)).2 = run
    at h
  split at h
  · cases h
  · cases h
  · next ds _ hds =>
    split at h
    · cases h
    · next hlength =>
      split at h
      · cases h
      · have hdigit : ∀ d ∈ ds, isDigit d = true := by
          intro d hd
          obtain ⟨hmem, hne⟩ := of_mem_ungroupFrom? hds d hd
          rw [← hrun] at hmem
          have := List.mem_takeWhile_imp hmem
          simpa [hne] using this
        have habs : n.natAbs = ofDigits ds := by
          obtain rfl := Except.ok.inj h
          split <;> omega
        rw [isTooLong, habs, decide_eq_false_iff_not, Nat.pow_eq, Nat.not_le]
        generalize maxDigits = k at hlength ⊢
        exact Nat.lt_of_lt_of_le (ofDigits_lt hdigit)
          (Nat.pow_le_pow_right (by decide) (Nat.not_lt.1 hlength))

end Numeral

end WordVectors
