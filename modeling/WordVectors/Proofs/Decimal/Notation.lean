import WordVectors.Decimal.Notation
import WordVectors.Proofs.Decimal.Shortest
import WordVectors.Proofs.Numeral

/-!
# Numbers that are written

A number in any notation is a numeral: it is read as a decimal with the value of the shortest one,
whether it stands positionally or with an exponent, as an infinity, or as what is no number.

## Main definitions

* `Numeral.Writes`: whether a text is a numeral without a sign that has the value of a decimal
* `Numeral.Pointed`: whether two runs of digits are a decimal on either side of its point

## Main results

* `Numeral.writes_positional`, `Numeral.writes_scientific`: both notations write their decimal
* `Numeral.Writes.readReal`: a numeral behind a sign is read with its value
* `FloatFormat.writes_magnitudeText`: a finite number in a notation is a numeral of its value
-/

namespace WordVectors

open Text

namespace Numeral

/-! ## Numerals without a sign -/

/-- No digits are read where none stands first. -/
theorem span_of_head {cs : List Char} (h : ∀ c ∈ cs.head?, isDigit c = false) :
    cs.takeWhile isDigit = [] ∧ cs.dropWhile isDigit = cs := by
  cases cs with
  | nil => exact ⟨rfl, rfl⟩
  | cons c cs =>
    have hc := h c rfl
    rw [List.takeWhile_cons, List.dropWhile_cons, hc, if_neg Bool.false_ne_true,
      if_neg Bool.false_ne_true]
    exact ⟨rfl, rfl⟩

section

variable {whole fraction rest : List Char} (hwhole : ∀ c ∈ whole, isDigit c = true)
  (hne : whole ≠ [])
include hwhole hne

/-- A numeral with a point is read up to its exponent. -/
theorem readFinite?_point (hfraction : ∀ c ∈ fraction, isDigit c = true)
    (hrest : ∀ c ∈ rest.head?, isDigit c = false) (negative : Bool) :
    readFinite? negative (whole ++ '.' :: (fraction ++ rest)) =
      (readExponent? rest).map fun e =>
        .finite negative (ofDigits (whole ++ fraction)) (e - fraction.length) := by
  have hpoint : isDigit '.' = false := by decide
  obtain ⟨htake, hdrop⟩ := span_of_head hrest
  have hempty : whole.isEmpty = false := List.isEmpty_eq_false_iff.2 hne
  simp only [readFinite?, List.takeWhile_append_of_pos hwhole, List.dropWhile_append_of_pos hwhole,
    List.takeWhile_cons, List.dropWhile_cons, hpoint, List.append_nil,
    List.takeWhile_append_of_pos hfraction, List.dropWhile_append_of_pos hfraction, htake,
    hdrop, hempty, Bool.false_and, Bool.false_eq_true, if_false]

/-- A numeral without a point is read up to its exponent. -/
theorem readFinite?_whole (hrest : ∀ c ∈ rest.head?, isDigit c = false ∧ c ≠ '.')
    (negative : Bool) : readFinite? negative (whole ++ rest) =
      (readExponent? rest).map fun e => .finite negative (ofDigits whole) e := by
  obtain ⟨htake, hdrop⟩ := span_of_head fun c hc => (hrest c hc).1
  have hempty : whole.isEmpty = false := List.isEmpty_eq_false_iff.2 hne
  have hnopoint : ∀ cs, rest ≠ '.' :: cs := by
    rintro cs rfl
    exact (hrest '.' rfl).2 rfl
  simp only [readFinite?, List.takeWhile_append_of_pos hwhole, List.dropWhile_append_of_pos hwhole,
    htake, hdrop, List.append_nil, hempty, Bool.false_and, Bool.false_eq_true, if_false,
    List.length_nil, Nat.cast_zero, sub_zero]

end

/-- **A text is a numeral without a sign** that has a given value. -/
structure Writes (cs : List Char) (value : ℚ) : Prop where
  /-- Its characters are visible. -/
  graphic : ∀ c ∈ cs, IsGraphic c
  /-- A digit stands first. -/
  head : ∃ c, cs.head? = some c ∧ isDigit c = true
  /-- It is read with that value. -/
  read : ∀ negative, ∃ c e, readFinite? negative cs = some (.finite negative c e) ∧
    Decimal.value c e = value

/-- Zeros at the end of a coefficient are made up for by the exponent. -/
theorem value_mul_pow (n k : ℕ) (e : ℤ) :
    Decimal.value (n * 10 ^ k) (e - k) = Decimal.value n e := by
  rw [Decimal.value, Decimal.value, zpow_sub₀ (by norm_num), zpow_natCast]
  push_cast
  field_simp

theorem ofDigits_zeros_append (k : ℕ) (cs : List Char) :
    ofDigits (List.replicate k '0' ++ cs) = ofDigits cs := by
  rw [ofDigits_append, ofDigits_replicate_zero, Nat.zero_mul, Nat.zero_add]

theorem isDigit_of_mem_replicate {k : ℕ} : ∀ c ∈ List.replicate k '0', isDigit c = true := by
  intro c hc
  rw [(List.mem_replicate.1 hc).2]
  decide

/-- A positional numeral writes the number with its digits. -/
theorem writes_point {whole fraction : List Char} (hwhole : ∀ c ∈ whole, isDigit c = true)
    (hne : whole ≠ []) (hfraction : ∀ c ∈ fraction, isDigit c = true) :
    Writes (whole ++ '.' :: fraction)
      (Decimal.value (ofDigits (whole ++ fraction)) (-fraction.length)) where
  graphic c hc := by
    rw [List.mem_append, List.mem_cons] at hc
    rcases hc with hc | rfl | hc
    · exact isGraphic_of_isDigit (hwhole c hc)
    · decide
    · exact isGraphic_of_isDigit (hfraction c hc)
  head := by
    obtain ⟨c, cs, rfl⟩ := List.exists_cons_of_ne_nil hne
    exact ⟨c, rfl, hwhole c List.mem_cons_self⟩
  read negative := by
    have hread := readFinite?_point hwhole hne hfraction
      (fun c hc => absurd hc (Option.not_mem_none c) : ∀ c ∈ ([] : List Char).head?, _) negative
    rw [List.append_nil] at hread
    exact ⟨_, _, hread, by rw [zero_sub]⟩

/-- **The digits in front of a point and behind it** that write a decimal. There are some on either
side, and as many in front as its exponent asks for; those of a decimal other than zero do not
start with a zero, unless it stands alone. -/
structure Pointed (n : ℕ) (e : ℤ) (whole fraction : List Char) : Prop where
  isDigit_whole : ∀ c ∈ whole, isDigit c = true
  isDigit_fraction : ∀ c ∈ fraction, isDigit c = true
  fraction_ne_nil : fraction ≠ []
  length_whole : (whole.length : ℤ) = max 1 (e + (digits n).length)
  head_whole : n ≠ 0 → whole = ['0'] ∨ whole.head? ≠ some '0'
  value_eq : Decimal.value (ofDigits (whole ++ fraction)) (-fraction.length) = Decimal.value n e

theorem Pointed.whole_ne_nil {n : ℕ} {e : ℤ} {whole fraction : List Char}
    (h : Pointed n e whole fraction) : whole ≠ [] := by
  have := h.length_whole
  rw [← List.length_pos_iff]
  omega

variable (n : ℕ) (e : ℤ)

/-- **A positional decimal has digits on both sides of its point.** -/
theorem exists_pointed : ∃ whole fraction, Pointed n e whole fraction ∧
    Decimal.positional (digits n) (e + (digits n).length - 1) = whole ++ '.' :: fraction := by
  have hdigit := isDigit_of_mem_digits (n := n)
  have hhead := head?_digits_ne (n := n)
  have hlength : 0 < (digits n).length := List.length_pos_iff.2 (digits_ne_nil n)
  have hzero := @isDigit_of_mem_replicate
  have hnumber := ofDigits_digits n
  have hpointed := @Pointed.mk n e
  generalize digits n = ds at *
  simp only [Decimal.positional]
  split
  · next hneg =>
    refine ⟨['0'], List.replicate (-(e + ds.length - 1) - 1).toNat '0' ++ ds,
      hpointed (hzero (k := 1)) ?_ ?_ ?_ (fun _ => .inl rfl) ?_, rfl⟩
    · exact List.forall_mem_append.2 ⟨hzero, hdigit⟩
    · exact List.append_ne_nil_of_right_ne_nil _ (List.length_pos_iff.1 hlength)
    · rw [List.length_singleton]
      omega
    · have hexponent : -(((-(e + ds.length - 1) - 1).toNat + ds.length : ℕ) : ℤ) = e := by omega
      rw [← List.replicate_one, ofDigits_zeros_append, ofDigits_zeros_append, hnumber,
        List.length_append, List.length_replicate, hexponent]
  · next hpos =>
    obtain ⟨k, hk⟩ : ∃ k : ℕ, (e + ds.length - 1).toNat + 1 = k := ⟨_, rfl⟩
    rw [hk]
    rcases Nat.lt_or_ge k ds.length with hlt | hge
    · have hfraction : (ds.drop k).isEmpty = false := by
        rw [List.isEmpty_eq_false_iff, ← List.length_pos_iff, List.length_drop]
        omega
      refine ⟨ds.take k, ds.drop k, hpointed (fun c hc => hdigit c (List.mem_of_mem_take hc))
        (fun c hc => hdigit c (List.mem_of_mem_drop hc)) (List.isEmpty_eq_false_iff.1 hfraction)
        ?_ (fun hn => .inr ?_) ?_, ?_⟩
      · rw [List.length_take]
        omega
      · rw [List.head?_take, if_neg (by omega)]
        exact hhead hn
      · have hexponent : -((ds.length - k : ℕ) : ℤ) = e := by omega
        rw [List.take_append_drop, hnumber, List.length_drop, hexponent]
      · rw [hfraction, if_neg Bool.false_ne_true, Nat.sub_eq_zero_of_le hlt.le,
          List.replicate_zero, List.append_nil]
    · refine ⟨ds ++ List.replicate (k - ds.length) '0', ['0'],
        hpointed (List.forall_mem_append.2 ⟨hdigit, hzero⟩) (hzero (k := 1))
          (List.cons_ne_nil _ _) ?_ (fun hn => .inr ?_) ?_, ?_⟩
      · rw [List.length_append, List.length_replicate]
        omega
      · rw [List.head?_append_of_ne_nil _ (List.length_pos_iff.1 hlength)]
        exact hhead hn
      · have hexponent : (-((1 : ℕ) : ℤ)) = e - (k - ds.length + 1 : ℕ) := by omega
        rw [← List.replicate_one, List.append_assoc, List.replicate_append_replicate,
          ofDigits_append, hnumber, ofDigits_replicate_zero, Nat.add_zero, List.length_replicate,
          List.length_replicate, hexponent, value_mul_pow]
      · rw [List.drop_eq_nil_of_le hge, List.take_of_length_le hge]
        rfl

/-- **A positional decimal writes its value.** -/
theorem writes_positional :
    Writes (Decimal.positional (digits n) (e + (digits n).length - 1)) (Decimal.value n e) := by
  obtain ⟨whole, fraction, hpointed, heq⟩ := exists_pointed n e
  rw [heq, ← hpointed.value_eq]
  exact writes_point hpointed.isDigit_whole hpointed.whole_ne_nil hpointed.isDigit_fraction

/-! ## Exponents -/

theorem isDigit_of_mem_padded {width m : ℕ} :
    ∀ c ∈ Decimal.padded width m, isDigit c = true := by
  intro c hc
  rcases List.mem_append.1 hc with hc | hc
  · exact isDigit_of_mem_replicate c hc
  · exact isDigit_of_mem_digits c hc

theorem ofDigits_padded (width m : ℕ) : ofDigits (Decimal.padded width m) = m := by
  simp only [Decimal.padded]
  rw [ofDigits_zeros_append, ofDigits_digits]

/-- A signed exponent of at least `width` digits. -/
def exponentText (width : ℕ) (x : ℤ) : List Char :=
  'e' :: (if x < 0 then '-' else '+') :: Decimal.padded width x.natAbs

/-- **A signed exponent is read back.** -/
theorem readExponent?_exponentText (width : ℕ) (x : ℤ) :
    readExponent? (exponentText width x) = some x := by
  rw [exponentText]
  have hlower : lower 'e' = 'e' := by decide
  have hdigit : ∀ c ∈ Decimal.padded width x.natAbs, isDigit c = true := isDigit_of_mem_padded
  have hempty : (Decimal.padded width x.natAbs).isEmpty = false := by
    rw [List.isEmpty_eq_false_iff]
    exact List.append_ne_nil_of_right_ne_nil _ (digits_ne_nil _)
  have hall : (Decimal.padded width x.natAbs).all isDigit = true := List.all_eq_true.2 hdigit
  by_cases hneg : x < 0
  · simp only [readExponent?, hlower, hneg, if_true, takeSign, hempty, hall, ofDigits_padded,
      Bool.not_true, Bool.or_self, Bool.false_eq_true, if_false]
    congr 1
    omega
  · simp only [readExponent?, hlower, hneg, if_true, takeSign, hempty, hall, ofDigits_padded,
      Bool.not_true, Bool.or_self, Bool.false_eq_true, if_false]
    congr 1
    omega

theorem isGraphic_of_mem_exponentText {width : ℕ} {x : ℤ} :
    ∀ c ∈ exponentText width x, IsGraphic c := by
  intro c hc
  rw [exponentText, List.mem_cons, List.mem_cons] at hc
  rcases hc with rfl | rfl | hc
  · decide
  · split <;> decide
  · exact isGraphic_of_isDigit (isDigit_of_mem_padded c hc)

/-- **The parts of a decimal with an exponent**: a digit, the others behind a point if there are
any, and the exponent of the first. -/
theorem exists_scientific (width n : ℕ) (e : ℤ) :
    ∃ d ds, isDigit d = true ∧ (∀ c ∈ ds, isDigit c = true) ∧ ofDigits (d :: ds) = n ∧
      Decimal.scientific width (digits n) (e + (digits n).length - 1) =
        d :: ((if ds = [] then [] else '.' :: ds) ++ exponentText width (e + ds.length)) := by
  have hdigit := isDigit_of_mem_digits (n := n)
  have hnumber := ofDigits_digits n
  obtain ⟨d, ds, hds⟩ := List.exists_cons_of_ne_nil (digits_ne_nil n)
  rw [hds] at hdigit hnumber ⊢
  obtain ⟨hfirst, hothers⟩ := List.forall_mem_cons.1 hdigit
  have hexponent : e + ((d :: ds).length : ℤ) - 1 = e + ds.length := by
    rw [List.length_cons]
    omega
  refine ⟨d, ds, hfirst, hothers, hnumber, ?_⟩
  rw [hexponent]
  simp only [Decimal.scientific, List.drop_one, List.tail_cons, List.take_succ_cons, List.take_zero,
    List.isEmpty_iff]
  rfl

/-- **A decimal with an exponent writes its value.** -/
theorem writes_scientific (width : ℕ) :
    Writes (Decimal.scientific width (digits n) (e + (digits n).length - 1))
      (Decimal.value n e) := by
  obtain ⟨d, ds, hfirst, hothers, hnumber, heq⟩ := exists_scientific width n e
  have hdigit : ∀ c ∈ [d], isDigit c = true := List.forall_mem_singleton.2 hfirst
  have hexponent := readExponent?_exponentText width (e + ds.length)
  have hstop : ∀ c ∈ (exponentText width (e + ds.length)).head?, isDigit c = false ∧ c ≠ '.' := by
    rintro c ⟨⟩
    decide
  rw [heq]
  constructor
  case graphic =>
    intro c hc
    rw [List.mem_cons, List.mem_append] at hc
    rcases hc with rfl | hc | hc
    · exact isGraphic_of_isDigit hfirst
    · split at hc
      · cases hc
      · rcases List.mem_cons.1 hc with rfl | hc
        · decide
        · exact isGraphic_of_isDigit (hothers c hc)
    · exact isGraphic_of_mem_exponentText c hc
  case head => exact ⟨d, rfl, hfirst⟩
  case read =>
    intro negative
    refine ⟨n, e, ?_, rfl⟩
    by_cases hempty : ds = []
    · subst hempty
      have hread := readFinite?_whole hdigit (List.cons_ne_nil d _) hstop negative
      rw [if_pos rfl]
      apply hread.trans
      rw [hexponent, hnumber, Option.map_some, List.length_nil, Nat.cast_zero, add_zero]
    · have hread := readFinite?_point hdigit (List.cons_ne_nil d _) hothers
        (fun c hc => (hstop c hc).1) negative
      rw [hexponent, List.singleton_append (l := ds), hnumber, Option.map_some,
        add_sub_cancel_right] at hread
      rw [if_neg hempty]
      exact hread

/-! ## Signs and words -/

variable {cs : List Char} {value : ℚ}

/-- What begins with a digit is no word. -/
theorem ofList_map_lower_ne {d w : Char} {ds ws : List Char} {word : String}
    (hd : isDigit d = true) (hword : word.toList = w :: ws) (hw : 57 < w.toNat) :
    String.ofList ((d :: ds).map lower) ≠ word := by
  rintro rfl
  obtain ⟨-, hhigh⟩ := isDigit_iff.1 hd
  have hlower : lower d = d := by
    rw [lower, if_neg]
    rintro ⟨hle, -⟩
    rw [Char.le_def, UInt32.le_iff_toNat_le] at hle
    have : (65 : ℕ) ≤ d.toNat := hle
    omega
  rw [String.toList_ofList, List.map_cons, hlower] at hword
  obtain rfl := (List.cons.inj hword).1
  omega

/-- **A numeral behind a sign is read with its value.** -/
theorem Writes.readReal (h : Writes cs value) (negative : Bool) :
    ∃ c e, readReal ((if negative then ['-'] else []) ++ cs) = some (.finite negative c e) ∧
      Decimal.value c e = value := by
  obtain ⟨d, hhead, hd⟩ := h.head
  obtain ⟨c, e, hread, hvalue⟩ := h.read negative
  have hgraphic : ∀ c ∈ (if negative then ['-'] else []) ++ cs, IsGraphic c := by
    intro c hc
    rcases List.mem_append.1 hc with hc | hc
    · cases negative
      · cases hc
      · obtain rfl := List.mem_singleton.1 hc
        decide
    · exact h.graphic c hc
  obtain ⟨ds, rfl⟩ : ∃ ds, cs = d :: ds := by
    cases cs with
    | nil => cases hhead
    | cons c cs => exact ⟨cs, by rw [Option.some.inj hhead]⟩
  have hsign : takeSign ((if negative then ['-'] else []) ++ d :: ds) = (negative, d :: ds) := by
    cases negative
    · exact takeSign_cons_of_isDigit hd
    · rfl
  refine ⟨c, e, ?_, hvalue⟩
  rw [Numeral.readReal, plain_of_isGraphic hgraphic, ungroup?_of_isGraphic hgraphic]
  simp only [Option.bind_eq_bind, Option.bind_some, hsign]
  rw [if_neg, if_neg (ofList_map_lower_ne hd rfl (by decide)), hread]
  rw [Bool.or_eq_true, decide_eq_true_eq, decide_eq_true_eq, not_or]
  exact ⟨ofList_map_lower_ne hd rfl (by decide), ofList_map_lower_ne hd rfl (by decide)⟩

end Numeral

/-! ## Numbers in a notation -/

namespace FloatFormat

variable (f : FloatFormat) (style : Notation)

/-- **A magnitude in a notation writes the value of its shortest decimal.** -/
theorem writes_magnitudeText {code : ℕ} (h : code ≠ 0) :
    Numeral.Writes (f.magnitudeText style code)
      (Decimal.value (f.shortest code).coefficient (f.shortest code).exponent) := by
  simp only [magnitudeText, if_neg h]
  split
  · exact Numeral.writes_positional _ _
  · exact Numeral.writes_scientific _ _ _

theorem writes_magnitudeText_zero : Numeral.Writes (f.magnitudeText style 0) 0 := by
  have hdigit := @Numeral.isDigit_of_mem_replicate
  have hwrites := Numeral.writes_point (hdigit (k := 1)) (by decide) (hdigit (k := 1))
  rw [List.replicate_append_replicate, ofDigits_replicate_zero, Decimal.value, Nat.cast_zero,
    zero_mul] at hwrites
  exact hwrites

theorem exists_writes_magnitudeText (code : ℕ) :
    ∃ value, Numeral.Writes (f.magnitudeText style code) value := by
  by_cases hzero : code = 0
  · rw [hzero]
    exact ⟨_, f.writes_magnitudeText_zero style⟩
  · exact ⟨_, f.writes_magnitudeText style hzero⟩

variable {f style} {bits : ℕ}

theorem text_of_lt (h : f.magnitude bits < f.infinity) : f.text style bits =
    (if f.isNegative bits then ['-'] else []) ++ f.magnitudeText style (f.magnitude bits) := by
  simp only [text]
  rw [if_neg (Nat.lt_asymm h), if_neg h.ne]

theorem text_of_eq (h : f.magnitude bits = f.infinity) :
    f.text style bits = (if f.isNegative bits then ['-'] else []) ++ ['i', 'n', 'f'] := by
  simp only [text]
  rw [if_neg h.not_gt, if_pos h]

theorem text_of_gt (h : f.infinity < f.magnitude bits) : f.text style bits = ['n', 'a', 'n'] := by
  simp only [text]
  rw [if_pos h]

/-- A number in a notation has visible characters alone, at least one of them. -/
theorem isGraphic_of_mem_text : f.text style bits ≠ [] ∧ ∀ c ∈ f.text style bits, IsGraphic c := by
  have hsign : ∀ c ∈ (if f.isNegative bits then ['-'] else []), IsGraphic c := by
    split <;> simp [IsGraphic]
  rcases Nat.lt_trichotomy (f.magnitude bits) f.infinity with h | h | h
  · obtain ⟨value, hwrites⟩ := f.exists_writes_magnitudeText style (f.magnitude bits)
    obtain ⟨d, hhead, -⟩ := hwrites.head
    rw [text_of_lt h]
    constructor
    · apply List.append_ne_nil_of_right_ne_nil
      intro hnil
      rw [hnil] at hhead
      cases hhead
    · intro c hc
      exact (List.mem_append.1 hc).elim (hsign c) (hwrites.graphic c)
  · have hword : ∀ c ∈ ['i', 'n', 'f'], IsGraphic c := by simp [IsGraphic]
    rw [text_of_eq h]
    constructor
    · exact List.append_ne_nil_of_right_ne_nil _ (List.cons_ne_nil _ _)
    · intro c hc
      exact (List.mem_append.1 hc).elim (hsign c) (hword c)
  · rw [text_of_gt h]
    exact ⟨List.cons_ne_nil _ _, by simp [IsGraphic]⟩

end FloatFormat

end WordVectors
