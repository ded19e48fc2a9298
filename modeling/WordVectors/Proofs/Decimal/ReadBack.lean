import WordVectors.Proofs.Decimal.Notation

/-!
# Numbers of four octets read back

A number of four octets in a notation is read as a number of eight octets. Narrowing that leads
back to the number, unless its magnitude is the one whose shortest decimal is read as a middle. What
is no number loses its sign and its payload.

## Main definitions

* `Binary32.IsLost`: whether the magnitude is the one that is not read back
* `Binary32.Same`: whether two numbers are the same, whatever stands for no number
* `Binary32.IsKept`: whether the bits are those that are read back

## Main results

* `Binary32.exists_read?_text`: what is read back from a number in a notation
-/

namespace WordVectors

open FloatFormat (binary32 binary64)

namespace Binary32

/-! ## What is read back -/

/-- Whether a number stands for no number. -/
def isNaN (x : Binary32) : Bool := x.datum = .nan

/-- **Whether the magnitude is the one that is not read back.** -/
def IsLost (x : Binary32) : Prop := x.code = lostCode

/-- **Whether two numbers are the same**, where anything that stands for no number is the same. -/
def Same (x y : Binary32) : Prop := x = y ∨ x.isNaN = true ∧ y.isNaN = true

/-- **Whether the bits of a number are those that are read back.** What stands for no number is
read as the quiet one without sign or further payload. -/
def IsKept (x : Binary32) : Prop :=
  ¬ x.IsLost ∧ (x.isNaN = true → x = ofPattern format.quietNaN)

instance (x : Binary32) : Decidable x.IsLost :=
  inferInstanceAs (Decidable (_ = _))

instance (x y : Binary32) : Decidable (x.Same y) :=
  inferInstanceAs (Decidable (_ ∨ _))

instance (x : Binary32) : Decidable x.IsKept :=
  inferInstanceAs (Decidable (_ ∧ _))

theorem isNaN_iff (x : Binary32) : x.isNaN = true ↔ binary32.infinity < x.code := by
  rw [isNaN, decide_eq_true_eq, datum, code]
  simp only [FloatFormat.datum]
  constructor
  · intro h
    by_contra hle
    rw [if_neg hle] at h
    split at h <;> cases h
  · exact fun h => if_pos h

theorem shortest_zero : binary32.shortest 0 = ⟨0, -45⟩ := by decide +kernel

/-- **A finite number in a notation** writes the value of the shortest decimal of its magnitude. -/
theorem writes_magnitudeText (style : Notation) (c : ℕ) :
    Numeral.Writes (binary32.magnitudeText style c)
      (Decimal.value (binary32.shortest c).coefficient (binary32.shortest c).exponent) := by
  by_cases hzero : c = 0
  · have hvalue : Decimal.value 0 (-45) = 0 := by rw [Decimal.value, Nat.cast_zero, zero_mul]
    rw [hzero, shortest_zero, hvalue]
    exact binary32.writes_magnitudeText_zero style
  · exact binary32.writes_magnitudeText style hzero

variable {x y : Binary32}

/-- Of what stands for a number, all that is kept is read back, and nothing else is the same. -/
theorem same_and_isKept_iff (hnan : ¬ x.isNaN = true) (h : y = x ↔ ¬ x.IsLost) :
    (y.Same x ↔ ¬ x.IsLost) ∧ (y = x ↔ x.IsKept) := by
  constructor
  · rw [← h, Same]
    exact or_iff_left fun hboth => hnan hboth.2
  · rw [h, IsKept]
    exact (and_iff_left fun hx => absurd hx hnan).symm

/-- **What is read back from a number in a notation**: the number, unless its magnitude is the one
that is not read back; and its bits, unless they are one of many that stand for no number. -/
theorem exists_read?_text (style : Notation) (x : Binary32) :
    ∃ y, Binary64.read? (x.text style) = some y ∧ (y.narrow.Same x ↔ ¬ x.IsLost) ∧
      (y.narrow = x ↔ x.IsKept) := by
  have hcode := x.ofPattern_code
  have hlost := lostCode_lt
  have hsign := binary32.infinity_lt_signWeight
  have hnan := x.isNaN_iff
  rcases Nat.lt_trichotomy x.code binary32.infinity with h | h | h
  · obtain ⟨c, e, hread, hvalue⟩ :=
      (writes_magnitudeText style x.code).readReal (format.isNegative x.pattern)
    refine ⟨Binary64.ofNumeral (.finite (format.isNegative x.pattern) c e), ?_,
      same_and_isKept_iff (fun hx => h.not_gt (hnan.1 hx)) ?_⟩
    · rw [Binary64.read?, text, FloatFormat.text_of_lt h]
      exact congrArg (Option.map Binary64.ofNumeral) hread
    · rw [Binary64.ofNumeral, Binary64.narrow_ofPattern _ (ofDecimal_shortest_lt h hvalue)]
      generalize format.isNegative x.pattern = negative at hcode ⊢
      conv_lhs => rw [← hcode]
      have hbound : binary32.roundRatio (binary64.units (binary64.ofDecimal c e)) binary64.one <
          binary32.signWeight := (binary32.roundUnits_le_infinity _ _).trans_lt hsign
      rw [ofPattern_eq_iff hbound (h.trans hsign), narrow_shortest_iff h hvalue]
      rfl
  · have hword : ∀ negative : Bool, Numeral.readReal ((if negative then ['-'] else []) ++
        ['i', 'n', 'f']) = some (.infinite negative) := by
      decide +kernel
    refine ⟨Binary64.ofNumeral (.infinite (format.isNegative x.pattern)), ?_,
      same_and_isKept_iff (fun hx => (hnan.1 hx).ne' h) ?_⟩
    · rw [Binary64.read?, text, FloatFormat.text_of_eq h]
      exact congrArg (Option.map Binary64.ofNumeral) (hword _)
    · rw [Binary64.ofNumeral, Binary64.narrow_infinity, ← h, hcode]
      exact iff_of_true rfl fun heq => hlost.ne (heq.symm.trans h)
  · have hword : Numeral.readReal ['n', 'a', 'n'] = some (.nan false) := by decide +kernel
    have hquiet : (ofPattern format.quietNaN).isNaN = true := by decide +kernel
    refine ⟨Binary64.ofNumeral (.nan false), ?_, ?_, ?_⟩
    · rw [Binary64.read?, text, FloatFormat.text_of_gt h]
      exact congrArg (Option.map Binary64.ofNumeral) hword
    · rw [Binary64.ofNumeral, Binary64.narrow_quietNaN]
      exact iff_of_true (.inr ⟨hquiet, hnan.2 h⟩) fun heq => (hlost.trans h).ne heq.symm
    · rw [Binary64.ofNumeral, Binary64.narrow_quietNaN]
      constructor
      · intro heq
        exact ⟨fun hx => (hlost.trans h).ne hx.symm, fun _ => heq.symm⟩
      · intro hkept
        exact (hkept.2 (hnan.2 h)).symm

end Binary32

end WordVectors
