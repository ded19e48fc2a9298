import Mathlib

/-!
# Decimals near a middle

How near can a decimal with few digits be to the middle between two magnitudes of four octets? In
halves of the step at a scale `s`, the decimals with last digit at ten to the power of `e` are the
multiples of one quotient, and the middles are odd whole numbers. A quotient of small numbers near
to the first tells which multiples are near to whole numbers: it is found by division with
remainder, and what it tells is checked.

## Main definitions

* `NearMiss.stepNum`, `NearMiss.stepDen`: the step of decimals in halves of the step of magnitudes
* `NearMiss.convergent`: a quotient of small numbers near to another
* `NearMiss.Isolates`: whether it tells all multiples near to whole numbers

## Main results

* `NearMiss.Isolates.exists_mul`: those multiples are multiples of its denominator
* `NearMiss.eq_of_near`: of all decimals no finer than the magnitudes, one alone is near to a middle
  and not on it
-/

namespace WordVectors.NearMiss

/-! ## Multiples of a quotient -/

/-- How far `a / b` is from `num / den`, times both denominators. -/
def error (num den a b : ℕ) : ℕ := ((b * num : ℤ) - a * den).natAbs

/-- **Whether `a / b` tells all multiples of `num / den`**, up to the multiple `bound`, that are
near to whole numbers, that is within two to the power of -29. -/
def Isolates (bound num den a b : ℕ) : Prop :=
  Nat.gcd b a = 1 ∧ 0 < b ∧ bound * error num den a b * 2 ^ 29 + b * den < 2 ^ 29 * den

instance (bound num den a b : ℕ) : Decidable (Isolates bound num den a b) :=
  inferInstanceAs (Decidable (_ ∧ _))

variable {bound num den a b d m : ℕ}

/-- **Multiples near to whole numbers are multiples of the denominator.** -/
theorem Isolates.exists_mul (h : Isolates bound num den a b) (hd : d ≤ bound)
    (hnear : error num den m d * 2 ^ 29 ≤ den) : ∃ j, d = j * b ∧ m = j * a := by
  obtain ⟨hgcd, hb, hsum⟩ := h
  have hcross : (den : ℤ) * (d * a - m * b) =
      b * ((d * num : ℤ) - m * den) - d * ((b * num : ℤ) - a * den) := by
    ring
  have habs : (den : ℤ) * |(d * a - m * b : ℤ)| ≤
      b * error num den m d + d * error num den a b := by
    have htri := abs_sub (b * ((d * num : ℤ) - m * den)) (d * ((b * num : ℤ) - a * den))
    rw [← hcross, abs_mul, abs_mul, abs_mul, Nat.abs_cast, Nat.abs_cast, Nat.abs_cast] at htri
    simpa only [error, Int.natCast_natAbs] using htri
  -- The difference of the cross products is a whole number below one.
  have hzero : (d * a - m * b : ℤ) = 0 := by
    by_contra hne
    have hone : (1 : ℤ) ≤ |(d * a - m * b : ℤ)| := Int.one_le_abs hne
    have hden : (den : ℤ) ≤ den * |(d * a - m * b : ℤ)| :=
      le_mul_of_one_le_right (by positivity) hone
    have h₁ : (b : ℤ) * error num den m d * 2 ^ 29 ≤ b * den := by
      rw [mul_assoc]
      exact mul_le_mul_of_nonneg_left (by exact_mod_cast hnear) (by positivity)
    have h₂ : (d : ℤ) * error num den a b ≤ bound * error num den a b :=
      mul_le_mul_of_nonneg_right (by exact_mod_cast hd) (by positivity)
    have h₃ : (bound : ℤ) * error num den a b * 2 ^ 29 + b * den < 2 ^ 29 * den := by
      exact_mod_cast hsum
    linarith
  have hprod : d * a = m * b := by
    have := sub_eq_zero.1 hzero
    exact_mod_cast this
  obtain ⟨j, rfl⟩ : b ∣ d := Nat.Coprime.dvd_of_dvd_mul_right hgcd ⟨m, by rw [hprod, mul_comm]⟩
  refine ⟨j, Nat.mul_comm _ _, ?_⟩
  have hcancel : b * (j * a) = b * m := by rw [← mul_assoc, hprod, mul_comm]
  exact (Nat.eq_of_mul_eq_mul_left hb hcancel).symm

/-- No multiple is near to a whole number and not on it, if the denominator is not. -/
theorem Isolates.mul_eq (h : Isolates bound num den a b)
    (hclear : error num den a b = 0 ∨ den < error num den a b * 2 ^ 29) (hpos : 0 < d)
    (hd : d ≤ bound) (hnear : error num den m d * 2 ^ 29 ≤ den) : d * num = m * den := by
  obtain ⟨j, rfl, rfl⟩ := h.exists_mul hd hnear
  have herror : error num den (j * a) (j * b) = j * error num den a b := by
    rw [error, error, ← Int.natAbs_natCast j, ← Int.natAbs_mul, Int.natAbs_natCast]
    congr 1
    push_cast
    ring
  rw [herror] at hnear
  have hzero : error num den a b = 0 := by
    apply hclear.resolve_right
    intro hlt
    have hj : 0 < j := Nat.pos_of_mul_pos_right hpos
    have hle : error num den a b ≤ j * error num den a b := Nat.le_mul_of_pos_left _ hj
    have := Nat.mul_le_mul_right (2 ^ 29) hle
    omega
  have hmul : (b * num : ℤ) = a * den := sub_eq_zero.1 (Int.natAbs_eq_zero.1 hzero)
  have hmul' : b * num = a * den := by exact_mod_cast hmul
  rw [mul_assoc, hmul', mul_assoc]

/-- **A quotient of small numbers near to `num / den`**, by division with remainder until the
denominator would be past the bound; `a / b` and `a' / b'` are the last two. -/
def convergent (bound : ℕ) : (fuel num den a a' b b' : ℕ) → ℕ × ℕ
  | 0, _, _, a, _, b, _ => (a, b)
  | fuel + 1, num, den, a, a', b, b' =>
    if den = 0 then (a, b)
    else
      let t := num / den
      if bound < t * b + b' then (a, b)
      else convergent bound fuel den (num % den) (t * a + a') a (t * b + b') b

/-! ## The steps of decimals -/

/-- **The step of decimals** with last digit at ten to the power of `e`, in halves of the step of
magnitudes at scale `s`. -/
def step (s : ℕ) (e : ℤ) : ℚ := 10 ^ e * 2 ^ (150 - s : ℤ)

/-- The numerator of the step of decimals. -/
def stepNum (s : ℕ) (e : ℤ) : ℕ := 10 ^ e.toNat * 2 ^ (150 - s)

/-- The denominator of the step of decimals. -/
def stepDen (s : ℕ) (e : ℤ) : ℕ := 10 ^ (-e).toNat * 2 ^ (s - 150)

theorem stepNum_pos (s : ℕ) (e : ℤ) : 0 < stepNum s e := by
  rw [stepNum]
  positivity

theorem stepDen_pos (s : ℕ) (e : ℤ) : 0 < stepDen s e := by
  rw [stepDen]
  positivity

/-- A power with a signed exponent as a quotient. -/
theorem zpow_eq_div {x : ℚ} (hx : x ≠ 0) (e : ℤ) : x ^ e = x ^ e.toNat / x ^ (-e).toNat := by
  have hsplit : e = e.toNat - (-e).toNat := by omega
  conv_lhs => rw [hsplit, zpow_sub₀ hx, zpow_natCast, zpow_natCast]

theorem step_eq (s : ℕ) (e : ℤ) : step s e = stepNum s e / stepDen s e := by
  have h₁ : (150 - s : ℤ).toNat = 150 - s := by omega
  have h₂ : (-(150 - s : ℤ)).toNat = s - 150 := by omega
  rw [step, stepNum, stepDen, zpow_eq_div (by norm_num) e, zpow_eq_div (by norm_num) (150 - s : ℤ),
    h₁, h₂]
  push_cast
  exact div_mul_div_comm _ _ _ _

theorem step_mono (s : ℕ) {e e' : ℤ} (h : e ≤ e') : step s e ≤ step s e' :=
  mul_le_mul_of_nonneg_right (zpow_le_zpow_right₀ (by norm_num) h) (by positivity)

/-- The least exponent at which decimals are no finer than the magnitudes at scale `s`. -/
def firstExponent (s : ℕ) : ℤ := (s * 30103 / 100000 : ℕ) - 45

/-- The greatest multiple of the step that is not past the significands. -/
def lastMultiple (s : ℕ) (e : ℤ) : ℕ := 2 ^ 25 * stepDen s e / stepNum s e

/-- The quotient that tells the multiples of a step near to whole numbers. -/
def quotient (s : ℕ) (e : ℤ) : ℕ × ℕ :=
  convergent (lastMultiple s e) 64 (stepNum s e) (stepDen s e) 1 0 0 1

/-- Whether no multiple of a step is near to a whole number and not on it. -/
def IsClear (s : ℕ) (e : ℤ) : Prop :=
  Isolates (lastMultiple s e) (stepNum s e) (stepDen s e) (quotient s e).1 (quotient s e).2 ∧
    (error (stepNum s e) (stepDen s e) (quotient s e).1 (quotient s e).2 = 0 ∨
      stepDen s e < error (stepNum s e) (stepDen s e) (quotient s e).1 (quotient s e).2 * 2 ^ 29)

instance (s : ℕ) (e : ℤ) : Decidable (IsClear s e) :=
  inferInstanceAs (Decidable (_ ∧ _))

/-- Below the first exponent decimals are finer than magnitudes, and nine exponents further no
decimal is as small as a magnitude. -/
theorem window_edges : ∀ s : ℕ, s < 254 →
    2 ^ 28 * stepNum s (firstExponent s - 1) < (2 ^ 29 - 1) * stepDen s (firstExponent s - 1) ∧
      2 ^ 25 * stepDen s (firstExponent s + 9) < stepNum s (firstExponent s + 9) := by
  decide +kernel

/-- **The steps in between are clear**, but for one. -/
theorem isClear_of_lt : ∀ s : ℕ, s < 254 → ∀ i : ℕ, i < 9 →
    2 ^ 28 * stepNum s (firstExponent s + i) < (2 ^ 29 - 1) * stepDen s (firstExponent s + i) ∨
      2 ^ 25 * stepDen s (firstExponent s + i) < stepNum s (firstExponent s + i) ∨
      IsClear s (firstExponent s + i) ∨ s = 42 ∧ firstExponent s + i = -32 := by
  decide +kernel

/-- The multiples of the step that is not clear. -/
theorem isolates_exception :
    Isolates (lastMultiple 42 (-32)) (stepNum 42 (-32)) (stepDen 42 (-32)) 22841339 7038531 ∧
      lastMultiple 42 (-32) < 2 * 7038531 := by
  decide +kernel

/-! ## Near a middle -/

theorem step_lt_iff {s : ℕ} {e : ℤ} :
    step s e < 2 - 1 / 2 ^ 28 ↔ 2 ^ 28 * stepNum s e < (2 ^ 29 - 1) * stepDen s e := by
  have hden : (0 : ℚ) < stepDen s e := by exact_mod_cast stepDen_pos s e
  have hcast : (2 - 1 / 2 ^ 28 : ℚ) * stepDen s e =
      ((2 ^ 29 - 1) * stepDen s e : ℕ) / 2 ^ 28 := by
    push_cast
    ring
  rw [step_eq, div_lt_iff₀ hden, hcast, lt_div_iff₀ (by norm_num), mul_comm]
  exact_mod_cast Iff.rfl

theorem lt_step_iff {s : ℕ} {e : ℤ} :
    2 ^ 25 < step s e ↔ 2 ^ 25 * stepDen s e < stepNum s e := by
  have hden : (0 : ℚ) < stepDen s e := by exact_mod_cast stepDen_pos s e
  rw [step_eq, lt_div_iff₀ hden]
  exact_mod_cast Iff.rfl

/-- **One decimal alone is near to a middle and not on it**, of all that are no finer than the
magnitudes. -/
theorem eq_of_near {s d m : ℕ} {e : ℤ} (hs : s < 254) (hd : 0 < d) (hm : m < 2 ^ 25)
    (hstep : 2 - 1 / 2 ^ 28 ≤ step s e) (hnear : |d * step s e - m| ≤ 1 / 2 ^ 29)
    (hne : d * step s e ≠ m) : s = 42 ∧ e = -32 ∧ d = 7038531 ∧ m = 22841339 := by
  have hden : (0 : ℚ) < stepDen s e := by exact_mod_cast stepDen_pos s e
  have hnum : (0 : ℚ) < stepNum s e := by exact_mod_cast stepNum_pos s e
  have hone : (1 : ℚ) ≤ d := by exact_mod_cast hd
  have hpos : 0 < step s e := by
    rw [step_eq]
    exact div_pos hnum hden
  have hupper : d * step s e < 2 ^ 25 := by
    have hm' : (m : ℚ) ≤ 2 ^ 25 - 1 := by
      have : m + 1 ≤ 2 ^ 25 := hm
      have : (m : ℚ) + 1 ≤ 2 ^ 25 := by exact_mod_cast this
      linarith
    have := (abs_le.1 hnear).2
    linarith
  have hle : step s e < 2 ^ 25 := (le_mul_of_one_le_left hpos.le hone).trans_lt hupper
  obtain ⟨hbelow, habove⟩ := window_edges s hs
  have hfirst : firstExponent s ≤ e := by
    by_contra hlt
    have hmono : step s e ≤ step s (firstExponent s - 1) := step_mono s (by omega)
    exact absurd (hmono.trans_lt (step_lt_iff.2 hbelow)) hstep.not_gt
  have hlast : e < firstExponent s + 9 := by
    by_contra hge
    have hmono : step s (firstExponent s + 9) ≤ step s e := step_mono s (by omega)
    exact absurd ((lt_step_iff.2 habove).trans_le hmono) hle.not_gt
  obtain ⟨i, hi⟩ : ∃ i : ℕ, e = firstExponent s + i := ⟨(e - firstExponent s).toNat, by omega⟩
  have hmultiple : d ≤ lastMultiple s e := by
    rw [lastMultiple, Nat.le_div_iff_mul_le (stepNum_pos s e)]
    rw [step_eq, ← mul_div_assoc, div_lt_iff₀ hden] at hupper
    exact_mod_cast hupper.le
  have herror : error (stepNum s e) (stepDen s e) m d * 2 ^ 29 ≤ stepDen s e := by
    have hcross : (d * step s e - m) * stepDen s e = d * stepNum s e - m * stepDen s e := by
      rw [step_eq, sub_mul, mul_assoc, div_mul_cancel₀ _ hden.ne']
    have habs : (error (stepNum s e) (stepDen s e) m d : ℚ) =
        |d * step s e - m| * stepDen s e := by
      rw [← abs_of_pos hden, ← abs_mul, hcross, error, Nat.cast_natAbs]
      push_cast
      rfl
    have hbound : (error (stepNum s e) (stepDen s e) m d : ℚ) * 2 ^ 29 ≤ stepDen s e := by
      rw [habs]
      have := mul_le_mul_of_nonneg_right hnear hden.le
      linarith
    exact_mod_cast hbound
  rcases isClear_of_lt s hs i (by omega) with h | h | h | h
  · exact absurd (step_lt_iff.2 (hi ▸ h)) hstep.not_gt
  · exact absurd (lt_step_iff.2 (hi ▸ h)) hle.not_gt
  · rw [← hi] at h
    have heq := h.1.mul_eq h.2 hd hmultiple herror
    refine absurd ?_ hne
    rw [step_eq, ← mul_div_assoc, div_eq_iff hden.ne']
    exact_mod_cast heq
  · rw [← hi] at h
    obtain ⟨rfl, rfl⟩ := h
    obtain ⟨hisolates, htwo⟩ := isolates_exception
    obtain ⟨j, rfl, rfl⟩ := hisolates.exists_mul hmultiple herror
    obtain rfl : j = 1 := by omega
    exact ⟨rfl, rfl, rfl, rfl⟩

end WordVectors.NearMiss
