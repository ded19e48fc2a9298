import WordVectors.Decimal.Shortest
import WordVectors.Proofs.Decimal.NearMiss
import WordVectors.Proofs.Number.Narrowing

/-!
# Shortest decimals read back

A shortest decimal of four octets identifies a number among those of four octets. It is read as a
number of eight octets, though, and only then narrowed. That leads back to the number it was
written for, with one exception of either sign: the decimal `7.038531e-26` is read as the middle
between two numbers of four octets, and narrowing goes to the other one.

## Main definitions

* `Decimal.value`: the number that a decimal stands for
* `lostCode`: the code of the magnitude that is not read back

## Main results

* `FloatFormat.ofDecimal_eq`: reading a decimal is rounding its value once
* `FloatFormat.two_sub_le_step`: a candidate far from its magnitude is on a coarse grid
* `narrow_shortest_iff`: which shortest decimals lead back
-/

namespace WordVectors

/-! ## Values of decimals -/

namespace Decimal

/-- **The number that a decimal stands for.** -/
def value (coefficient : ℕ) (exponent : ℤ) : ℚ := coefficient * 10 ^ exponent

theorem power_eq (k : ℕ) : power k = 10 ^ k := rfl

/-- The value of a decimal as a quotient. -/
theorem value_eq_div (c : ℕ) (e : ℤ) :
    value c e = ((c * power e.toNat : ℕ) : ℚ) / (power (-e).toNat : ℕ) := by
  rw [value, NearMiss.zpow_eq_div (by norm_num), power_eq, power_eq]
  push_cast
  exact (mul_div_assoc _ _ _).symm

theorem power_pos (k : ℕ) : 0 < power k := by
  rw [power_eq]
  positivity

/-- **Zeros at the end of a coefficient do not count.** -/
theorem value_strip (c : ℕ) (e : ℤ) : value (strip c e).coefficient (strip c e).exponent =
    value c e := by
  induction c, e using strip.induct with
  | case1 c e h ih =>
    rw [strip, if_pos h, ih, value, value]
    have hc : c = c / 10 * 10 := (Nat.div_mul_cancel (Nat.dvd_of_mod_eq_zero h.2)).symm
    conv_rhs => rw [hc]
    rw [zpow_add₀ (by norm_num), zpow_one, Nat.cast_mul, Nat.cast_ofNat]
    ring
  | case2 c e h => rw [strip, if_neg h]

/-! ## Counted digits -/

theorem countedWeight_eq : countedWeight = 10 ^ countedDigits := rfl

theorem lt_pow_digitCount (n : ℕ) : n < 10 ^ digitCount n := by
  induction n using digitCount.induct with
  | case1 n h => rw [digitCount, if_pos h]; simpa using h
  | case2 n h h' ih =>
    rw [digitCount, if_neg h, if_pos h', pow_succ]
    omega
  | case3 n h h' ih =>
    rw [digitCount, if_neg h, if_neg h', pow_add, ← countedWeight_eq]
    exact Nat.lt_mul_of_div_lt ih (power_pos countedDigits)

theorem pow_digitCount_le {n : ℕ} (hn : n ≠ 0) : 10 ^ digitCount n ≤ 10 * n := by
  induction n using digitCount.induct with
  | case1 n h => rw [digitCount, if_pos h]; omega
  | case2 n h h' ih =>
    have hle := ih (by omega)
    rw [digitCount, if_neg h, if_pos h', pow_succ]
    omega
  | case3 n h h' ih =>
    have hpos : 0 < n / countedWeight := Nat.div_pos (Nat.not_lt.1 h') (power_pos countedDigits)
    rw [digitCount, if_neg h, if_neg h', pow_add, ← countedWeight_eq]
    calc 10 ^ digitCount (n / countedWeight) * countedWeight
        ≤ 10 * (n / countedWeight) * countedWeight := Nat.mul_le_mul_right _ (ih hpos.ne')
      _ = 10 * (n / countedWeight * countedWeight) := Nat.mul_assoc _ _ _
      _ ≤ 10 * n := Nat.mul_le_mul_left 10 (Nat.div_mul_le_self n countedWeight)

end Decimal

namespace FloatFormat

variable {f : FloatFormat}

/-! ## Reading is rounding once -/

theorem one_eq (f : FloatFormat) : f.one = 2 ^ f.unitShift := by
  rw [one, Nat.one_shiftLeft]

/-- A decimal in units, as the quotient that is rounded. -/
theorem ratio_eq_value (f : FloatFormat) (c : ℕ) (e : ℤ) :
    ((c * Decimal.power e.toNat * f.one : ℕ) : ℚ) / Decimal.power (-e).toNat =
      Decimal.value c e * f.one := by
  rw [Decimal.value_eq_div, Nat.cast_mul _ f.one]
  exact mul_div_right_comm _ _ _

theorem mid_zero (f : FloatFormat) : f.mid 0 = 1 / 2 := by
  rw [mid_eq_add, units_zero, scale, Nat.zero_div, Nat.zero_sub]
  norm_num

theorem roundUnits_le_infinity (f : FloatFormat) (num den : ℕ) :
    f.roundUnits num den ≤ f.infinity :=
  min_le_right _ _

/-- **Reading a decimal is rounding its value once**: the cutoffs do not change what is read. -/
theorem ofDecimal_eq (hbits : 0 < f.fractionBits)
    (hlarge : f.units f.infinity ≤ 20 ^ f.unitShift) (c : ℕ) (e : ℤ) :
    f.ofDecimal c e =
      f.roundRatio (c * Decimal.power e.toNat) (Decimal.power (-e).toNat) := by
  have hden := Decimal.power_pos (-e).toNat
  have hratio := f.ratio_eq_value c e
  have hten : (0 : ℚ) < 10 ^ e := by positivity
  have hone : (f.one : ℚ) = 2 ^ f.unitShift := by
    rw [one_eq]
    push_cast
    rfl
  simp only [ofDecimal]
  split_ifs with hsmall hgreat
  · refine (?_ : f.roundRatio _ _ = 0).symm
    rw [roundRatio, roundUnits_eq_of_mid hbits hden (c := 0) (fun b hb => absurd hb b.succ_ne_zero),
      Nat.zero_min]
    rw [hratio, mid_zero, Decimal.value]
    rcases hsmall with rfl | hsize
    · norm_num
    · have hcount : (c : ℚ) < 10 ^ (Decimal.digitCount c : ℤ) := by
        rw [zpow_natCast]
        exact_mod_cast Decimal.lt_pow_digitCount c
      have hpower : (10 : ℚ) ^ (Decimal.digitCount c : ℤ) * 10 ^ e ≤
          10 ^ (-(f.unitShift : ℤ) - 1) := by
        rw [← zpow_add₀ (by norm_num)]
        exact zpow_le_zpow_right₀ (by norm_num) (by omega)
      have hweight : (10 : ℚ) ^ (-(f.unitShift : ℤ) - 1) * 2 ^ f.unitShift ≤ 1 / 10 := by
        rw [zpow_sub_one₀ (by norm_num), zpow_neg, zpow_natCast, mul_right_comm, ← div_eq_inv_mul,
          ← div_pow]
        have : ((2 : ℚ) / 10) ^ f.unitShift ≤ 1 := pow_le_one₀ (by norm_num) (by norm_num)
        linarith
      calc (c : ℚ) * 10 ^ e * f.one ≤ 10 ^ (-(f.unitShift : ℤ) - 1) * 2 ^ f.unitShift := by
            rw [hone]
            exact mul_le_mul_of_nonneg_right
              ((mul_le_mul_of_nonneg_right hcount.le hten.le).trans hpower) (by positivity)
        _ ≤ 1 / 10 := hweight
        _ < 1 / 2 := by norm_num
  · refine le_antisymm (le_roundUnits hbits hden le_rfl ?_) (f.roundUnits_le_infinity _ _)
    have hcoefficient : c ≠ 0 := fun hzero => hsmall (.inl hzero)
    have hcount : (10 : ℚ) ^ (Decimal.digitCount c : ℤ) ≤ 10 * c := by
      rw [zpow_natCast]
      exact_mod_cast Decimal.pow_digitCount_le hcoefficient
    have hpower : (10 : ℚ) ^ (f.unitShift + 1 : ℤ) ≤ 10 ^ (Decimal.digitCount c : ℤ) * 10 ^ e := by
      rw [← zpow_add₀ (by norm_num)]
      exact zpow_le_zpow_right₀ (by norm_num) (by omega)
    have hvalue : (10 : ℚ) ^ f.unitShift ≤ c * 10 ^ e := by
      rw [zpow_add_one₀ (by norm_num), zpow_natCast] at hpower
      have := mul_le_mul_of_nonneg_right hcount hten.le
      linarith
    rw [hratio, Decimal.value]
    calc (f.units f.infinity : ℚ) ≤ 20 ^ f.unitShift := by exact_mod_cast hlarge
      _ = 10 ^ f.unitShift * 2 ^ f.unitShift := by rw [← mul_pow]; norm_num
      _ ≤ c * 10 ^ e * f.one := by
          rw [hone]
          exact mul_le_mul_of_nonneg_right hvalue (by positivity)
  · rfl

end FloatFormat

theorem units_infinity_binary32_le : FloatFormat.binary32.units FloatFormat.binary32.infinity ≤
    20 ^ FloatFormat.binary32.unitShift := by
  decide +kernel

theorem units_infinity_binary64_le : FloatFormat.binary64.units FloatFormat.binary64.infinity ≤
    20 ^ FloatFormat.binary64.unitShift := by
  decide +kernel

/-- The whole number nearest to a quotient is within one half of it. -/
theorem abs_roundHalfEven_sub_le (num : ℕ) {den : ℕ} (hden : 0 < den) :
    |(roundHalfEven num den : ℚ) - num / den| ≤ 1 / 2 := by
  have hpos : (0 : ℚ) < den := by exact_mod_cast hden
  have hdiv : num = num / den * den + num % den := (Nat.div_add_mod' num den).symm
  have hmod : num % den < den := Nat.mod_lt num hden
  have hquot : (num : ℚ) / den = (num / den : ℕ) + ((num % den : ℕ) : ℚ) / den := by
    conv_lhs => rw [hdiv]
    push_cast
    rw [add_div, mul_div_cancel_right₀ _ hpos.ne']
  have hnear : roundHalfEven num den = num / den ∧ 2 * (num % den) ≤ den ∨
      roundHalfEven num den = num / den + 1 ∧ den ≤ 2 * (num % den) := by
    simp only [roundHalfEven]
    split_ifs <;> omega
  have hrest : ((num % den : ℕ) : ℚ) / den < 1 := by
    rw [div_lt_one hpos]
    exact_mod_cast hmod
  have hnonneg : 0 ≤ ((num % den : ℕ) : ℚ) / den := by positivity
  rw [hquot, abs_le]
  rcases hnear with ⟨hround, hle⟩ | ⟨hround, hle⟩
  · have hhalf : ((num % den : ℕ) : ℚ) / den ≤ 1 / 2 := by
      rw [div_le_div_iff₀ hpos two_pos, mul_comm, one_mul]
      exact_mod_cast hle
    rw [hround]
    constructor <;> linarith
  · have hhalf : 1 / 2 ≤ ((num % den : ℕ) : ℚ) / den := by
      rw [div_le_div_iff₀ two_pos hpos, one_mul, mul_comm]
      exact_mod_cast hle
    rw [hround]
    push_cast
    constructor <;> linarith

/-! ## Odd codes -/

/-- A magnitude with an odd code and the one in front of it have the same scale. -/
theorem FloatFormat.scale_of_odd {f : FloatFormat} {b : ℕ} (hbits : 0 < f.fractionBits)
    (hodd : (b + 1) % 2 = 1) :
    f.scale (b + 1) = f.scale b ∧ f.significand (b + 1) = f.significand b + 1 := by
  have heven : 2 ∣ f.lead := by
    rw [f.lead_eq]
    exact dvd_pow_self 2 hbits.ne'
  have hdvd : ¬ f.lead ∣ b + 1 := fun h => by
    have := heven.trans h
    omega
  have hscale : f.scale (b + 1) = f.scale b := by
    rw [scale, scale, Nat.succ_div_of_not_dvd hdvd]
  have hnext := f.scale_mul_lead_add_significand (b + 1)
  have hcode := f.scale_mul_lead_add_significand b
  rw [hscale] at hnext
  exact ⟨hscale, by omega⟩

open FloatFormat (binary32 binary64)
open NearMiss (step)

/-- A decimal in units of four octets, by the step at a scale. -/
theorem value_mul_one (d : ℕ) (e : ℤ) (s : ℕ) :
    Decimal.value d e * binary32.one = d * step s e * (2 ^ s / 2) := by
  have hone : (binary32.one : ℚ) = 2 ^ 149 := by
    rw [FloatFormat.one_eq]
    push_cast
    rfl
  have hsplit : (2 : ℚ) ^ (150 - s : ℤ) * 2 ^ s = 2 ^ 150 := by
    rw [← zpow_natCast, ← zpow_add₀ (by norm_num), sub_add_cancel]
    rfl
  rw [hone, Decimal.value, step]
  linear_combination (-(d : ℚ) * 10 ^ e / 2) * hsplit

theorem units_eq_step (c : ℕ) :
    (binary32.units c : ℚ) = 2 * binary32.significand c * (2 ^ binary32.scale c / 2) := by
  rw [binary32.units_eq]
  push_cast
  ring

theorem mid_eq_step (c : ℕ) :
    binary32.mid c = (2 * binary32.significand c + 1) * (2 ^ binary32.scale c / 2) := by
  have htwo := binary32.two_mul_mid c
  push_cast at htwo
  linear_combination htwo / 2

section

variable {c d : ℕ} {e : ℤ}

/-- **Which decimals are read as a magnitude with an odd code**: those nearer to it than half its
step. -/
theorem ofDecimal_eq_iff_of_odd (hodd : c % 2 = 1) (hc : c < binary32.infinity) :
    binary32.ofDecimal d e = c ↔
      |d * step (binary32.scale c) e - 2 * binary32.significand c| < 1 := by
  obtain ⟨b, rfl⟩ : ∃ b, c = b + 1 := ⟨c - 1, by omega⟩
  obtain ⟨hscale, hsig⟩ := FloatFormat.scale_of_odd (f := binary32) (by decide) hodd
  have hbits := fractionBits_binary32_pos
  have hden := Decimal.power_pos (-e).toNat
  have hhalf : (0 : ℚ) < 2 ^ binary32.scale (b + 1) / 2 := by positivity
  have hratio := binary32.ratio_eq_value d e
  rw [value_mul_one d e (binary32.scale (b + 1))] at hratio
  have hbelow : binary32.mid b =
      (2 * binary32.significand (b + 1) - 1) * (2 ^ binary32.scale (b + 1) / 2) := by
    rw [mid_eq_step, hscale, hsig]
    push_cast
    ring
  have habove := mid_eq_step (b + 1)
  rw [FloatFormat.ofDecimal_eq hbits units_infinity_binary32_le, abs_lt]
  constructor
  · intro hround
    have hlow := (FloatFormat.mid_le_of_roundUnits hbits hden hc hround).2 hodd
    have hhigh := (FloatFormat.le_mid_of_roundUnits hbits hden hc hround).2 hodd
    rw [hratio, hbelow] at hlow
    rw [hratio, habove] at hhigh
    have h₁ := lt_of_mul_lt_mul_right hlow hhalf.le
    have h₂ := lt_of_mul_lt_mul_right hhigh hhalf.le
    constructor <;> linarith
  · rintro ⟨hlow, hhigh⟩
    refine (FloatFormat.roundUnits_eq_of_mid hbits hden ?_ ?_).trans (Nat.min_eq_left hc.le)
    · intro a ha
      obtain rfl : a = b := by omega
      rw [hratio, hbelow]
      exact mul_lt_mul_of_pos_right (by linarith) hhalf
    · rw [hratio, habove]
      exact mul_lt_mul_of_pos_right (by linarith) hhalf

/-- The whole number nearest to a magnitude over a step is within half the step of it. -/
theorem abs_nearest_sub_le (c : ℕ) (e : ℤ) :
    |roundHalfEven (Decimal.scaled (binary32.units c) binary32.one e).1
          (Decimal.scaled (binary32.units c) binary32.one e).2 * step (binary32.scale c) e -
        2 * binary32.significand c| ≤ step (binary32.scale c) e / 2 := by
  have hden : 0 < (Decimal.scaled (binary32.units c) binary32.one e).2 :=
    Nat.mul_pos one_binary32_pos (Decimal.power_pos _)
  have hnear := abs_roundHalfEven_sub_le
    (Decimal.scaled (binary32.units c) binary32.one e).1 hden
  have hstep : 0 < step (binary32.scale c) e := by
    rw [step]
    positivity
  have hquot : ((Decimal.scaled (binary32.units c) binary32.one e).1 : ℚ) /
      (Decimal.scaled (binary32.units c) binary32.one e).2 * step (binary32.scale c) e =
        2 * binary32.significand c := by
    have hhalf : (0 : ℚ) < 2 ^ binary32.scale c / 2 := by positivity
    have hunit := value_mul_one 1 e (binary32.scale c)
    have hpower : (0 : ℚ) < Decimal.power (-e).toNat := by exact_mod_cast Decimal.power_pos _
    rw [Decimal.value_eq_div, Nat.one_mul, Nat.cast_one, one_mul] at hunit
    have hover : ((Decimal.scaled (binary32.units c) binary32.one e).1 : ℚ) /
        (Decimal.scaled (binary32.units c) binary32.one e).2 =
          binary32.units c / (Decimal.power e.toNat / Decimal.power (-e).toNat * binary32.one) := by
      simp only [Decimal.scaled]
      push_cast
      rw [div_mul_eq_mul_div, div_div_eq_mul_div, mul_comm (binary32.one : ℚ)]
    rw [hover, hunit, units_eq_step, mul_div_mul_right _ _ hhalf.ne', div_mul_cancel₀ _ hstep.ne']
  have hscaled := mul_le_mul_of_nonneg_right hnear hstep.le
  rw [← abs_of_pos hstep, ← abs_mul, abs_of_pos hstep, sub_mul, hquot] at hscaled
  linarith

/-- **A candidate far from its magnitude is on a coarse grid.** -/
theorem two_sub_le_step {D : Decimal} (hodd : c % 2 = 1) (hc : c < binary32.infinity)
    (h : binary32.candidate? c e = some D)
    (hfar : 1 - 1 / 2 ^ 29 ≤
      |D.coefficient * step (binary32.scale c) e - 2 * binary32.significand c|) :
    2 - 1 / 2 ^ 28 ≤ step (binary32.scale c) e := by
  have hnearest := abs_nearest_sub_le c e
  simp only [FloatFormat.candidate?, Option.map_eq_some_iff] at h
  obtain ⟨d, hfind, rfl⟩ := h
  rw [List.find?_cons] at hfind
  split at hfind
  · obtain rfl := Option.some.inj hfind
    linarith
  · rename_i hskip
    have hnot := mt (ofDecimal_eq_iff_of_odd hodd hc).2 (by simpa using hskip)
    linarith [not_lt.1 hnot]

end

/-! ## What is written is read back -/

/-- The shortest decimal has the value of a candidate, or that of the magnitude itself. -/
theorem exists_value_shortest (f : FloatFormat) (c : ℕ) :
    ∃ D : Decimal, Decimal.value D.coefficient D.exponent =
        Decimal.value (f.shortest c).coefficient (f.shortest c).exponent ∧
      ((∃ e, f.candidate? c e = some D) ∨ D = f.exactDecimal c) := by
  refine ⟨_, (Decimal.value_strip _ _).symm, ?_⟩
  rcases h : (List.range f.enoughDigits).findSome? fun (n : Nat) =>
      f.candidate? c (Decimal.leadExponent (f.units c) f.one - n) with - | D
  · exact .inr rfl
  · obtain ⟨n, -, hn⟩ := List.exists_of_findSome?_eq_some h
    exact .inl ⟨_, hn⟩

theorem exponent_candidate? {f : FloatFormat} {c : ℕ} {e : ℤ} {D : Decimal}
    (h : f.candidate? c e = some D) : D.exponent = e := by
  simp only [FloatFormat.candidate?, Option.map_eq_some_iff] at h
  obtain ⟨d, -, rfl⟩ := h
  rfl

/-- The value of the exact decimal of a magnitude, in units. -/
theorem value_exactDecimal_mul_one (f : FloatFormat) (c : ℕ) :
    Decimal.value (f.exactDecimal c).coefficient (f.exactDecimal c).exponent * f.one =
      f.units c := by
  have hten : (10 : ℚ) ^ f.unitShift ≠ 0 := by positivity
  have hsplit : (5 : ℚ) ^ f.unitShift * 2 ^ f.unitShift = 10 ^ f.unitShift := by
    rw [← mul_pow]
    norm_num
  have hfive : (Nat.pow 5 f.unitShift : ℕ) = 5 ^ f.unitShift := rfl
  rw [Decimal.value, FloatFormat.exactDecimal, hfive, f.one_eq, zpow_neg, zpow_natCast]
  push_cast
  rw [mul_right_comm, mul_assoc (f.units c : ℚ), hsplit, mul_assoc, mul_inv_cancel₀ hten, mul_one]

/-- Decimals of one value are read alike. -/
theorem FloatFormat.ofDecimal_congr {f : FloatFormat} (hbits : 0 < f.fractionBits)
    (hlarge : f.units f.infinity ≤ 20 ^ f.unitShift) {d d' : ℕ} {e e' : ℤ}
    (h : Decimal.value d e = Decimal.value d' e') : f.ofDecimal d e = f.ofDecimal d' e' := by
  rw [ofDecimal_eq hbits hlarge, ofDecimal_eq hbits hlarge]
  apply roundUnits_congr hbits (Decimal.power_pos _) (Decimal.power_pos _)
  rw [ratio_eq_value, ratio_eq_value, h]

/-- **The shortest decimal is read back** in the format that it was written for. -/
theorem ofDecimal_of_value_eq {f : FloatFormat} (hbits : 0 < f.fractionBits)
    (hlarge : f.units f.infinity ≤ 20 ^ f.unitShift) {c d : ℕ} {e : ℤ} (hc : c < f.infinity)
    (h : Decimal.value d e =
      Decimal.value (f.shortest c).coefficient (f.shortest c).exponent) :
    f.ofDecimal d e = c := by
  obtain ⟨D, hvalue, ⟨e', hD⟩ | rfl⟩ := exists_value_shortest f c
  · rw [FloatFormat.ofDecimal_congr hbits hlarge (h.trans hvalue.symm)]
    exact f.ofDecimal_candidate? hD
  · have hunits := value_exactDecimal_mul_one f c
    rw [hvalue, ← h, ← f.ratio_eq_value] at hunits
    rw [FloatFormat.ofDecimal_eq hbits hlarge]
    exact (FloatFormat.roundUnits_units hbits (Decimal.power_pos _) hunits).trans
      (Nat.min_eq_left hc.le)

/-- **The code of the magnitude that is not read back.** -/
def lostCode : ℕ := 0x15AE43FD

theorem lostCode_lt : lostCode < binary32.infinity := by decide +kernel

theorem shortest_lostCode : binary32.shortest lostCode = ⟨7038531, -32⟩ := by decide +kernel

/-- The code that is not read back is followed by the one that is read in its place. -/
theorem narrow_shortest_lostCode {d : ℕ} {e : ℤ} (h : Decimal.value d e =
    Decimal.value (binary32.shortest lostCode).coefficient
      (binary32.shortest lostCode).exponent) :
    binary32.roundRatio (binary64.units (binary64.ofDecimal d e)) binary64.one = lostCode + 1 := by
  rw [FloatFormat.ofDecimal_congr fractionBits_binary64_pos units_infinity_binary64_le h,
    shortest_lostCode]
  decide +kernel

variable {b c d : ℕ} {e : ℤ}

/-- In halves of the step of magnitudes, a decimal that is read as a middle is near to it. -/
theorem abs_sub_le_of_mid (hb : b < binary32.infinity)
    (hmid : (binary64.units (binary64.ofDecimal d e) : ℚ) / gapWeight = binary32.mid b) :
    |d * step (binary32.scale b) e - (2 * binary32.significand b + 1 : ℕ)| ≤ 1 / 2 ^ 29 := by
  have hhalf : (0 : ℚ) < 2 ^ binary32.scale b / 2 := by positivity
  rw [FloatFormat.ofDecimal_eq fractionBits_binary64_pos units_infinity_binary64_le] at hmid
  have hle := abs_sub_mid_le (Decimal.power_pos _) hb hmid
  rw [binary32.ratio_eq_value, value_mul_one _ _ (binary32.scale b), mid_eq_step, ← sub_mul,
    abs_mul, abs_of_pos hhalf] at hle
  push_cast
  refine le_of_mul_le_mul_right (hle.trans_eq ?_) hhalf
  ring

/-- A shortest decimal far from its magnitude is a candidate, and so on a coarse grid. -/
theorem two_sub_le_step_of_far {D : Decimal} (hodd : c % 2 = 1) (hc : c < binary32.infinity)
    (hD : (∃ e, binary32.candidate? c e = some D) ∨ D = binary32.exactDecimal c)
    (hfar : 1 - 1 / 2 ^ 29 ≤ |D.coefficient * step (binary32.scale c) D.exponent -
      2 * binary32.significand c|) :
    2 - 1 / 2 ^ 28 ≤ step (binary32.scale c) D.exponent := by
  obtain ⟨e, he⟩ | rfl := hD
  · obtain rfl := exponent_candidate? he
    exact two_sub_le_step hodd hc he hfar
  · have hhalf : (0 : ℚ) < 2 ^ binary32.scale c / 2 := by positivity
    have hunits := value_exactDecimal_mul_one binary32 c
    rw [value_mul_one _ _ (binary32.scale c), units_eq_step] at hunits
    have hexact := mul_right_cancel₀ hhalf.ne' hunits
    rw [hexact, sub_self, abs_zero] at hfar
    norm_num at hfar

/-- **A shortest decimal near a middle**: if the number of eight octets nearest to it is a middle
next to an odd code, the code is the one that is not read back. -/
theorem eq_lostCode_of_mid (hc : c < binary32.infinity) (hodd : c % 2 = 1)
    (h : Decimal.value d e =
      Decimal.value (binary32.shortest c).coefficient (binary32.shortest c).exponent)
    (hb : b = c ∨ b + 1 = c)
    (hmid : (binary64.units (binary64.ofDecimal d e) : ℚ) / gapWeight = binary32.mid b) :
    c = lostCode := by
  obtain ⟨hscale, hside⟩ : binary32.scale b = binary32.scale c ∧
      ((binary32.significand b : ℚ) = binary32.significand c ∨
        (binary32.significand c : ℚ) = binary32.significand b + 1) := by
    rcases hb with rfl | rfl
    · exact ⟨rfl, .inl rfl⟩
    · obtain ⟨hscale, hsig⟩ := FloatFormat.scale_of_odd (f := binary32) (by decide) hodd
      exact ⟨hscale.symm, .inr (by rw [hsig]; push_cast; rfl)⟩
  obtain ⟨D, hvalue, hD⟩ := exists_value_shortest binary32 c
  -- The decimal is read as the magnitude, so it is less than half a step away from it, and it is
  -- near the middle, so it is almost half a step away.
  have hread : |D.coefficient * step (binary32.scale c) D.exponent -
      2 * binary32.significand c| < 1 := by
    apply (ofDecimal_eq_iff_of_odd hodd hc).1
    exact ofDecimal_of_value_eq fractionBits_binary32_pos units_infinity_binary32_le hc hvalue
  have hnear : |D.coefficient * step (binary32.scale c) D.exponent -
      (2 * binary32.significand b + 1 : ℕ)| ≤ 1 / 2 ^ 29 := by
    rw [FloatFormat.ofDecimal_congr fractionBits_binary64_pos units_infinity_binary64_le
      (h.trans hvalue.symm)] at hmid
    rw [← hscale]
    exact abs_sub_le_of_mid (by omega) hmid
  have hfar : 1 - 1 / 2 ^ 29 ≤ |D.coefficient * step (binary32.scale c) D.exponent -
      2 * binary32.significand c| := by
    push_cast at hnear
    have hbounds := abs_le.1 hnear
    rcases hside with hsig | hsig
    · rw [hsig] at hbounds
      exact le_abs.2 (.inl (by linarith))
    · exact le_abs.2 (.inr (by linarith))
  have hcoarse := two_sub_le_step_of_far hodd hc hD hfar
  have hne : D.coefficient * step (binary32.scale c) D.exponent ≠
      (2 * binary32.significand b + 1 : ℕ) := by
    intro heq
    push_cast at heq
    have hbounds := abs_lt.1 hread
    rcases hside with hsig | hsig <;> linarith
  have hpos : 0 < D.coefficient := by
    apply Nat.pos_of_ne_zero
    intro hzero
    rw [hzero, Nat.cast_zero, zero_mul, zero_sub, abs_neg] at hnear
    push_cast at hnear
    have hnonneg : (0 : ℚ) ≤ binary32.significand b := Nat.cast_nonneg _
    rw [abs_of_pos (by linarith)] at hnear
    norm_num at hnear
    linarith
  have hsig := binary32.significand_lt b
  rw [lead_binary32] at hsig
  obtain ⟨hs, -, -, hm⟩ := NearMiss.eq_of_near (scale_binary32_lt hc) hpos (by omega) hcoarse
    hnear hne
  have hcode := binary32.scale_mul_lead_add_significand b
  have hlost : lostCode = 42 * 2 ^ 23 + 11420669 := rfl
  rw [hscale, hs, lead_binary32] at hcode
  omega

/-- **Which shortest decimals lead back** over a number of eight octets: all but one. -/
theorem narrow_shortest_iff (hc : c < binary32.infinity) (h : Decimal.value d e =
    Decimal.value (binary32.shortest c).coefficient (binary32.shortest c).exponent) :
    binary32.roundRatio (binary64.units (binary64.ofDecimal d e)) binary64.one = c ↔
      c ≠ lostCode := by
  have hround := ofDecimal_of_value_eq fractionBits_binary32_pos units_infinity_binary32_le hc h
  rw [FloatFormat.ofDecimal_eq fractionBits_binary32_pos units_infinity_binary32_le] at hround
  constructor
  · rintro hback rfl
    rw [narrow_shortest_lostCode h] at hback
    exact absurd hback (Nat.succ_ne_self _)
  · intro hne
    rw [FloatFormat.ofDecimal_eq fractionBits_binary64_pos units_infinity_binary64_le,
      roundRatio_roundRatio (Decimal.power_pos _) hc hround]
    rintro ⟨hodd, b, hb, hmid⟩
    rw [← FloatFormat.ofDecimal_eq fractionBits_binary64_pos units_infinity_binary64_le] at hmid
    exact hne (eq_lostCode_of_mid hc hodd h hb hmid)

/-- What is read from a shortest decimal is finite. -/
theorem ofDecimal_shortest_lt (hc : c < binary32.infinity) (h : Decimal.value d e =
    Decimal.value (binary32.shortest c).coefficient (binary32.shortest c).exponent) :
    binary64.ofDecimal d e < binary64.infinity := by
  have hround := ofDecimal_of_value_eq fractionBits_binary32_pos units_infinity_binary32_le hc h
  rw [FloatFormat.ofDecimal_eq fractionBits_binary32_pos units_infinity_binary32_le] at hround
  rw [FloatFormat.ofDecimal_eq fractionBits_binary64_pos units_infinity_binary64_le]
  have hle := (units_roundRatio_mem (Decimal.power_pos _) hc hround).1
  refine lt_infinity_binary64 (mul_div_cancel₀ _ gapWeight_pos.ne').symm
    (hle.trans ((binary32.mid_lt_units c).le.trans ?_))
  exact_mod_cast binary32.units_strictMono.monotone (Nat.succ_le_of_lt hc)

end WordVectors
