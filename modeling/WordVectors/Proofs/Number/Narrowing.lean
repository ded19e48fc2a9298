import WordVectors.Number.Binary
import WordVectors.Proofs.Number.Rounding

/-!
# Rounding twice

A quotient that is rounded to eight octets and then to four is mostly what it is when it is rounded
to four at once. The middle between two magnitudes of four octets is a magnitude of eight, so the
first rounding does not lead past it. It may lead to it, and then the second rounding goes to the
even code, whatever side the quotient was on.

## Main definitions

* `gapWeight`: the units of eight octets in one unit of four
* `Binary64.code`, `Binary32.code`: the code of the magnitude of a number
* `Binary64.isFinite`: whether a number is finite

## Main results

* `FloatFormat.datum_pattern`: what the bit pattern of a sign and a magnitude stands for
* `FloatFormat.exists_units_eq`: a short multiple of a power of two is a magnitude
* `Binary64.narrow_ofPattern`: a finite number is narrowed by rounding its magnitude
* `roundRatio_roundRatio`: when rounding twice is rounding once
* `abs_sub_mid_le`: how near to a middle a quotient is that is rounded to it
-/

namespace WordVectors

namespace FloatFormat

variable (f : FloatFormat)

/-! ## Bit patterns -/

theorem signWeight_eq : f.signWeight = 2 ^ f.exponentBits * f.lead := by
  rw [signWeight, Nat.one_shiftLeft, lead_eq, ← pow_add, Nat.add_comm]

theorem infinity_lt_signWeight : f.infinity < f.signWeight := by
  have hpos := f.lead_pos
  have hexp : 0 < 2 ^ f.exponentBits := by positivity
  rw [infinity, signWeight_eq, Nat.one_shiftLeft]
  exact Nat.mul_lt_mul_of_pos_right (by omega) hpos

variable {f} {code : ℕ}

theorem isNegative_pattern (negative : Bool) (h : code < f.signWeight) :
    f.isNegative (f.pattern negative code) = negative := by
  cases negative
  · rw [pattern, if_neg Bool.false_ne_true, isNegative, decide_eq_false_iff_not]
    omega
  · rw [pattern, if_pos rfl, isNegative, decide_eq_true_eq]
    omega

theorem magnitude_pattern (negative : Bool) (h : code < f.signWeight) :
    f.magnitude (f.pattern negative code) = code := by
  cases negative
  · rw [pattern, if_neg Bool.false_ne_true, magnitude, Nat.mod_eq_of_lt h]
  · rw [pattern, if_pos rfl, magnitude, Nat.add_mod_left, Nat.mod_eq_of_lt h]

theorem pattern_isNegative_magnitude {bits : ℕ} (h : bits < 2 * f.signWeight) :
    f.pattern (f.isNegative bits) (f.magnitude bits) = bits := by
  rw [pattern, isNegative, magnitude]
  by_cases hsign : f.signWeight ≤ bits
  · rw [if_pos (decide_eq_true hsign), Nat.mod_eq_sub_mod hsign, Nat.mod_eq_of_lt (by omega)]
    omega
  · rw [if_neg (by simpa using hsign), Nat.mod_eq_of_lt (by omega)]

theorem pattern_lt (negative : Bool) (h : code < f.signWeight) :
    f.pattern negative code < 2 * f.signWeight := by
  rw [pattern]
  split <;> omega

/-- **What the bit pattern of a sign and a magnitude stands for.** -/
theorem datum_pattern (negative : Bool) (h : code < f.infinity) :
    f.datum (f.pattern negative code) = .finite negative (f.units code) := by
  have hsign := Nat.lt_trans h f.infinity_lt_signWeight
  simp only [datum, isNegative_pattern negative hsign, magnitude_pattern negative hsign]
  rw [if_neg (by omega), if_neg (by omega)]

theorem datum_pattern_infinity (negative : Bool) :
    f.datum (f.pattern negative f.infinity) = .infinite negative := by
  simp only [datum, isNegative_pattern negative f.infinity_lt_signWeight,
    magnitude_pattern negative f.infinity_lt_signWeight, Nat.lt_irrefl, if_false, if_true]

/-! ## Short multiples of powers of two -/

/-- **A short multiple of a power of two is a magnitude.** -/
theorem exists_units_eq {n : ℕ} (hn : n ≤ 2 * f.lead) (s : ℕ) : ∃ c, f.units c = n * 2 ^ s := by
  induction s generalizing n with
  | zero => exact ⟨_, f.units_code hn (.inl rfl)⟩
  | succ s ih =>
    rcases Nat.lt_or_ge n f.lead with hlt | hge
    · obtain ⟨c, hc⟩ := ih (n := 2 * n) (by omega)
      exact ⟨c, by rw [hc, pow_succ]; ring⟩
    · exact ⟨_, f.units_code hn (.inr hge)⟩

/-- Twice the middle behind a magnitude is an odd multiple of its step. -/
theorem two_mul_mid (c : ℕ) : 2 * f.mid c = (2 * f.significand c + 1 : ℕ) * 2 ^ f.scale c := by
  rw [mid_eq_add, units_eq]
  push_cast
  ring

end FloatFormat

open FloatFormat (binary32 binary64)

/-! ## From four octets to eight -/

/-- The units of eight octets in one unit of four. -/
def gapWeight : ℕ := 2 ^ 925

theorem gapWeight_pos : (0 : ℚ) < gapWeight := by
  rw [gapWeight, Nat.cast_pow]
  positivity

theorem one_binary64 : binary64.one = gapWeight * binary32.one := by
  have hshift : binary64.unitShift = 925 + binary32.unitShift := rfl
  rw [FloatFormat.one, FloatFormat.one, Nat.one_shiftLeft, Nat.one_shiftLeft, gapWeight, hshift,
    pow_add]

theorem one_binary32_pos : 0 < binary32.one := by
  rw [FloatFormat.one, Nat.one_shiftLeft]
  exact Nat.two_pow_pos _

theorem one_binary64_pos : 0 < binary64.one := by
  rw [FloatFormat.one, Nat.one_shiftLeft]
  exact Nat.two_pow_pos _

theorem lead_binary32 : binary32.lead = 2 ^ 23 := rfl

theorem lead_binary64 : binary64.lead = 2 ^ 52 := rfl

theorem infinity_binary32 : binary32.infinity = 255 * binary32.lead := rfl

theorem signWeight_binary32 : 2 * binary32.signWeight = 2 ^ 32 := rfl

theorem signWeight_binary64 : 2 * binary64.signWeight = 2 ^ 64 := rfl

theorem fractionBits_binary32_pos : 0 < binary32.fractionBits := by decide

theorem fractionBits_binary64_pos : 0 < binary64.fractionBits := by decide

/-- A quotient in units of eight octets. -/
theorem ratio_binary64 (num den : ℕ) : ((num * binary64.one : ℕ) : ℚ) / den =
    gapWeight * (((num * binary32.one : ℕ) : ℚ) / den) := by
  rw [one_binary64]
  push_cast
  ring

/-- A magnitude of eight octets in units of four. -/
theorem units_ratio_binary32 (w : ℕ) :
    ((binary64.units w * binary32.one : ℕ) : ℚ) / binary64.one =
      (binary64.units w : ℚ) / gapWeight := by
  have hone : (binary32.one : ℚ) ≠ 0 := by exact_mod_cast one_binary32_pos.ne'
  rw [one_binary64]
  push_cast
  exact mul_div_mul_right _ _ hone

/-- The scale of a finite magnitude of four octets. -/
theorem scale_binary32_lt {c : ℕ} (h : c < binary32.infinity) : binary32.scale c < 254 := by
  rw [infinity_binary32, Nat.mul_comm] at h
  have hdiv : c / binary32.lead < 255 := Nat.div_lt_of_lt_mul h
  rw [FloatFormat.scale]
  omega

/-- What is below infinity in four octets is below infinity in eight. -/
theorem lt_infinity_binary64 {w : ℕ} {x : ℚ} (hw : (binary64.units w : ℚ) = gapWeight * x)
    (hx : x ≤ binary32.units binary32.infinity) : w < binary64.infinity := by
  have hlt : gapWeight * binary32.units binary32.infinity < binary64.units binary64.infinity := by
    decide +kernel
  have hle : (binary64.units w : ℚ) ≤ (gapWeight * binary32.units binary32.infinity : ℕ) := by
    push_cast
    rw [hw]
    exact mul_le_mul_of_nonneg_left hx gapWeight_pos.le
  exact binary64.units_strictMono.lt_iff_lt.1 (Nat.lt_of_le_of_lt (by exact_mod_cast hle) hlt)

/-- **The middle between two magnitudes of four octets is a magnitude of eight.** -/
theorem exists_units_eq_mid {c : ℕ} (h : c < binary32.infinity) :
    ∃ m, m < binary64.infinity ∧ (binary64.units m : ℚ) = gapWeight * binary32.mid c := by
  have hsig := binary32.significand_lt c
  have hlead : 2 * (2 * binary32.lead) + 1 ≤ 2 * binary64.lead := by
    rw [lead_binary32, lead_binary64]
    norm_num
  obtain ⟨m, hm⟩ := binary64.exists_units_eq (n := 2 * binary32.significand c + 1) (by omega)
    (binary32.scale c + 924)
  have hmid : (binary64.units m : ℚ) = gapWeight * binary32.mid c := by
    have htwo := binary32.two_mul_mid c
    have hweight : (gapWeight : ℚ) = 2 ^ 924 * 2 := by
      rw [gapWeight, Nat.cast_pow, Nat.cast_ofNat]
      exact pow_succ 2 924
    rw [hm, hweight, mul_assoc, htwo, Nat.cast_mul, Nat.cast_pow, Nat.cast_ofNat, pow_add]
    generalize (2 : ℚ) ^ 924 = weight
    ring
  refine ⟨m, lt_infinity_binary64 hmid ?_, hmid⟩
  have hnext := binary32.units_strictMono.monotone (Nat.succ_le_of_lt h)
  exact (binary32.mid_lt_units c).le.trans (by exact_mod_cast hnext)

/-! ## Numbers and their patterns -/

theorem Binary64.pattern_ofPattern {n : ℕ} (h : n < 2 * binary64.signWeight) :
    (Binary64.ofPattern n).pattern = n := by
  rw [signWeight_binary64] at h
  exact Nat.mod_eq_of_lt h

theorem Binary32.pattern_ofPattern {n : ℕ} (h : n < 2 * binary32.signWeight) :
    (Binary32.ofPattern n).pattern = n := by
  rw [signWeight_binary32] at h
  exact Nat.mod_eq_of_lt h

namespace Binary64

theorem pattern_lt (x : Binary64) : x.pattern < 2 * binary64.signWeight := by
  rw [signWeight_binary64]
  exact x.bits.toNat_lt

/-- The code of the magnitude of a number. -/
def code (x : Binary64) : ℕ := format.magnitude x.pattern

/-- A number is that of its sign and its magnitude. -/
theorem ofPattern_code (x : Binary64) :
    ofPattern (format.pattern (format.isNegative x.pattern) x.code) = x := by
  rw [code, FloatFormat.pattern_isNegative_magnitude x.pattern_lt, ofPattern, pattern,
    UInt64.ofNat_toNat]

/-- Whether a number is finite. -/
def isFinite (x : Binary64) : Bool := x.code < format.infinity

end Binary64

namespace Binary32

theorem pattern_lt (x : Binary32) : x.pattern < 2 * binary32.signWeight := by
  rw [signWeight_binary32]
  exact x.bits.toNat_lt

theorem ofPattern_pattern (x : Binary32) : ofPattern x.pattern = x := by
  rw [ofPattern, pattern, UInt32.ofNat_toNat]

/-- The code of the magnitude of a number. -/
def code (x : Binary32) : ℕ := format.magnitude x.pattern

/-- A number is that of its sign and its magnitude. -/
theorem ofPattern_code (x : Binary32) :
    ofPattern (format.pattern (format.isNegative x.pattern) x.code) = x := by
  rw [code, FloatFormat.pattern_isNegative_magnitude x.pattern_lt, ofPattern_pattern]

/-- Numbers of one sign are told apart by their magnitudes. -/
theorem ofPattern_eq_iff {negative : Bool} {c d : ℕ} (hc : c < binary32.signWeight)
    (hd : d < binary32.signWeight) :
    ofPattern (format.pattern negative c) = ofPattern (format.pattern negative d) ↔ c = d := by
  constructor
  · intro h
    have hpattern := congrArg pattern h
    rw [pattern_ofPattern (FloatFormat.pattern_lt negative hc),
      pattern_ofPattern (FloatFormat.pattern_lt negative hd)] at hpattern
    rw [← FloatFormat.magnitude_pattern negative hc, hpattern,
      FloatFormat.magnitude_pattern negative hd]
  · rintro rfl
    rfl

end Binary32

/-- A finite number of eight octets is narrowed by rounding its magnitude. -/
theorem Binary64.narrow_ofPattern (negative : Bool) {w : ℕ} (hw : w < binary64.infinity) :
    (ofPattern (format.pattern negative w)).narrow =
      .ofPattern (binary32.pattern negative (binary32.roundRatio (binary64.units w)
        binary64.one)) := by
  have hlt := FloatFormat.pattern_lt negative (Nat.lt_trans hw binary64.infinity_lt_signWeight)
  have hdatum : (ofPattern (format.pattern negative w)).datum =
      .finite negative (binary64.units w) := by
    rw [datum, pattern_ofPattern hlt, FloatFormat.datum_pattern negative hw]
  rw [narrow, hdatum]
  rfl

theorem Binary64.narrow_infinity (negative : Bool) :
    (ofPattern (format.pattern negative format.infinity)).narrow =
      .ofPattern (binary32.pattern negative binary32.infinity) := by
  have hlt := FloatFormat.pattern_lt negative binary64.infinity_lt_signWeight
  rw [narrow, datum, format, pattern_ofPattern hlt, FloatFormat.datum_pattern_infinity]
  rfl

theorem Binary64.narrow_quietNaN :
    (ofPattern (format.pattern false format.quietNaN)).narrow =
      .ofPattern binary32.quietNaN := by
  decide +kernel

/-! ## Rounding twice -/

section

variable {num den c : ℕ} (hden : 0 < den) (hc : c < binary32.infinity)
  (h : binary32.roundRatio num den = c)
include hden hc h

/-- The first rounding does not lead past the middles around what the quotient is rounded to. -/
theorem units_roundRatio_mem :
    (binary64.units (binary64.roundRatio num den) : ℚ) / gapWeight ≤ binary32.mid c ∧
      ∀ b, b + 1 = c →
        binary32.mid b ≤ (binary64.units (binary64.roundRatio num den) : ℚ) / gapWeight := by
  have hweight := gapWeight_pos
  constructor
  · obtain ⟨m, hm, hmid⟩ := exists_units_eq_mid hc
    have hle : binary64.roundRatio num den ≤ m := by
      apply FloatFormat.roundUnits_le fractionBits_binary64_pos hden
      rw [ratio_binary64, hmid]
      exact mul_le_mul_of_nonneg_left (FloatFormat.le_mid_of_roundUnits
        fractionBits_binary32_pos hden hc h).1 hweight.le
    rw [div_le_iff₀ hweight, mul_comm, ← hmid]
    exact_mod_cast binary64.units_strictMono.monotone hle
  · rintro b rfl
    obtain ⟨m, hm, hmid⟩ := exists_units_eq_mid (Nat.lt_of_succ_lt hc)
    have hle : m ≤ binary64.roundRatio num den := by
      apply FloatFormat.le_roundUnits fractionBits_binary64_pos hden hm.le
      rw [ratio_binary64, hmid]
      exact mul_le_mul_of_nonneg_left (FloatFormat.mid_le_of_roundUnits
        fractionBits_binary32_pos hden hc h).1 hweight.le
    rw [le_div_iff₀ hweight, mul_comm, ← hmid]
    exact_mod_cast binary64.units_strictMono.monotone hle

/-- **When rounding twice is rounding once**: unless the code is odd and the first rounding leads
to a middle next to it. -/
theorem roundRatio_roundRatio :
    binary32.roundRatio (binary64.units (binary64.roundRatio num den)) binary64.one = c ↔
      ¬ (c % 2 = 1 ∧ ∃ b, (b = c ∨ b + 1 = c) ∧
        (binary64.units (binary64.roundRatio num den) : ℚ) / gapWeight = binary32.mid b) := by
  obtain ⟨hupper, hlower⟩ := units_roundRatio_mem hden hc h
  have hratio := units_ratio_binary32 (binary64.roundRatio num den)
  have hbits := fractionBits_binary32_pos
  have hone := one_binary64_pos
  -- From a middle, the second rounding goes to the even code.
  have heven : ∀ b, (binary64.units (binary64.roundRatio num den) : ℚ) / gapWeight =
      binary32.mid b → binary32.roundRatio (binary64.units (binary64.roundRatio num den))
        binary64.one = min (b + b % 2) binary32.infinity := fun b hb =>
    FloatFormat.roundUnits_mid hbits hone (hratio.trans hb)
  constructor
  · rintro hround ⟨hodd, b, hb, hmid⟩
    rw [heven b hmid] at hround
    omega
  · intro hnot
    by_cases hmid : ∃ b, (b = c ∨ b + 1 = c) ∧
        (binary64.units (binary64.roundRatio num den) : ℚ) / gapWeight = binary32.mid b
    · have hc_even : c % 2 ≠ 1 := fun hodd => hnot ⟨hodd, hmid⟩
      obtain ⟨b, hb, hmid⟩ := hmid
      rw [heven b hmid]
      omega
    · have hround : binary32.roundRatio (binary64.units (binary64.roundRatio num den))
          binary64.one = min c binary32.infinity := by
        apply FloatFormat.roundUnits_eq_of_mid hbits hone
        · intro b hb
          rw [hratio]
          exact lt_of_le_of_ne (hlower b hb) fun heq => hmid ⟨b, .inr hb, heq.symm⟩
        · rw [hratio]
          exact lt_of_le_of_ne hupper fun heq => hmid ⟨c, .inl rfl, heq⟩
      rw [hround]
      omega

end

/-! ## Near a middle -/

/-- The step at a finite magnitude is short beside it, unless it is the least step. -/
theorem FloatFormat.lead_mul_step_le (f : FloatFormat) {c : ℕ} (h : 0 < f.scale c) :
    f.lead * 2 ^ f.scale c ≤ f.units c := by
  rw [f.units_eq]
  exact Nat.mul_le_mul_right _ (f.lead_le_significand (f.lead_le_of_scale_pos h))

/-- The step of eight octets at a middle between two magnitudes of four. -/
theorem scale_le_of_units_eq_mid {b w : ℕ}
    (hw : (binary64.units w : ℚ) = gapWeight * binary32.mid b) :
    binary64.scale w ≤ binary32.scale b + 896 := by
  rcases Nat.eq_zero_or_pos (binary64.scale w) with hzero | hpos
  · omega
  · have hsig : 2 * binary32.significand b + 1 < 2 ^ 25 := by
      have hlt := binary32.significand_lt b
      rw [lead_binary32] at hlt
      omega
    have htwo : 2 * binary64.units w =
        gapWeight * ((2 * binary32.significand b + 1) * 2 ^ binary32.scale b) := by
      have hmid := binary32.two_mul_mid b
      have hcast : (2 * binary64.units w : ℚ) =
          gapWeight * ((2 * binary32.significand b + 1 : ℕ) * 2 ^ binary32.scale b) := by
        rw [hw, ← hmid]
        ring
      exact_mod_cast hcast
    have hle := binary64.lead_mul_step_le hpos
    rw [FloatFormat.lead_eq, ← pow_add] at hle
    have hlt : 2 * 2 ^ (binary64.fractionBits + binary64.scale w) <
        2 ^ (950 + binary32.scale b) := by
      calc 2 * 2 ^ (binary64.fractionBits + binary64.scale w) ≤ 2 * binary64.units w :=
            Nat.mul_le_mul_left 2 hle
        _ = gapWeight * ((2 * binary32.significand b + 1) * 2 ^ binary32.scale b) := htwo
        _ < gapWeight * (2 ^ 25 * 2 ^ binary32.scale b) :=
            Nat.mul_lt_mul_of_pos_left
              (Nat.mul_lt_mul_of_pos_right hsig (Nat.two_pow_pos _))
              (Nat.cast_pos.1 gapWeight_pos)
        _ = 2 ^ (950 + binary32.scale b) := by
          rw [gapWeight, ← pow_add, ← pow_add, ← Nat.add_assoc]
    rw [← pow_succ'] at hlt
    have hexp := (Nat.pow_lt_pow_iff_right (by decide)).1 hlt
    have hbits : binary64.fractionBits = 52 := rfl
    omega

/-- **How near to a middle a quotient is that is rounded to it** in eight octets. -/
theorem abs_sub_mid_le {num den b : ℕ} (hden : 0 < den) (hb : b < binary32.infinity)
    (h : (binary64.units (binary64.roundRatio num den) : ℚ) / gapWeight = binary32.mid b) :
    |((num * binary32.one : ℕ) : ℚ) / den - binary32.mid b| ≤ 2 ^ binary32.scale b / 2 ^ 30 := by
  have hweight := gapWeight_pos
  have hbits := fractionBits_binary64_pos
  have hw : (binary64.units (binary64.roundRatio num den) : ℚ) = gapWeight * binary32.mid b := by
    rw [← h]
    field_simp
  have hfinite : binary64.roundRatio num den < binary64.infinity := by
    refine lt_infinity_binary64 hw ((binary32.mid_lt_units b).le.trans ?_)
    exact_mod_cast binary32.units_strictMono.monotone (Nat.succ_le_of_lt hb)
  have hscale := scale_le_of_units_eq_mid hw
  generalize hround : binary64.roundRatio num den = w at *
  have hstep := FloatFormat.abs_sub_units_le hbits hden hfinite hround
  rw [ratio_binary64, hw, ← mul_sub, abs_mul, abs_of_pos hweight] at hstep
  have hmono : (2 : ℚ) ^ binary64.scale w ≤ 2 ^ (binary32.scale b + 896) :=
    pow_le_pow_right₀ (by norm_num) hscale
  have hsplit : (2 : ℚ) ^ (binary32.scale b + 896) / 2 =
      gapWeight * (2 ^ binary32.scale b / 2 ^ 30) := by
    have hexp : (gapWeight : ℚ) = 2 ^ 896 * 2 ^ 29 := by
      rw [gapWeight, Nat.cast_pow, Nat.cast_ofNat, ← pow_add]
    rw [hexp, pow_add]
    generalize (2 : ℚ) ^ 896 = weight
    ring
  have hbound : gapWeight * |((num * binary32.one : ℕ) : ℚ) / den - binary32.mid b| ≤
      gapWeight * (2 ^ binary32.scale b / 2 ^ 30) := by
    rw [← hsplit]
    exact hstep.trans (div_le_div_of_nonneg_right hmono (by norm_num))
  exact le_of_mul_le_mul_left hbound hweight

end WordVectors
