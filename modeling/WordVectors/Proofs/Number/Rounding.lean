import Mathlib
import WordVectors.Number.Format

/-!
# Nearest magnitudes

The codes of a format count its magnitudes in ascending order, and a quotient is rounded to the
code on the same side of the middle between two of them. What rounding gives is said here by the
codes alone: how a significand is found has no part in it.

## Main definitions

* `FloatFormat.mid`: the middle between a magnitude and the next

## Main results

* `FloatFormat.units_succ`, `FloatFormat.units_strictMono`: the magnitudes in ascending order
* `FloatFormat.roundUnits_of_floor`: how a quotient between two magnitudes is rounded
* `FloatFormat.roundUnits_eq_of_mid`: a quotient between two middles is rounded to what is there
* `FloatFormat.roundUnits_le`, `FloatFormat.le_roundUnits`: rounding keeps the order
* `FloatFormat.abs_sub_units_le`: a quotient is within half a step of what it is rounded to
-/

namespace WordVectors.FloatFormat

variable (f : FloatFormat)

/-! ## Magnitudes in ascending order -/

theorem lead_eq : f.lead = 2 ^ f.fractionBits := by
  rw [lead, Nat.one_shiftLeft]

theorem lead_pos : 0 < f.lead := by
  rw [lead_eq]
  positivity

/-- A code is that of its significand at its scale. -/
theorem scale_mul_lead_add_significand (c : ℕ) : f.scale c * f.lead + f.significand c = c := by
  have hpos := f.lead_pos
  by_cases h : c < f.lead
  · rw [scale, significand, if_pos h, Nat.div_eq_of_lt h, Nat.zero_sub, Nat.zero_mul, Nat.zero_add]
  · have hdiv : 1 ≤ c / f.lead := (Nat.one_le_div_iff hpos).2 (Nat.le_of_not_lt h)
    have hcode := Nat.div_add_mod' c f.lead
    rw [scale, significand, if_neg h, ← Nat.add_assoc, ← Nat.succ_mul, Nat.succ_eq_add_one,
      Nat.sub_add_cancel hdiv, hcode]

theorem units_eq (c : ℕ) : f.units c = f.significand c * 2 ^ f.scale c := by
  rw [units, Nat.shiftLeft_eq]

theorem significand_lt (c : ℕ) : f.significand c < 2 * f.lead := by
  have hpos := f.lead_pos
  have hmod := Nat.mod_lt c hpos
  rw [significand]
  split <;> omega

theorem lead_le_significand {c : ℕ} (h : f.lead ≤ c) : f.lead ≤ f.significand c := by
  rw [significand, if_neg (Nat.not_lt.2 h)]
  exact Nat.le_add_right _ _

theorem lead_le_of_scale_pos {c : ℕ} (h : 0 < f.scale c) : f.lead ≤ c := by
  by_contra hlt
  rw [scale, Nat.div_eq_of_lt (Nat.not_le.1 hlt)] at h
  exact absurd h (Nat.lt_irrefl 0)

/-- The units of a significand at a scale. A significand of twice the leading bit is the leading
bit at the next scale. -/
theorem units_code {s n : ℕ} (hn : n ≤ 2 * f.lead) (h : s = 0 ∨ f.lead ≤ n) :
    f.units (s * f.lead + n) = n * 2 ^ s := by
  have hpos := f.lead_pos
  rw [units_eq]
  rcases Nat.lt_or_ge n f.lead with hlt | hge
  · obtain rfl : s = 0 := h.resolve_right (Nat.not_le.2 hlt)
    rw [Nat.zero_mul, Nat.zero_add, significand, if_pos hlt, scale, Nat.div_eq_of_lt hlt]
  · rcases Nat.eq_or_lt_of_le hn with rfl | hlt
    · have hcode : s * f.lead + 2 * f.lead = (s + 2) * f.lead := (Nat.add_mul _ _ _).symm
      have hlarge : ¬ (s + 2) * f.lead < f.lead :=
        Nat.not_lt.2 (Nat.le_mul_of_pos_left _ (by omega))
      rw [hcode, significand, if_neg hlarge, Nat.mul_mod_left, scale, Nat.mul_div_cancel _ hpos,
        Nat.add_zero, Nat.add_sub_assoc (by decide), pow_succ]
      ring
    · have hcode : s * f.lead + n = (n - f.lead) + (s + 1) * f.lead := by
        rw [Nat.succ_mul]
        omega
      have hlarge : ¬ s * f.lead + n < f.lead := by omega
      have hrest : n - f.lead < f.lead := by omega
      rw [significand, if_neg hlarge, hcode, Nat.add_mul_mod_self_right, Nat.mod_eq_of_lt hrest,
        scale, Nat.add_mul_div_right _ _ hpos, Nat.div_eq_of_lt hrest, Nat.zero_add,
        Nat.add_sub_cancel, Nat.add_sub_cancel' hge]

/-- **From one magnitude to the next** it is one step of the scale. -/
theorem units_succ (c : ℕ) : f.units (c + 1) = f.units c + 2 ^ f.scale c := by
  have hcode := f.scale_mul_lead_add_significand c
  have hlt := f.significand_lt c
  have hscale : f.scale c = 0 ∨ f.lead ≤ f.significand c + 1 := by
    rcases Nat.eq_zero_or_pos (f.scale c) with h | h
    · exact .inl h
    · exact .inr (Nat.le_succ_of_le (f.lead_le_significand (f.lead_le_of_scale_pos h)))
  have hnext := f.units_code (s := f.scale c) (n := f.significand c + 1) (by omega) hscale
  rw [← Nat.add_assoc, hcode] at hnext
  rw [hnext, units_eq, Nat.succ_mul]

theorem units_zero : f.units 0 = 0 := by
  rw [units_eq, significand, if_pos f.lead_pos, Nat.zero_mul]

/-- **Magnitudes in ascending order have ascending codes.** -/
theorem units_strictMono : StrictMono f.units := by
  apply strictMono_nat_of_lt_succ
  intro c
  have hstep : 0 < 2 ^ f.scale c := by positivity
  rw [units_succ]
  omega

theorem scale_mono {c d : ℕ} (h : c ≤ d) : f.scale c ≤ f.scale d :=
  Nat.sub_le_sub_right (Nat.div_le_div_right h) 1

/-! ## Rounding -/

/-- The scale for a whole number that has a significand as its leading bits is that of the
significand. -/
theorem scaleFor_eq {m s n : ℕ} (hm : m < 2 * f.lead) (hlead : 0 < s → f.lead ≤ m)
    (hle : m * 2 ^ s ≤ n) (hlt : n < (m + 1) * 2 ^ s) : f.scaleFor n = s := by
  have hupper : n < 2 ^ (f.fractionBits + 1 + s) := by
    calc n < (m + 1) * 2 ^ s := hlt
      _ ≤ 2 * f.lead * 2 ^ s := Nat.mul_le_mul_right _ hm
      _ = 2 ^ (f.fractionBits + 1 + s) := by rw [lead_eq, pow_add, pow_add]; ring
  rcases Nat.eq_zero_or_pos s with rfl | hpos
  · rw [scaleFor]
    by_cases hzero : n = 0
    · rw [hzero, Nat.log2_zero, Nat.zero_sub]
    · have := (Nat.log2_lt hzero).2 hupper
      omega
  · have hlower : 2 ^ (f.fractionBits + s) ≤ n := by
      calc 2 ^ (f.fractionBits + s) = f.lead * 2 ^ s := by rw [lead_eq, pow_add]
        _ ≤ m * 2 ^ s := Nat.mul_le_mul_right _ (hlead hpos)
        _ ≤ n := hle
    have hzero : n ≠ 0 := by
      have : 0 < 2 ^ (f.fractionBits + s) := by positivity
      omega
    have h₁ := (Nat.log2_lt hzero).2 hupper
    have h₂ := (Nat.le_log2 hzero).2 hlower
    rw [scaleFor]
    omega

/-- **How a quotient between two magnitudes is rounded**: down or up to the nearer, or to the even
code from the middle. -/
theorem roundUnits_of_floor (hbits : 0 < f.fractionBits) {c num den : ℕ} (hden : 0 < den)
    (hle : f.units c * den ≤ num) (hlt : num < f.units (c + 1) * den) :
    f.roundUnits num den =
      min (if 2 * num < (f.units c + f.units (c + 1)) * den then c
        else if (f.units c + f.units (c + 1)) * den < 2 * num then c + 1
        else c + c % 2) f.infinity := by
  have hcode := f.scale_mul_lead_add_significand c
  have hsig := f.significand_lt c
  rw [units_succ] at hlt ⊢
  rw [units_eq] at hle hlt ⊢
  have hscale : 0 < f.scale c → f.lead ≤ f.significand c := fun h =>
    f.lead_le_significand (f.lead_le_of_scale_pos h)
  have hfloor : f.significand c * 2 ^ f.scale c ≤ num / den ∧
      num / den < (f.significand c + 1) * 2 ^ f.scale c := by
    rw [Nat.le_div_iff_mul_le hden, Nat.div_lt_iff_lt_mul hden, Nat.succ_mul]
    exact ⟨hle, hlt⟩
  have hfor := f.scaleFor_eq hsig hscale hfloor.1 hfloor.2
  have heven : f.lead % 2 = 0 := by
    obtain ⟨n, hn⟩ := Nat.exists_eq_succ_of_ne_zero (Nat.pos_iff_ne_zero.1 hbits)
    rw [lead_eq, hn, Nat.pow_succ, Nat.mul_mod_left]
  generalize hs : f.scale c = s at *
  generalize hm : f.significand c = m at *
  have hstep : 0 < 2 ^ s := by positivity
  have hwidth : den * 2 ^ s = 2 ^ s * den := Nat.mul_comm _ _
  have hquot : num / (2 ^ s * den) = m := by
    rw [Nat.mul_comm, ← Nat.div_div_eq_div_mul]
    exact Nat.div_eq_of_lt_le hfloor.1 hfloor.2
  have hrest : num % (2 ^ s * den) = num - m * 2 ^ s * den := by
    rw [Nat.mod_eq_sub_mul_div, hquot]
    congr 1
    ring
  have hparity : m % 2 = c % 2 := by
    rw [← hcode, Nat.add_mod, Nat.mul_mod, heven, Nat.mul_zero, Nat.zero_mod, Nat.zero_add,
      Nat.mod_mod]
  have hmiddle : (m * 2 ^ s + (m * 2 ^ s + 2 ^ s)) * den = 2 * (m * 2 ^ s * den) + 2 ^ s * den := by
    ring
  rw [Nat.add_mul] at hlt
  simp only [roundUnits, hfor, code, roundHalfEven, Nat.shiftLeft_eq, hwidth, hquot, hrest,
    hmiddle, hparity]
  congr 1
  generalize m * 2 ^ s * den = low at *
  generalize 2 ^ s * den = width at *
  rcases Nat.lt_trichotomy (2 * num) (2 * low + width) with h | h | h
  · rw [if_pos (by omega), if_pos h, hcode]
  · rw [if_neg (by omega), if_neg (by omega), if_neg (by omega), if_neg (by omega), ← Nat.add_assoc,
      hcode]
  · rw [if_neg (by omega), if_pos (by omega), if_neg (by omega), if_pos h, ← Nat.add_assoc, hcode]

/-- Every quotient lies between two magnitudes, once codes are counted past infinity. -/
theorem exists_floor (num : ℕ) {den : ℕ} (hden : 0 < den) :
    ∃ c, f.units c * den ≤ num ∧ num < f.units (c + 1) * den := by
  have hlarge : ∃ c, num < f.units (c + 1) * den := by
    have hunits : num + 1 ≤ f.units (num + 1) := f.units_strictMono.le_apply
    exact ⟨num, Nat.lt_of_lt_of_le hunits (Nat.le_mul_of_pos_right _ hden)⟩
  refine ⟨Nat.find hlarge, ?_, Nat.find_spec hlarge⟩
  rcases hleast : Nat.find hlarge with - | c
  · rw [units_zero, Nat.zero_mul]
    exact Nat.zero_le _
  · exact Nat.not_lt.1 (Nat.find_min hlarge (m := c) (by omega))

/-- **The middle between a magnitude and the next**, in units. -/
def mid (c : ℕ) : ℚ := ((f.units c : ℚ) + f.units (c + 1)) / 2

/-- The middle is half a step behind the magnitude. -/
theorem mid_eq_add (c : ℕ) : f.mid c = f.units c + 2 ^ f.scale c / 2 := by
  rw [mid, units_succ]
  push_cast
  ring

/-- The middle is half a step in front of the next magnitude. -/
theorem mid_eq_sub (c : ℕ) : f.mid c = f.units (c + 1) - 2 ^ f.scale c / 2 := by
  rw [mid, units_succ]
  push_cast
  ring

theorem units_lt_mid (c : ℕ) : (f.units c : ℚ) < f.mid c := by
  rw [mid_eq_add]
  exact lt_add_of_pos_right _ (by positivity)

theorem mid_lt_units (c : ℕ) : f.mid c < f.units (c + 1) := by
  rw [mid_eq_sub]
  exact sub_lt_self _ (by positivity)

variable {f} {c num den : ℕ}

theorem le_div_iff_units (hden : 0 < den) :
    (f.units c : ℚ) ≤ num / den ↔ f.units c * den ≤ num := by
  rw [le_div_iff₀ (by exact_mod_cast hden)]
  exact_mod_cast Iff.rfl

theorem div_lt_iff_units (hden : 0 < den) :
    (num : ℚ) / den < f.units c ↔ num < f.units c * den := by
  rw [div_lt_iff₀ (by exact_mod_cast hden)]
  exact_mod_cast Iff.rfl

theorem div_lt_mid_iff (hden : 0 < den) :
    (num : ℚ) / den < f.mid c ↔ 2 * num < (f.units c + f.units (c + 1)) * den := by
  have hcast : f.mid c * den = ((f.units c + f.units (c + 1)) * den : ℕ) / 2 := by
    push_cast
    rw [mid]
    ring
  rw [div_lt_iff₀ (by exact_mod_cast hden), hcast, lt_div_iff₀ (by norm_num),
    Rat.mul_comm]
  exact_mod_cast Iff.rfl

theorem mid_lt_div_iff (hden : 0 < den) :
    f.mid c < (num : ℚ) / den ↔ (f.units c + f.units (c + 1)) * den < 2 * num := by
  have hcast : f.mid c * den = ((f.units c + f.units (c + 1)) * den : ℕ) / 2 := by
    push_cast
    rw [mid]
    ring
  rw [lt_div_iff₀ (by exact_mod_cast hden), hcast, div_lt_iff₀ (by norm_num),
    Rat.mul_comm num]
  exact_mod_cast Iff.rfl

variable (hbits : 0 < f.fractionBits) (hden : 0 < den)
include hbits hden

/-- The three ways in which a quotient is rounded, by where it lies between two magnitudes. -/
theorem roundUnits_cases (num : ℕ) :
    ∃ c, (f.units c : ℚ) ≤ num / den ∧ (num : ℚ) / den < f.units (c + 1) ∧
      ((num : ℚ) / den < f.mid c ∧ f.roundUnits num den = min c f.infinity ∨
        f.mid c < (num : ℚ) / den ∧ f.roundUnits num den = min (c + 1) f.infinity ∨
        (num : ℚ) / den = f.mid c ∧ f.roundUnits num den = min (c + c % 2) f.infinity) := by
  obtain ⟨c, hle, hlt⟩ := f.exists_floor num hden
  refine ⟨c, (le_div_iff_units hden).2 hle, (div_lt_iff_units hden).2 hlt, ?_⟩
  rw [f.roundUnits_of_floor hbits hden hle hlt]
  rcases lt_trichotomy ((num : ℚ) / den) (f.mid c) with h | h | h
  · refine .inl ⟨h, ?_⟩
    rw [if_pos ((div_lt_mid_iff hden).1 h)]
  · refine .inr (.inr ⟨h, ?_⟩)
    rw [if_neg (mt (div_lt_mid_iff hden).2 h.not_lt), if_neg (mt (mid_lt_div_iff hden).2 h.not_gt)]
  · refine .inr (.inl ⟨h, ?_⟩)
    rw [if_neg (mt (div_lt_mid_iff hden).2 h.not_gt), if_pos ((mid_lt_div_iff hden).1 h)]

/-- **A quotient between two middles is rounded to the magnitude there.** -/
theorem roundUnits_eq_of_mid (hlow : ∀ b, b + 1 = c → f.mid b < (num : ℚ) / den)
    (hhigh : (num : ℚ) / den < f.mid c) : f.roundUnits num den = min c f.infinity := by
  obtain ⟨c₀, hle, hlt, hcases⟩ := roundUnits_cases hbits hden num
  have hupper : c₀ ≤ c := by
    have h : (f.units c₀ : ℚ) < f.units (c + 1) := hle.trans_lt (hhigh.trans (f.mid_lt_units c))
    exact Nat.lt_succ_iff.1 (f.units_strictMono.lt_iff_lt.1 (by exact_mod_cast h))
  rcases Nat.eq_or_lt_of_le hupper with rfl | hless
  · rcases hcases with ⟨-, h⟩ | ⟨h, -⟩ | ⟨h, -⟩
    · exact h
    · exact absurd hhigh h.not_gt
    · exact absurd h hhigh.ne
  · obtain ⟨b, rfl⟩ : ∃ b, c = b + 1 := ⟨c - 1, by omega⟩
    have hmid := hlow b rfl
    have hlower : b ≤ c₀ := by
      have h : (f.units b : ℚ) < f.units (c₀ + 1) := (f.units_lt_mid b).trans (hmid.trans hlt)
      exact Nat.lt_succ_iff.1 (f.units_strictMono.lt_iff_lt.1 (by exact_mod_cast h))
    obtain rfl : c₀ = b := by omega
    rcases hcases with ⟨h, -⟩ | ⟨-, h⟩ | ⟨h, -⟩
    · exact absurd hmid h.not_gt
    · exact h
    · exact absurd h hmid.ne'

/-- From the middle between two magnitudes it is rounded to the even code. -/
theorem roundUnits_mid (h : (num : ℚ) / den = f.mid c) :
    f.roundUnits num den = min (c + c % 2) f.infinity := by
  have hle : (f.units c : ℚ) ≤ num / den := h ▸ (f.units_lt_mid c).le
  have hlt : (num : ℚ) / den < f.units (c + 1) := h ▸ f.mid_lt_units c
  rw [f.roundUnits_of_floor hbits hden ((le_div_iff_units hden).1 hle)
    ((div_lt_iff_units hden).1 hlt), if_neg (mt (div_lt_mid_iff hden).2 h.not_lt),
    if_neg (mt (mid_lt_div_iff hden).2 h.not_gt)]

/-- **Rounding keeps the order**: what is not above a magnitude is not rounded past it. -/
theorem roundUnits_le (h : (num : ℚ) / den ≤ f.units c) : f.roundUnits num den ≤ c := by
  rcases h.eq_or_lt with heq | hlt
  · have hround := roundUnits_eq_of_mid (f := f) (c := c) hbits hden ?_ (heq ▸ f.units_lt_mid c)
    · rw [hround]
      exact min_le_left _ _
    · rintro b rfl
      rw [heq]
      exact f.mid_lt_units b
  · obtain ⟨c₀, hle, -, hcases⟩ := roundUnits_cases hbits hden num
    have hless : c₀ < c := f.units_strictMono.lt_iff_lt.1 (by exact_mod_cast hle.trans_lt hlt)
    rcases hcases with ⟨-, h⟩ | ⟨-, h⟩ | ⟨-, h⟩ <;> rw [h] <;> omega

/-- **Rounding keeps the order**: what is not below a magnitude is not rounded past it. -/
theorem le_roundUnits (hc : c ≤ f.infinity) (h : (f.units c : ℚ) ≤ num / den) :
    c ≤ f.roundUnits num den := by
  obtain ⟨c₀, -, hlt, hcases⟩ := roundUnits_cases hbits hden num
  have hless : c < c₀ + 1 := f.units_strictMono.lt_iff_lt.1 (by exact_mod_cast h.trans_lt hlt)
  rcases hcases with ⟨-, h⟩ | ⟨-, h⟩ | ⟨-, h⟩ <;> rw [h] <;> omega

/-- What is rounded to a magnitude is not past the middle behind it, and in front of that middle if
the code is odd. -/
theorem le_mid_of_roundUnits (hc : c < f.infinity) (h : f.roundUnits num den = c) :
    (num : ℚ) / den ≤ f.mid c ∧ (c % 2 = 1 → (num : ℚ) / den < f.mid c) := by
  obtain ⟨c₀, -, hlt, hcases⟩ := roundUnits_cases hbits hden num
  have hnext : ∀ b, b + 1 = c → (num : ℚ) / den < f.units (b + 1) → (num : ℚ) / den < f.mid c :=
    fun b hb hb' => hb'.trans (hb ▸ f.units_lt_mid (b + 1))
  rcases hcases with ⟨hmid, hround⟩ | ⟨-, hround⟩ | ⟨hmid, hround⟩
  · obtain rfl : c₀ = c := by omega
    exact ⟨hmid.le, fun _ => hmid⟩
  · have hcode : c₀ + 1 = c := by omega
    exact ⟨(hnext c₀ hcode hlt).le, fun _ => hnext c₀ hcode hlt⟩
  · rcases Nat.mod_two_eq_zero_or_one c₀ with heven | hodd
    · obtain rfl : c₀ = c := by omega
      exact ⟨hmid.le, fun hodd => by omega⟩
    · have hcode : c₀ + 1 = c := by omega
      exact ⟨(hnext c₀ hcode hlt).le, fun _ => hnext c₀ hcode hlt⟩

/-- What is rounded to a magnitude is not in front of the middle before it, and behind that middle
if the code is odd. -/
theorem mid_le_of_roundUnits (hc : c + 1 < f.infinity) (h : f.roundUnits num den = c + 1) :
    f.mid c ≤ (num : ℚ) / den ∧ ((c + 1) % 2 = 1 → f.mid c < (num : ℚ) / den) := by
  obtain ⟨c₀, hle, -, hcases⟩ := roundUnits_cases hbits hden num
  have hnext : ∀ b, b = c + 1 → (f.units b : ℚ) ≤ num / den → f.mid c < (num : ℚ) / den :=
    fun b hb hb' => (hb ▸ f.mid_lt_units c).trans_le hb'
  rcases hcases with ⟨-, hround⟩ | ⟨hmid, hround⟩ | ⟨hmid, hround⟩
  · have hcode : c₀ = c + 1 := by omega
    exact ⟨(hnext c₀ hcode hle).le, fun _ => hnext c₀ hcode hle⟩
  · obtain rfl : c₀ = c := by omega
    exact ⟨hmid.le, fun _ => hmid⟩
  · rcases Nat.mod_two_eq_zero_or_one c₀ with heven | hodd
    · have hcode : c₀ = c + 1 := by omega
      exact ⟨(hnext c₀ hcode hle).le, fun _ => hnext c₀ hcode hle⟩
    · obtain rfl : c₀ = c := by omega
      exact ⟨hmid.ge, fun hodd => by omega⟩

/-- **A magnitude is rounded to itself.** -/
theorem roundUnits_units (h : (num : ℚ) / den = f.units c) :
    f.roundUnits num den = min c f.infinity := by
  apply roundUnits_eq_of_mid hbits hden
  · rintro b rfl
    rw [h]
    exact f.mid_lt_units b
  · rw [h]
    exact f.units_lt_mid c

/-- **A quotient is within half a step of the magnitude that it is rounded to.** -/
theorem abs_sub_units_le (hc : c < f.infinity) (h : f.roundUnits num den = c) :
    |(num : ℚ) / den - f.units c| ≤ 2 ^ f.scale c / 2 := by
  have hhigh := (le_mid_of_roundUnits hbits hden hc h).1
  rw [mid_eq_add] at hhigh
  rw [abs_le]
  refine ⟨?_, by linarith⟩
  cases c with
  | zero =>
    have hquot : (0 : ℚ) ≤ num / den := by positivity
    have hhalf : (0 : ℚ) < 2 ^ f.scale 0 / 2 := by positivity
    rw [units_zero, Nat.cast_zero]
    linarith
  | succ b =>
    have hlow := (mid_le_of_roundUnits hbits hden hc h).1
    have hmono : (2 : ℚ) ^ f.scale b ≤ 2 ^ f.scale (b + 1) :=
      pow_le_pow_right₀ (by norm_num) (f.scale_mono (Nat.le_succ b))
    rw [mid_eq_sub] at hlow
    linarith

/-- Equal quotients are rounded alike. -/
theorem roundUnits_congr {num' den' : ℕ} (hden' : 0 < den')
    (h : (num : ℚ) / den = (num' : ℚ) / den') : f.roundUnits num den = f.roundUnits num' den' := by
  obtain ⟨c, hle, hlt⟩ := f.exists_floor num hden
  have hle' := (le_div_iff_units hden').1 (h ▸ (le_div_iff_units hden).2 hle)
  have hlt' := (div_lt_iff_units hden').1 (h ▸ (div_lt_iff_units hden).2 hlt)
  have hbelow : 2 * num < (f.units c + f.units (c + 1)) * den ↔
      2 * num' < (f.units c + f.units (c + 1)) * den' := by
    rw [← div_lt_mid_iff hden, h, div_lt_mid_iff hden']
  have habove : (f.units c + f.units (c + 1)) * den < 2 * num ↔
      (f.units c + f.units (c + 1)) * den' < 2 * num' := by
    rw [← mid_lt_div_iff hden, h, mid_lt_div_iff hden']
  rw [f.roundUnits_of_floor hbits hden hle hlt, f.roundUnits_of_floor hbits hden' hle' hlt']
  simp only [hbelow, habove]

end WordVectors.FloatFormat
