import WordVectors.Proofs.Number.Narrowing

/-!
# Widening

A number of four octets is a number of eight, so widening loses nothing: narrowing leads back to
where it came from. What is not a number becomes quiet when it is widened, and stays the same from
then on.

## Main results

* `Binary32.narrow_widen`: a number that is widened and narrowed is the same number
* `Binary32.widen_narrow_widen`: what was widened once is kept by narrowing and widening
-/

namespace WordVectors

open FloatFormat (binary32 binary64)

/-! ## Magnitudes -/

theorem FloatFormat.infinity_add_lt {f : FloatFormat} {payload : ℕ} (h : payload < f.lead) :
    f.infinity + payload < f.signWeight := by
  have hexp : 0 < 2 ^ f.exponentBits := by positivity
  rw [infinity, signWeight_eq, Nat.one_shiftLeft, Nat.sub_mul, Nat.one_mul]
  have hle : f.lead ≤ 2 ^ f.exponentBits * f.lead := Nat.le_mul_of_pos_left f.lead hexp
  omega

/-- **A magnitude of four octets is one of eight.** -/
theorem exists_roundRatio_units {c : ℕ} (h : c < binary32.infinity) :
    ∃ w, w < binary64.infinity ∧ binary64.roundRatio (binary32.units c) binary32.one = w ∧
      binary32.roundRatio (binary64.units w) binary64.one = c := by
  have hsig := binary32.significand_lt c
  have hlead : 2 * binary32.lead ≤ 2 * binary64.lead := by
    rw [lead_binary32, lead_binary64]
    norm_num
  have hone : (binary32.one : ℚ) ≠ 0 := by exact_mod_cast one_binary32_pos.ne'
  have hweight := gapWeight_pos.ne'
  obtain ⟨w, hw⟩ := binary64.exists_units_eq (n := binary32.significand c) (by omega)
    (binary32.scale c + 925)
  have hunits : (binary64.units w : ℚ) = gapWeight * binary32.units c := by
    rw [hw, binary32.units_eq, gapWeight, pow_add, ← Nat.cast_mul]
    generalize (2 : ℕ) ^ 925 = weight
    congr 1
    ring
  have hlt : w < binary64.infinity := by
    apply lt_infinity_binary64 hunits
    exact_mod_cast binary32.units_strictMono.monotone h.le
  refine ⟨w, hlt, ?_, ?_⟩
  · have hratio : ((binary32.units c * binary64.one : ℕ) : ℚ) / binary32.one =
        binary64.units w := by
      rw [ratio_binary64, hunits, Nat.cast_mul, mul_div_cancel_right₀ _ hone]
    rw [FloatFormat.roundRatio,
      FloatFormat.roundUnits_units fractionBits_binary64_pos one_binary32_pos hratio,
      Nat.min_eq_left hlt.le]
  · have hratio : ((binary64.units w * binary32.one : ℕ) : ℚ) / binary64.one =
        binary32.units c := by
      rw [units_ratio_binary32, hunits, mul_div_cancel_left₀ _ hweight]
    rw [FloatFormat.roundRatio,
      FloatFormat.roundUnits_units fractionBits_binary32_pos one_binary64_pos hratio,
      Nat.min_eq_left h.le]

namespace Binary32

/-! ## Numbers -/

theorem narrow_widen_of_lt (negative : Bool) {c : ℕ} (h : c < binary32.infinity) :
    (ofPattern (format.pattern negative c)).widen.narrow =
      ofPattern (format.pattern negative c) := by
  obtain ⟨w, hw, hround, hback⟩ := exists_roundRatio_units h
  have hlt := FloatFormat.pattern_lt negative (Nat.lt_trans h binary32.infinity_lt_signWeight)
  have hwiden : (ofPattern (format.pattern negative c)).widen =
      .ofPattern (binary64.pattern negative w) := by
    rw [widen, datum, pattern_ofPattern hlt, FloatFormat.datum_pattern negative h, ← hround]
    rfl
  rw [hwiden, Binary64.narrow_ofPattern negative hw, hback]

theorem narrow_widen_infinity (negative : Bool) :
    (ofPattern (format.pattern negative format.infinity)).widen.narrow =
      ofPattern (format.pattern negative format.infinity) := by
  have hlt := FloatFormat.pattern_lt negative binary32.infinity_lt_signWeight
  have hwiden : (ofPattern (format.pattern negative format.infinity)).widen =
      .ofPattern (binary64.pattern negative binary64.infinity) := by
    rw [widen, datum, format, pattern_ofPattern hlt, FloatFormat.datum_pattern_infinity]
    rfl
  rw [hwiden, Binary64.narrow_infinity]

/-! ## What is not a number -/

/-- The quiet form of a payload is a payload. -/
theorem quiet_lt_lead {payload : ℕ} (h : payload < binary32.lead) :
    payload ||| binary32.lead / 2 < binary32.lead := by
  rw [lead_binary32] at h ⊢
  exact Nat.or_lt_two_pow h (by norm_num)

/-- What is not a number is widened with its sign and payload, and becomes quiet. -/
theorem widen_nan (negative : Bool) {payload : ℕ} (hpos : 0 < payload)
    (h : payload < binary32.lead) :
    (ofPattern (format.pattern negative (format.infinity + payload))).widen =
      .ofPattern (binary64.pattern negative
        (binary64.infinity + (payload ||| binary32.lead / 2) <<< 29)) := by
  have hsign := FloatFormat.infinity_add_lt h
  have hlt := FloatFormat.pattern_lt negative hsign
  have hdatum : (ofPattern (format.pattern negative (format.infinity + payload))).datum = .nan := by
    rw [datum, format, pattern_ofPattern hlt, FloatFormat.datum,
      FloatFormat.magnitude_pattern negative hsign, if_pos (by omega)]
  rw [widen, hdatum]
  simp only [format, pattern_ofPattern hlt, FloatFormat.magnitude_pattern negative hsign,
    FloatFormat.isNegative_pattern negative hsign, Nat.add_sub_cancel_left]
  rfl

/-- What is not a number is narrowed with its sign and the leading part of its payload. -/
theorem narrow_nan (negative : Bool) {payload : ℕ} (hpos : 0 < payload)
    (h : payload < binary64.lead) :
    (Binary64.ofPattern (binary64.pattern negative (binary64.infinity + payload))).narrow =
      ofPattern (format.pattern negative
        (format.infinity + (payload >>> 29 ||| binary32.lead / 2))) := by
  have hsign := FloatFormat.infinity_add_lt h
  have hlt := FloatFormat.pattern_lt negative hsign
  have hdatum :
      (Binary64.ofPattern (binary64.pattern negative (binary64.infinity + payload))).datum =
        .nan := by
    rw [Binary64.datum, Binary64.format, Binary64.pattern_ofPattern hlt, FloatFormat.datum,
      FloatFormat.magnitude_pattern negative hsign, if_pos (by omega)]
  rw [Binary64.narrow, hdatum]
  simp only [Binary64.format, Binary64.pattern_ofPattern hlt,
    FloatFormat.magnitude_pattern negative hsign, FloatFormat.isNegative_pattern negative hsign,
    Nat.add_sub_cancel_left]
  rfl

/-- A payload is quiet from the first widening on, and is kept as it is then. -/
theorem narrow_widen_nan (negative : Bool) {payload : ℕ} (hpos : 0 < payload)
    (h : payload < binary32.lead) :
    (ofPattern (format.pattern negative (format.infinity + payload))).widen.narrow =
      ofPattern (format.pattern negative
        (format.infinity + (payload ||| binary32.lead / 2))) := by
  have hquiet := quiet_lt_lead h
  have hquiet_pos : 0 < payload ||| binary32.lead / 2 := Nat.lt_of_lt_of_le hpos Nat.left_le_or
  have hshift : (payload ||| binary32.lead / 2) <<< 29 < binary64.lead := by
    rw [Nat.shiftLeft_eq, lead_binary64]
    rw [lead_binary32] at hquiet
    calc (payload ||| binary32.lead / 2) * 2 ^ 29 < 2 ^ 23 * 2 ^ 29 :=
          Nat.mul_lt_mul_of_pos_right hquiet (by norm_num)
      _ = 2 ^ 52 := by norm_num
  have hshift_pos : 0 < (payload ||| binary32.lead / 2) <<< 29 := by
    rw [Nat.shiftLeft_eq]
    exact Nat.mul_pos hquiet_pos (by norm_num)
  rw [widen_nan negative hpos h, narrow_nan negative hshift_pos hshift, Nat.shiftLeft_shiftRight,
    Nat.or_assoc, Nat.or_self]

/-! ## Any number -/

theorem datum_eq_nan_iff (x : Binary32) : x.datum = .nan ↔ binary32.infinity < x.code := by
  rw [datum, FloatFormat.datum, ← code]
  by_cases hlt : binary32.infinity < x.code
  · rw [if_pos hlt]
    exact iff_of_true rfl hlt
  · rw [if_neg hlt]
    split <;> exact iff_of_false Datum.noConfusion hlt

/-- The payload of what is not a number. -/
theorem exists_payload {x : Binary32} (h : x.datum = .nan) :
    ∃ payload, 0 < payload ∧ payload < binary32.lead ∧ x.code = binary32.infinity + payload := by
  have hnan := (datum_eq_nan_iff x).1 h
  have hlt : x.code < binary32.infinity + binary32.lead := Nat.mod_lt x.pattern (by decide)
  exact ⟨x.code - binary32.infinity, by omega, by omega, by omega⟩

/-- **A number that is widened and narrowed is the same number**: infinities, zeros of either sign
and the least magnitudes included. -/
theorem narrow_widen {x : Binary32} (h : x.datum ≠ .nan) : x.widen.narrow = x := by
  rw [ne_eq, datum_eq_nan_iff, Nat.not_lt] at h
  rw [← x.ofPattern_code]
  rcases Nat.lt_or_eq_of_le h with hlt | heq
  · exact narrow_widen_of_lt _ hlt
  · rw [heq]
    exact narrow_widen_infinity _

/-- **What was widened is kept**, bit by bit: narrowing it and widening it again changes nothing,
also when it is not a number. -/
theorem widen_narrow_widen (x : Binary32) : x.widen.narrow.widen = x.widen := by
  by_cases h : x.datum = .nan
  · obtain ⟨payload, hpos, hlt, hcode⟩ := exists_payload h
    have hquiet : 0 < payload ||| binary32.lead / 2 := Nat.lt_of_lt_of_le hpos Nat.left_le_or
    rw [← x.ofPattern_code, hcode, narrow_widen_nan _ hpos hlt,
      widen_nan _ hquiet (quiet_lt_lead hlt), widen_nan _ hpos hlt, Nat.or_assoc, Nat.or_self]
  · rw [narrow_widen h]

end Binary32

end WordVectors
