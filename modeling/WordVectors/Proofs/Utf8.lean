import Mathlib
import WordVectors.Text.Utf8

/-!
# Texts and their octets

The octets of a text are split into its characters, and a byte string without malformed pieces is
the octets of the text that it is read as. An unfinished character is described by the numbers that
it may still become: reading an octet narrows them down, and each of them has the octets seen in
front.

## Main definitions

* `Utf8.continuations`: the octets of a number behind the first
* `Utf8.Pending.Leads`, `Utf8.Pending.Sound`: the numbers that an unfinished character may become

## Main results

* `Utf8.scan_flatMap_encodeChar`: the pieces of the octets of a text are its characters
* `Utf8.decode_encode`: a text is read back from its octets
* `Utf8.flatMap_octets_scan`: no octet is lost in the pieces
* `Utf8.decode_strict_eq_ok_iff`: what is read strictly is the octets of a text
* `Utf8.mem_encode_iff`: an octet of ASCII is only in the octets of a text for its own character
-/

namespace WordVectors.Utf8

/-- The octets that end a number of more than one octet, the last `count` of them. -/
def continuations : (count n : Nat) → Bytes
  | 0, _ => []
  | count + 1, n => UInt8.ofNat (0x80 + n / 64 ^ count % 64) :: continuations count n

namespace Pending

/-- Whether an unfinished character may become `n`. -/
structure Leads (p : Pending) (n : Nat) : Prop where
  /-- The octets seen spell the front of the number. -/
  value_eq : n / 64 ^ (p.missing + 1) = p.value
  /-- The next octet is not below the range. -/
  low_le : p.low.toNat ≤ 0x80 + n / 64 ^ p.missing % 64
  /-- The next octet is not above the range. -/
  le_high : 0x80 + n / 64 ^ p.missing % 64 ≤ p.high.toNat

/-- **What holds of every unfinished character**: all that it may become are characters, with the
octets seen in front. -/
structure Sound (p : Pending) : Prop where
  /-- The range holds continuations only. -/
  low_ge : 0x80 ≤ p.low.toNat
  high_le : p.high.toNat ≤ 0xBF
  /-- What it may become is a character. -/
  valid : ∀ n, p.Leads n → n.isValidChar
  /-- What it may become has the octets seen in front. -/
  encode : ∀ n, p.Leads n →
    encodeChar (Char.ofNat n) = p.seen ++ continuations (p.missing + 1) n

end Pending

theorem toNat_ofNat_of_lt {n : Nat} (h : n < 256) : (UInt8.ofNat n).toNat = n :=
  UInt8.toNat_ofNat_of_lt' h

/-! ## The characters of a text -/

/-- The continuations of a number complete it. -/
theorem scanFrom_continuations {p : Pending} {n : Nat} (h : p.Leads n) (bs : Bytes) :
    scanFrom (some p) (continuations (p.missing + 1) n ++ bs) =
      .char (Char.ofNat n) :: scanFrom none bs := by
  obtain ⟨seen, value, missing, low, high⟩ := p
  induction missing generalizing seen value low high with
  | zero =>
    obtain ⟨hvalue, hlow, hhigh⟩ := h
    dsimp only at hvalue hlow hhigh
    have hb := toNat_ofNat_of_lt (n := 0x80 + n / 64 ^ 0 % 64) (by omega)
    have hin : low ≤ UInt8.ofNat (0x80 + n / 64 ^ 0 % 64) ∧
        UInt8.ofNat (0x80 + n / 64 ^ 0 % 64) ≤ high := by
      rw [UInt8.le_iff_toNat_le, UInt8.le_iff_toNat_le, hb]
      exact ⟨hlow, hhigh⟩
    have hn : value * 64 + ((UInt8.ofNat (0x80 + n / 64 ^ 0 % 64)).toNat - 0x80) = n := by
      rw [hb, ← hvalue]
      omega
    simp only [continuations, List.cons_append, List.nil_append, scanFrom, step, if_pos hin, hn]
  | succ missing ih =>
    obtain ⟨hvalue, hlow, hhigh⟩ := h
    dsimp only at hvalue hlow hhigh
    have hb := toNat_ofNat_of_lt (n := 0x80 + n / 64 ^ (missing + 1) % 64) (by omega)
    have hin : low ≤ UInt8.ofNat (0x80 + n / 64 ^ (missing + 1) % 64) ∧
        UInt8.ofNat (0x80 + n / 64 ^ (missing + 1) % 64) ≤ high := by
      rw [UInt8.le_iff_toNat_le, UInt8.le_iff_toNat_le, hb]
      exact ⟨hlow, hhigh⟩
    have hn : value * 64 + ((UInt8.ofNat (0x80 + n / 64 ^ (missing + 1) % 64)).toNat - 0x80) =
        n / 64 ^ (missing + 1) := by
      rw [hb, ← hvalue, Nat.pow_succ 64 (missing + 1), ← Nat.div_div_eq_div_mul]
      omega
    have hnext : (⟨seen ++ [UInt8.ofNat (0x80 + n / 64 ^ (missing + 1) % 64)],
        n / 64 ^ (missing + 1), missing, 0x80, 0xBF⟩ : Pending).Leads n :=
      ⟨rfl, Nat.le_add_right _ _, by
        have : n / 64 ^ missing % 64 < 64 := Nat.mod_lt _ (by decide)
        simp only [UInt8.reduceToNat]
        omega⟩
    rw [continuations, List.cons_append, scanFrom, step, if_pos hin, hn]
    exact ih _ _ _ _ hnext

/-! ### First octets -/

theorem start_of_lt {b : UInt8} (h : b.toNat < 0x80) :
    start b = ([.char (Char.ofNat b.toNat)], none) := by
  rw [start, if_pos (UInt8.lt_iff_toNat_lt.2 h)]

theorem start_two {b : UInt8} (h₁ : 0xC2 ≤ b.toNat) (h₂ : b.toNat < 0xE0) :
    start b = ([], some ⟨[b], b.toNat - 0xC0, 0, 0x80, 0xBF⟩) := by
  simp only [start, UInt8.lt_iff_toNat_lt, UInt8.reduceToNat]
  rw [if_neg (by omega), if_neg (by omega), if_pos h₂]

theorem start_three {b : UInt8} (h₁ : 0xE0 ≤ b.toNat) (h₂ : b.toNat < 0xF0) :
    start b = ([], some ⟨[b], b.toNat - 0xE0, 1, if b = 0xE0 then 0xA0 else 0x80,
      if b = 0xED then 0x9F else 0xBF⟩) := by
  simp only [start, UInt8.lt_iff_toNat_lt, UInt8.reduceToNat]
  rw [if_neg (by omega), if_neg (by omega), if_neg (by omega), if_pos h₂]

theorem start_four {b : UInt8} (h₁ : 0xF0 ≤ b.toNat) (h₂ : b.toNat < 0xF5) :
    start b = ([], some ⟨[b], b.toNat - 0xF0, 2, if b = 0xF0 then 0x90 else 0x80,
      if b = 0xF4 then 0x8F else 0xBF⟩) := by
  simp only [start, UInt8.lt_iff_toNat_lt, UInt8.reduceToNat]
  rw [if_neg (by omega), if_neg (by omega), if_neg (by omega), if_neg (by omega), if_pos h₂]

theorem start_malformed {b : UInt8}
    (h : 0x80 ≤ b.toNat ∧ b.toNat < 0xC2 ∨ 0xF5 ≤ b.toNat) :
    start b = ([.malformed [b] .startByte], none) := by
  simp only [start, UInt8.lt_iff_toNat_lt, UInt8.reduceToNat]
  rcases h with ⟨h₁, h₂⟩ | h
  · rw [if_neg (by omega), if_pos h₂]
  · rw [if_neg (by omega), if_neg (by omega), if_neg (by omega), if_neg (by omega),
      if_neg (by omega)]

/-! ### The octets of one character -/

theorem encodeChar_one {c : Char} (h : c.toNat < 0x80) :
    encodeChar c = [UInt8.ofNat c.toNat] := by
  simp only [encodeChar, if_pos h]

theorem encodeChar_two {c : Char} (h₁ : 0x80 ≤ c.toNat) (h₂ : c.toNat < 0x800) :
    encodeChar c = UInt8.ofNat (0xC0 + c.toNat / 64) :: continuations 1 c.toNat := by
  simp only [encodeChar, if_neg (Nat.not_lt.2 h₁), if_pos h₂, continuations, Nat.pow_zero,
    Nat.div_one]

theorem encodeChar_three {c : Char} (h₁ : 0x800 ≤ c.toNat) (h₂ : c.toNat < 0x10000) :
    encodeChar c = UInt8.ofNat (0xE0 + c.toNat / 4096) :: continuations 2 c.toNat := by
  simp only [encodeChar, if_neg (Nat.not_lt.2 h₁), if_pos h₂, continuations, Nat.pow_zero,
    Nat.div_one, Nat.pow_one]
  rw [if_neg (by omega)]

theorem encodeChar_four {c : Char} (h : 0x10000 ≤ c.toNat) :
    encodeChar c = UInt8.ofNat (0xF0 + c.toNat / 262144) :: continuations 3 c.toNat := by
  simp only [encodeChar, if_neg (Nat.not_lt.2 h), continuations, Nat.pow_zero, Nat.div_one,
    Nat.pow_one, Nat.reducePow]
  rw [if_neg (by omega), if_neg (by omega)]

theorem scanFrom_start {b : UInt8} {p : Pending} (hb : start b = ([], some p)) {n : Nat}
    (h : p.Leads n) (bs : Bytes) :
    scanFrom none (b :: continuations (p.missing + 1) n ++ bs) =
      .char (Char.ofNat n) :: scanFrom none bs := by
  rw [List.cons_append, scanFrom, step, hb]
  exact scanFrom_continuations h bs

/-- With two octets, the first leads to the number. -/
theorem leads_two {b : UInt8} {n : Nat} (hb : b.toNat = 0xC0 + n / 64) :
    (⟨[b], b.toNat - 0xC0, 0, 0x80, 0xBF⟩ : Pending).Leads n := by
  rw [hb]
  constructor
  case value_eq =>
    dsimp only
    omega
  case low_le => exact Nat.le_add_right _ _
  case le_high =>
    simp only [UInt8.reduceToNat]
    omega

/-- With three octets, the narrowed range of the second holds the characters that need three and
are no surrogates. -/
theorem leads_three {b : UInt8} {n : Nat} (hb : b.toNat = 0xE0 + n / 4096) (hlow : 0x800 ≤ n)
    (hsurrogate : n < 0xD800 ∨ 0xDFFF < n) :
    (⟨[b], b.toNat - 0xE0, 1, if b = 0xE0 then 0xA0 else 0x80,
      if b = 0xED then 0x9F else 0xBF⟩ : Pending).Leads n := by
  simp only [← UInt8.toNat_inj, hb, UInt8.reduceToNat]
  constructor
  case value_eq =>
    dsimp only
    omega
  case low_le =>
    dsimp only
    split <;> simp only [UInt8.reduceToNat] <;> omega
  case le_high =>
    dsimp only
    split <;> simp only [UInt8.reduceToNat] <;> omega

/-- With four octets, it holds those that need four, up to the last character. -/
theorem leads_four {b : UInt8} {n : Nat} (hb : b.toNat = 0xF0 + n / 262144)
    (hlow : 0x10000 ≤ n) (hlast : n < 0x110000) :
    (⟨[b], b.toNat - 0xF0, 2, if b = 0xF0 then 0x90 else 0x80,
      if b = 0xF4 then 0x8F else 0xBF⟩ : Pending).Leads n := by
  simp only [← UInt8.toNat_inj, hb, UInt8.reduceToNat]
  constructor
  case value_eq =>
    dsimp only
    omega
  case low_le =>
    dsimp only
    split <;> simp only [UInt8.reduceToNat] <;> omega
  case le_high =>
    dsimp only
    split <;> simp only [UInt8.reduceToNat] <;> omega

/-- **The octets of a character are read as that character.** -/
theorem scanFrom_encodeChar (c : Char) (bs : Bytes) :
    scanFrom none (encodeChar c ++ bs) = .char c :: scanFrom none bs := by
  have hvalid : c.toNat.isValidChar := c.valid
  have hc : Char.ofNat c.toNat = c := Char.ofNat_toNat c
  simp only [Nat.isValidChar] at hvalid
  by_cases h₁ : c.toNat < 0x80
  · have hb := toNat_ofNat_of_lt (n := c.toNat) (by omega)
    rw [encodeChar_one h₁]
    simp only [List.cons_append, List.nil_append, scanFrom, step, start_of_lt (hb ▸ h₁), hb, hc]
  by_cases h₂ : c.toNat < 0x800
  · have hb := toNat_ofNat_of_lt (n := 0xC0 + c.toNat / 64) (by omega)
    have hstart := start_two (b := UInt8.ofNat (0xC0 + c.toNat / 64)) (by omega) (by omega)
    have hscan := scanFrom_start hstart (leads_two hb) bs
    rw [hc] at hscan
    rw [encodeChar_two (by omega) h₂]
    exact hscan
  by_cases h₃ : c.toNat < 0x10000
  · have hb := toNat_ofNat_of_lt (n := 0xE0 + c.toNat / 4096) (by omega)
    have hstart := start_three (b := UInt8.ofNat (0xE0 + c.toNat / 4096)) (by omega) (by omega)
    have hscan := scanFrom_start hstart (leads_three hb (by omega) (by omega)) bs
    rw [hc] at hscan
    rw [encodeChar_three (by omega) h₃]
    exact hscan
  · have hb := toNat_ofNat_of_lt (n := 0xF0 + c.toNat / 262144) (by omega)
    have hstart := start_four (b := UInt8.ofNat (0xF0 + c.toNat / 262144)) (by omega) (by omega)
    have hscan := scanFrom_start hstart (leads_four hb (by omega) (by omega)) bs
    rw [hc] at hscan
    rw [encodeChar_four (by omega)]
    exact hscan

/-- **The pieces of the octets of a text are its characters.** -/
theorem scan_flatMap_encodeChar (cs : List Char) : scan (cs.flatMap encodeChar) = cs.map .char := by
  induction cs with
  | nil => rfl
  | cons c cs ih => rw [scan, List.flatMap_cons, scanFrom_encodeChar, ← scan, ih, List.map_cons]

theorem firstMalformed?_map_char (position : Nat) (cs : List Char) :
    firstMalformed? position (cs.map .char) = none := by
  induction cs generalizing position with
  | nil => rfl
  | cons c cs ih => exact ih _

theorem textOf_map_char (repair : Bytes → List Char) (cs : List Char) :
    textOf repair (cs.map .char) = String.ofList cs := by
  rw [textOf]
  congr 1
  induction cs with
  | nil => rfl
  | cons c cs ih => simpa using ih

/-- **A text is read back from its octets** under every recovery. -/
theorem decode_encode (recovery : Recovery) (s : String) :
    decode recovery (encode s) = .ok s := by
  simp only [decode, encode, scan_flatMap_encodeChar, firstMalformed?_map_char, textOf_map_char,
    String.ofList_toList]

/-! ## The octets of the pieces -/

theorem toNat_charOfNat {n : Nat} (h : n.isValidChar) : (Char.ofNat n).toNat = n := by
  rw [Char.ofNat, dif_pos h]
  rfl

/-- The octets of an unfinished character. -/
def seenOf : Option Pending → Bytes
  | none => []
  | some p => p.seen

/-! ### What a first octet leaves unfinished -/

/-- A first octet from `C2` on leaves no overlong form with two octets. -/
theorem sound_two {b : UInt8} (h₁ : 0xC2 ≤ b.toNat) (h₂ : b.toNat < 0xE0) :
    (⟨[b], b.toNat - 0xC0, 0, 0x80, 0xBF⟩ : Pending).Sound := by
  have hbounds : ∀ n, (⟨[b], b.toNat - 0xC0, 0, 0x80, 0xBF⟩ : Pending).Leads n →
      0x80 ≤ n ∧ n < 0x800 ∧ 0xC0 + n / 64 = b.toNat := by
    rintro n ⟨hvalue, -, -⟩
    dsimp only at hvalue
    omega
  constructor
  case low_ge => exact Nat.le_refl _
  case high_le => exact Nat.le_refl _
  case valid =>
    intro n hn
    have := hbounds n hn
    exact .inl (by omega)
  case encode =>
    intro n hn
    obtain ⟨hlow, hhigh, hb⟩ := hbounds n hn
    have hc := toNat_charOfNat (n := n) (.inl (by omega))
    rw [encodeChar_two (by omega) (by omega), hc, hb, UInt8.ofNat_toNat]
    rfl

/-- Behind `E0` the range excludes overlong forms, and behind `ED` surrogates. -/
theorem sound_three {b : UInt8} (h₁ : 0xE0 ≤ b.toNat) (h₂ : b.toNat < 0xF0) :
    (⟨[b], b.toNat - 0xE0, 1, if b = 0xE0 then 0xA0 else 0x80,
      if b = 0xED then 0x9F else 0xBF⟩ : Pending).Sound := by
  have hbounds : ∀ n, (⟨[b], b.toNat - 0xE0, 1, if b = 0xE0 then 0xA0 else 0x80,
      if b = 0xED then 0x9F else 0xBF⟩ : Pending).Leads n →
      0x800 ≤ n ∧ n < 0x10000 ∧ 0xE0 + n / 4096 = b.toNat ∧ n.isValidChar := by
    rintro n ⟨hvalue, hlow, hhigh⟩
    simp only [← UInt8.toNat_inj, UInt8.reduceToNat] at hvalue hlow hhigh
    simp only [Nat.isValidChar]
    split at hlow <;> split at hhigh <;> simp only [UInt8.reduceToNat] at hlow hhigh <;> omega
  constructor
  case low_ge =>
    dsimp only
    split <;> decide
  case high_le =>
    dsimp only
    split <;> decide
  case valid =>
    intro n hn
    exact (hbounds n hn).2.2.2
  case encode =>
    intro n hn
    obtain ⟨hlow, hhigh, hb, hvalid⟩ := hbounds n hn
    have hc := toNat_charOfNat hvalid
    rw [encodeChar_three (by omega) (by omega), hc, hb, UInt8.ofNat_toNat]
    rfl

/-- Behind `F0` the range excludes overlong forms, and behind `F4` what is past the last
character. -/
theorem sound_four {b : UInt8} (h₁ : 0xF0 ≤ b.toNat) (h₂ : b.toNat < 0xF5) :
    (⟨[b], b.toNat - 0xF0, 2, if b = 0xF0 then 0x90 else 0x80,
      if b = 0xF4 then 0x8F else 0xBF⟩ : Pending).Sound := by
  have hbounds : ∀ n, (⟨[b], b.toNat - 0xF0, 2, if b = 0xF0 then 0x90 else 0x80,
      if b = 0xF4 then 0x8F else 0xBF⟩ : Pending).Leads n →
      0x10000 ≤ n ∧ 0xF0 + n / 262144 = b.toNat ∧ n.isValidChar := by
    rintro n ⟨hvalue, hlow, hhigh⟩
    simp only [← UInt8.toNat_inj, UInt8.reduceToNat] at hvalue hlow hhigh
    simp only [Nat.isValidChar]
    split at hlow <;> split at hhigh <;> simp only [UInt8.reduceToNat] at hlow hhigh <;> omega
  constructor
  case low_ge =>
    dsimp only
    split <;> decide
  case high_le =>
    dsimp only
    split <;> decide
  case valid =>
    intro n hn
    exact (hbounds n hn).2.2
  case encode =>
    intro n hn
    obtain ⟨hlow, hb, hvalid⟩ := hbounds n hn
    have hc := toNat_charOfNat hvalid
    rw [encodeChar_four (by omega), hc, hb, UInt8.ofNat_toNat]
    rfl

/-- A first octet is a piece or is seen, and an unfinished character that it leaves is sound. -/
theorem start_sound (b : UInt8) :
    (start b).1.flatMap Piece.octets ++ seenOf (start b).2 = [b] ∧
      ∀ p ∈ (start b).2, p.Sound := by
  have hlt := b.toNat_lt
  by_cases h₁ : b.toNat < 0x80
  · have hc := toNat_charOfNat (n := b.toNat) (.inl (by omega))
    rw [start_of_lt h₁]
    refine ⟨?_, by simp⟩
    simp only [List.flatMap_singleton, Piece.octets, seenOf, List.append_nil]
    rw [encodeChar_one (by omega), hc, UInt8.ofNat_toNat]
  by_cases h₂ : b.toNat < 0xC2
  · rw [start_malformed (by omega)]
    exact ⟨rfl, by simp⟩
  by_cases h₃ : b.toNat < 0xE0
  · rw [start_two (by omega) h₃]
    refine ⟨rfl, ?_⟩
    rintro p ⟨⟩
    exact sound_two (by omega) h₃
  by_cases h₄ : b.toNat < 0xF0
  · rw [start_three (by omega) h₄]
    refine ⟨rfl, ?_⟩
    rintro p ⟨⟩
    exact sound_three (by omega) h₄
  by_cases h₅ : b.toNat < 0xF5
  · rw [start_four (by omega) h₅]
    refine ⟨rfl, ?_⟩
    rintro p ⟨⟩
    exact sound_four (by omega) h₅
  · rw [start_malformed (by omega)]
    exact ⟨rfl, by simp⟩

/-! ### Steps -/

/-- An octet in the range of an unfinished character completes it or narrows it down. -/
theorem step_sound_of_mem {p : Pending} (h : p.Sound) {b : UInt8} (hb : p.low ≤ b ∧ b ≤ p.high) :
    (step (some p) b).1.flatMap Piece.octets ++ seenOf (step (some p) b).2 = p.seen ++ [b] ∧
      ∀ q ∈ (step (some p) b).2, q.Sound := by
  obtain ⟨seen, value, missing, low, high⟩ := p
  obtain ⟨hge, hle, hvalid, hencode⟩ := h
  have hlow := UInt8.le_iff_toNat_le.1 hb.1
  have hhigh := UInt8.le_iff_toNat_le.1 hb.2
  dsimp only at *
  have hleads : ∀ n, n / 64 ^ missing = value * 64 + (b.toNat - 0x80) →
      (⟨seen, value, missing, low, high⟩ : Pending).Leads n ∧
        UInt8.ofNat (0x80 + n / 64 ^ missing % 64) = b := by
    intro n hn
    have hmod : 0x80 + n / 64 ^ missing % 64 = b.toNat := by omega
    refine ⟨⟨?_, ?_, ?_⟩, by rw [hmod, UInt8.ofNat_toNat]⟩
    · dsimp only
      rw [Nat.pow_succ, ← Nat.div_div_eq_div_mul]
      omega
    · rwa [hmod]
    · rwa [hmod]
  simp only [step, if_pos hb]
  cases missing with
  | zero =>
    obtain ⟨hn, hlast⟩ := hleads (value * 64 + (b.toNat - 0x80)) (by simp)
    refine ⟨?_, by simp⟩
    simp only [List.flatMap_singleton, Piece.octets, hencode _ hn, continuations, hlast, seenOf,
      List.append_nil]
  | succ missing =>
    refine ⟨rfl, ?_⟩
    rintro q ⟨⟩
    constructor
    case low_ge => exact Nat.le_refl _
    case high_le => exact Nat.le_refl _
    case valid =>
      intro n hn
      exact hvalid n (hleads n hn.value_eq).1
    case encode =>
      intro n hn
      obtain ⟨hlead, hlast⟩ := hleads n hn.value_eq
      rw [hencode n hlead, continuations, hlast, List.append_assoc]
      rfl

/-- **A step loses no octet** and leaves a sound character unfinished. -/
theorem step_sound {s : Option Pending} (h : ∀ p ∈ s, p.Sound) (b : UInt8) :
    (step s b).1.flatMap Piece.octets ++ seenOf (step s b).2 = seenOf s ++ [b] ∧
      ∀ p ∈ (step s b).2, p.Sound := by
  cases s with
  | none => exact start_sound b
  | some p =>
    by_cases hb : p.low ≤ b ∧ b ≤ p.high
    · exact step_sound_of_mem (h p rfl) hb
    · obtain ⟨hstart, hsound⟩ := start_sound b
      simp only [step, if_neg hb]
      refine ⟨?_, hsound⟩
      rw [List.flatMap_cons, List.append_assoc, hstart]
      rfl

theorem flatMap_octets_scanFrom {s : Option Pending} (h : ∀ p ∈ s, p.Sound) (bs : Bytes) :
    (scanFrom s bs).flatMap Piece.octets = seenOf s ++ bs := by
  induction bs generalizing s with
  | nil => cases s <;> simp [scanFrom, seenOf, Piece.octets]
  | cons b bs ih =>
    obtain ⟨hstep, hsound⟩ := step_sound h b
    have hscan : scanFrom s (b :: bs) = (step s b).1 ++ scanFrom (step s b).2 bs := by
      cases s <;> rfl
    rw [hscan, List.flatMap_append, ih hsound, ← List.append_assoc, hstep, List.append_assoc]
    rfl

/-- **No octet is lost in the pieces** of a byte string. -/
theorem flatMap_octets_scan (bs : Bytes) : (scan bs).flatMap Piece.octets = bs :=
  flatMap_octets_scanFrom (by simp) bs

/-! ## Strict reading -/

/-- Pieces of which none is malformed are characters. -/
theorem exists_of_firstMalformed?_eq_none {position : Nat} {pieces : List Piece}
    (h : firstMalformed? position pieces = none) :
    ∃ cs : List Char, pieces = cs.map .char := by
  induction pieces generalizing position with
  | nil => exact ⟨[], rfl⟩
  | cons piece pieces ih =>
    cases piece with
    | char c =>
      obtain ⟨cs, rfl⟩ := ih h
      exact ⟨c :: cs, rfl⟩
    | malformed octets reason => cases h

/-- **What is read strictly is the octets of a text.** -/
theorem decode_strict_eq_ok_iff {bs : Bytes} {s : String} :
    decode .strict bs = .ok s ↔ bs = encode s := by
  constructor
  · intro h
    simp only [decode] at h
    split at h
    · next hnone =>
      obtain ⟨cs, hcs⟩ := exists_of_firstMalformed?_eq_none hnone
      rw [hcs, textOf_map_char] at h
      obtain rfl : String.ofList cs = s := Except.ok.inj h
      rw [← flatMap_octets_scan bs, hcs, encode, String.toList_ofList, List.flatMap_map]
      rfl
    · cases h
  · rintro rfl
    exact decode_encode .strict s

/-! ## Octets of ASCII -/

theorem le_of_mem_continuations {b : UInt8} {count n : Nat} (h : b ∈ continuations count n) :
    0x80 ≤ b.toNat := by
  induction count with
  | zero => simp [continuations] at h
  | succ count ih =>
    rw [continuations, List.mem_cons] at h
    rcases h with rfl | h
    · have : n / 64 ^ count % 64 < 64 := Nat.mod_lt _ (by decide)
      rw [toNat_ofNat_of_lt (by omega)]
      omega
    · exact ih h

theorem mem_encodeChar_iff {b : UInt8} (hb : b.toNat < 0x80) (c : Char) :
    b ∈ encodeChar c ↔ c.toNat = b.toNat := by
  by_cases h : c.toNat < 0x80
  · rw [encodeChar_one h, List.mem_singleton, ← UInt8.toNat_inj, toNat_ofNat_of_lt (by omega)]
    exact eq_comm
  · have hvalid : c.toNat.isValidChar := c.valid
    simp only [Nat.isValidChar] at hvalid
    have hlead : ∃ lead count, 0x80 ≤ lead ∧ lead < 256 ∧
        encodeChar c = UInt8.ofNat lead :: continuations count c.toNat := by
      by_cases h₂ : c.toNat < 0x800
      · exact ⟨_, _, by omega, by omega, encodeChar_two (by omega) h₂⟩
      by_cases h₃ : c.toNat < 0x10000
      · exact ⟨_, _, by omega, by omega, encodeChar_three (by omega) h₃⟩
      · exact ⟨_, _, by omega, by omega, encodeChar_four (by omega)⟩
    obtain ⟨lead, count, hle, hlt, hencode⟩ := hlead
    constructor
    · intro hmem
      rw [hencode, List.mem_cons] at hmem
      rcases hmem with rfl | hmem
      · rw [toNat_ofNat_of_lt hlt] at hb
        omega
      · have := le_of_mem_continuations hmem
        omega
    · intro hc
      omega

/-- **An octet of ASCII is only in the octets of a text for its own character.** -/
theorem mem_encode_iff {b : UInt8} (hb : b.toNat < 0x80) (s : String) :
    b ∈ encode s ↔ Char.ofNat b.toNat ∈ s.toList := by
  have hc := toNat_charOfNat (n := b.toNat) (.inl (by omega))
  simp only [encode, List.mem_flatMap, mem_encodeChar_iff hb]
  constructor
  · rintro ⟨c, hmem, hcb⟩
    rwa [← hcb, Char.ofNat_toNat]
  · intro hmem
    exact ⟨_, hmem, hc⟩

/-- **A text of ASCII has one octet per character.** -/
theorem encode_of_ascii {s : String} (h : ∀ c ∈ s.toList, c.toNat < 0x80) :
    encode s = s.toList.map fun c => UInt8.ofNat c.toNat := by
  rw [encode]
  generalize s.toList = cs at h
  induction cs with
  | nil => rfl
  | cons c cs ih =>
    rw [List.flatMap_cons, encodeChar_one (h c List.mem_cons_self), List.map_cons,
      ih fun d hd => h d (List.mem_cons_of_mem _ hd)]
    rfl

end WordVectors.Utf8
