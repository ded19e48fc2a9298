import Mathlib
import WordVectors.Bytes

/-!
# Widths of unsigned numbers

The octets of a list with a given width are those of the numbers below the power of 256 with that
exponent.

## Main results

* `Bytes.toNatLE_lt`: the number of a list is below that power
* `Bytes.toNatLE_ofNatLE`: a number below that power is read back from its octets
-/

namespace WordVectors.Bytes

theorem toNatLE_lt (bs : Bytes) : toNatLE bs < 256 ^ bs.length := by
  induction bs with
  | nil => simp [toNatLE]
  | cons b bs ih =>
    have hb : b.toNat < 256 := b.toNat_lt
    simp only [toNatLE, List.length_cons, pow_succ]
    omega

theorem toNatLE_ofNatLE {width n : ℕ} (h : n < 256 ^ width) : toNatLE (ofNatLE width n) = n := by
  induction width generalizing n with
  | zero =>
    obtain rfl : n = 0 := by simpa using h
    rfl
  | succ width ih =>
    have hq : n / 256 < 256 ^ width := by
      rw [pow_succ] at h
      omega
    have hb : (UInt8.ofNat (n % 256)).toNat = n % 256 := by simp
    rw [ofNatLE, toNatLE, ih hq, hb]
    omega

end WordVectors.Bytes
