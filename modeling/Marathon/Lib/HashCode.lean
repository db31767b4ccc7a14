import Mathlib.Data.Int.Basic
import Mathlib.Order.Basic

/-!
# Hash codes

The hash code of a text is a number of 32 bits. A bucket is computed from it with a remainder and an
absolute value: in this order there is always a bucket, in the other one not for the least number,
whose absolute value is itself.
-/

namespace Marathon.Lib

/-- The UTF-16 code units of a character. -/
def codeUnits (c : Char) : List ℕ :=
  if c.toNat < 65536 then
    [c.toNat]
  else
    [55296 + (c.toNat - 65536) / 1024, 56320 + (c.toNat - 65536) % 1024]

/-- `String.hashCode`. -/
def hashCode (s : String) : BitVec 32 :=
  (s.toList.flatMap codeUnits).foldl (fun h unit => 31 * h + BitVec.ofNat 32 unit) 0

theorem natAbs_tmod_lt (x : BitVec 32) {n : ℕ} (hn : 0 < n) : (x.toInt.tmod n).natAbs < n := by
  have hpos : (0 : ℤ) < n := Int.natCast_pos.mpr hn
  have hlt := Int.tmod_lt_of_pos x.toInt hpos
  have hgt := Int.lt_tmod_of_pos x.toInt hpos
  omega

/-- With the absolute value first there is a bucket unless the number is the least one, or the number
of buckets divides it. -/
theorem abs_tmod_range_iff (x : BitVec 32) {n : ℤ} (hn : 0 < n) :
    0 ≤ x.abs.toInt.tmod n ∧ x.abs.toInt.tmod n < n ↔ x ≠ BitVec.intMin 32 ∨ n ∣ 2147483648 := by
  rw [and_iff_left (Int.tmod_lt_of_pos _ hn)]
  by_cases hmin : x = BitVec.intMin 32
  · have hvalue : (BitVec.intMin 32).abs.toInt = -2147483648 := by decide
    have hle : 0 ≤ (2147483648 : ℤ).tmod n := Int.tmod_nonneg n (by decide)
    rw [or_iff_right (not_not.mpr hmin), hmin, hvalue, Int.neg_tmod, Int.dvd_iff_tmod_eq_zero]
    omega
  · rw [BitVec.toInt_abs_eq_natAbs_of_ne_intMin hmin]
    exact iff_of_true (Int.tmod_nonneg n (Int.natCast_nonneg _)) (.inl hmin)

end Marathon.Lib
