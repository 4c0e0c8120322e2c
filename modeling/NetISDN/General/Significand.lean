import Mathlib.Data.Int.Log
import Mathlib.Data.Rat.Floor
import Mathlib.Tactic.Positivity

/-!
# Rounding to significant bits

What a binary floating point format with a significand of `bits` bits makes of a number, as long as
its exponent fits: the next multiple of the unit in the last place, of two the even one (`roundTo`).
Rounding does not carry a number across an integer that the format has (`le_roundTo`, `roundTo_le`).
-/

namespace Significand

/-- The integer that is next to a number, of two the even one. -/
def nearestEven (q : ℚ) : ℤ :=
  if q - ⌊q⌋ < 1 / 2 ∨ q - ⌊q⌋ = 1 / 2 ∧ ⌊q⌋ % 2 = 0 then ⌊q⌋ else ⌊q⌋ + 1

/-- The unit in the last place of a number. -/
def ulp (bits : ℕ) (q : ℚ) : ℚ := 2 ^ (Int.log 2 |q| + 1 - bits)

/-- A number with a significand of `bits` bits. -/
def roundTo (bits : ℕ) (q : ℚ) : ℚ := nearestEven (q / ulp bits q) * ulp bits q

variable {bits : ℕ} {q : ℚ} {k m : ℤ}

/-- An integer below a number is not passed from above. -/
theorem le_nearestEven (h : k ≤ q) : k ≤ nearestEven q := by
  have hfloor : k ≤ ⌊q⌋ := Int.le_floor.2 h
  unfold nearestEven
  split
  · exact hfloor
  · omega

/-- An integer above a number is not passed from below. -/
theorem nearestEven_le (h : q ≤ k) : nearestEven q ≤ k := by
  unfold nearestEven
  split
  · exact Int.cast_le.1 ((Int.floor_le q).trans h)
  · next hnot =>
      -- the number is no integer, since the nearest one is above it
      have hne : q ≠ ⌊q⌋ := fun heq => hnot (.inl (by rw [← heq]; norm_num))
      have hlt : (⌊q⌋ : ℚ) < k := lt_of_lt_of_le (lt_of_le_of_ne (Int.floor_le q) hne.symm) h
      exact Int.cast_lt.1 hlt

/-- The unit is positive. -/
theorem ulp_pos : 0 < ulp bits q := zpow_pos two_pos _

/-- A multiple of the unit is not passed from above. -/
theorem le_roundTo_of_mul (h : m * ulp bits q ≤ q) : m * ulp bits q ≤ roundTo bits q := by
  have hm : m ≤ nearestEven (q / ulp bits q) := le_nearestEven ((le_div_iff₀ ulp_pos).2 h)
  exact mul_le_mul_of_nonneg_right (Int.cast_le.2 hm) ulp_pos.le

/-- A multiple of the unit is not passed from below. -/
theorem roundTo_le_of_mul (h : q ≤ m * ulp bits q) : roundTo bits q ≤ m * ulp bits q := by
  have hm : nearestEven (q / ulp bits q) ≤ m := nearestEven_le ((div_le_iff₀ ulp_pos).2 h)
  exact mul_le_mul_of_nonneg_right (Int.cast_le.2 hm) ulp_pos.le

/-- An integer of the format is a multiple of the unit of a number, or the number is larger than all
of these integers: the power of two below it is a multiple of the unit. -/
theorem ulp_cases (hbits : 0 < bits) (hk : |k| < 2 ^ bits) (q : ℚ) :
    (∃ m : ℤ, (k : ℚ) = m * ulp bits q) ∨
      ∃ m : ℤ, |(k : ℚ)| ≤ m * ulp bits q ∧ m * ulp bits q ≤ |q| ∧ |(k : ℚ)| < |q| := by
  by_cases he : Int.log 2 |q| + 1 ≤ bits
  · obtain ⟨n, hn⟩ := Int.eq_ofNat_of_zero_le (sub_nonneg.2 he)
    have hulp : ulp bits q = ((2 : ℚ) ^ n)⁻¹ := by
      rw [ulp, ← neg_sub, hn, zpow_neg]
      rfl
    refine .inl ⟨k * 2 ^ n, ?_⟩
    rw [hulp]
    push_cast
    rw [mul_assoc, mul_inv_cancel₀ (pow_ne_zero n two_ne_zero), mul_one]
  · have hq : 0 < |q| := abs_pos.2 fun hzero => he (by
      rw [hzero, abs_zero, Int.log_zero_right]
      omega)
    have hpow : ((2 ^ (bits - 1) : ℤ) : ℚ) * ulp bits q = 2 ^ Int.log 2 |q| := by
      rw [ulp]
      push_cast
      rw [← zpow_natCast, ← zpow_add₀ two_ne_zero]
      congr 1
      omega
    have hlow : (2 : ℚ) ^ Int.log 2 |q| ≤ |q| := Int.zpow_log_le_self (by decide) hq
    have hk' : |(k : ℚ)| < 2 ^ bits := by exact_mod_cast hk
    have hlt : |(k : ℚ)| < 2 ^ Int.log 2 |q| := by
      refine hk'.trans_le ?_
      rw [← zpow_natCast]
      exact zpow_le_zpow_right₀ one_le_two (by omega)
    exact .inr ⟨2 ^ (bits - 1), hpow ▸ hlt.le, hpow ▸ hlow, hlt.trans_le hlow⟩

/-- Rounding does not carry a number down across an integer of the format. -/
theorem le_roundTo (hbits : 0 < bits) (hk : |k| < 2 ^ bits) (h : k ≤ q) : k ≤ roundTo bits q := by
  rcases ulp_cases hbits hk q with ⟨m, hm⟩ | ⟨m, hle, hm, hlt⟩
  · rw [hm] at h ⊢
    exact le_roundTo_of_mul h
  · -- a negative number would be below the integer
    have hpos : 0 ≤ q := by
      by_contra hneg
      rw [abs_of_neg (not_le.1 hneg)] at hlt
      have habs := neg_abs_le (k : ℚ)
      linarith
    rw [abs_of_nonneg hpos] at hm
    exact (le_abs_self _).trans (hle.trans (le_roundTo_of_mul hm))

/-- Rounding does not carry a number up across an integer of the format. -/
theorem roundTo_le (hbits : 0 < bits) (hk : |k| < 2 ^ bits) (h : q ≤ k) : roundTo bits q ≤ k := by
  rcases ulp_cases hbits hk q with ⟨m, hm⟩ | ⟨m, hle, hm, hlt⟩
  · rw [hm] at h ⊢
    exact roundTo_le_of_mul h
  · have hneg : q ≤ 0 := by
      by_contra hpos
      rw [abs_of_pos (not_le.1 hpos)] at hlt
      have habs := le_abs_self (k : ℚ)
      linarith
    rw [abs_of_nonpos hneg] at hm
    have hm' : q ≤ ((-m : ℤ) : ℚ) * ulp bits q := by
      push_cast
      linarith
    refine (roundTo_le_of_mul hm').trans ?_
    have habs := neg_abs_le (k : ℚ)
    push_cast
    linarith

/-- The integers of the format stay as they are. -/
theorem roundTo_intCast (hbits : 0 < bits) (hk : |k| < 2 ^ bits) : roundTo bits k = k :=
  le_antisymm (roundTo_le hbits hk le_rfl) (le_roundTo hbits hk le_rfl)

end Significand
