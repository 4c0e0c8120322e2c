import Mathlib.Data.Nat.Bitwise

/-!
# Bit fields of a 32-bit word

A word that is put together with `(mask & value) << shift` from fields that do not overlap is,
as a number, the sum of the fields at their places; and `mask & (word >> shift)` is a quotient
and a remainder. What a field holds is then a matter of arithmetic.
-/

namespace BitFields

variable {x y : BitVec 32} {n k : Nat}

/-- The mask of `n` bits. -/
def mask (n : Nat) : BitVec 32 := BitVec.ofNat 32 (2 ^ n - 1)

/-- The mask of some bits as a number. -/
theorem toNat_mask (hn : n ≤ 32) : (mask n).toNat = 2 ^ n - 1 := by
  have hpow : 2 ^ n ≤ 2 ^ 32 := Nat.pow_le_pow_right (by decide) hn
  have hpos : 0 < 2 ^ n := Nat.two_pow_pos n
  rw [mask, BitVec.toNat_ofNat, Nat.mod_eq_of_lt (by omega)]

/-- A masked value is its remainder. -/
theorem toNat_mask_and (hn : n ≤ 32) : (mask n &&& x).toNat = x.toNat % 2 ^ n := by
  rw [BitVec.toNat_and, toNat_mask hn, Nat.and_comm, Nat.and_two_pow_sub_one_eq_mod]

/-- A field at its place. -/
theorem toNat_place (hn : n + k ≤ 32) : ((mask n &&& x) <<< k).toNat = x.toNat % 2 ^ n * 2 ^ k := by
  have hlt : x.toNat % 2 ^ n < 2 ^ n := Nat.mod_lt _ (Nat.two_pow_pos n)
  have hle : x.toNat % 2 ^ n * 2 ^ k < 2 ^ 32 := by
    calc x.toNat % 2 ^ n * 2 ^ k < 2 ^ n * 2 ^ k :=
      Nat.mul_lt_mul_of_pos_right hlt (Nat.two_pow_pos k)
      _ = 2 ^ (n + k) := (Nat.pow_add 2 n k).symm
      _ ≤ 2 ^ 32 := Nat.pow_le_pow_right (by decide) hn
  rw [BitVec.toNat_shiftLeft, toNat_mask_and (by omega), Nat.shiftLeft_eq, Nat.mod_eq_of_lt hle]

/-- Fields that lie at `k` and above, and those that lie below, add up. -/
theorem toNat_or (hx : 2 ^ k ∣ x.toNat) (hy : y.toNat < 2 ^ k) :
    (x ||| y).toNat = x.toNat + y.toNat := by
  obtain ⟨q, hq⟩ := hx
  rw [BitVec.toNat_or, hq, ← Nat.two_pow_add_eq_or_of_lt hy]

/-- The field of `n` bits at `k`. -/
theorem toNat_get (hn : n ≤ 32) : (mask n &&& (x >>> k)).toNat = x.toNat / 2 ^ k % 2 ^ n := by
  rw [toNat_mask_and hn, BitVec.toNat_ushiftRight, Nat.shiftRight_eq_div_pow]

end BitFields
