import Mathlib.Data.Nat.Bitwise

/-!
# Thirty-two bit words

How the wrapping operations of `UInt32` read on the natural numbers below `2 ^ 32`.
-/

namespace BitvmNode.Reasoning

variable {m : Nat}

theorem u32_toNat_ofNat (hm : m < 2 ^ 32) : (UInt32.ofNat m).toNat = m :=
  UInt32.toNat_ofNat_of_lt hm

theorem u32_eq_zero_iff (x : UInt32) : x = 0 ↔ x.toNat = 0 := by
  rw [← UInt32.toNat_inj]
  rfl

theorem u32_mod_two_eq_one_iff (x : UInt32) : x % 2 = 1 ↔ x.toNat % 2 = 1 := by
  rw [← UInt32.toNat_inj, UInt32.toNat_mod]
  rfl

theorem u32_mod_two_eq_zero_iff (x : UInt32) : x % 2 = 0 ↔ x.toNat % 2 = 0 := by
  rw [← UInt32.toNat_inj, UInt32.toNat_mod]
  rfl

theorem u32_toNat_half (x : UInt32) : (x / 2).toNat = x.toNat / 2 := by
  rfl

theorem u32_half_ofNat (hm : m < 2 ^ 32) : UInt32.ofNat m / 2 = UInt32.ofNat (m / 2) := by
  apply UInt32.toNat_inj.mp
  rw [u32_toNat_half, u32_toNat_ofNat hm, u32_toNat_ofNat (by omega)]

theorem u32_ofNat_add_one (m : Nat) : UInt32.ofNat m + 1 = UInt32.ofNat (m + 1) := by
  apply UInt32.toNat_inj.mp
  change (m % 2 ^ 32 + 1) % 2 ^ 32 = (m + 1) % 2 ^ 32
  omega

theorem u32_ofNat_sub_one (hm : 0 < m) : UInt32.ofNat m - 1 = UInt32.ofNat (m - 1) := by
  have h := u32_ofNat_add_one (m - 1)
  rw [Nat.sub_add_cancel hm] at h
  rw [← h, UInt32.add_sub_cancel]

theorem u32_ofNat_inj {n : Nat} (hm : m < 2 ^ 32) (hn : n < 2 ^ 32) :
    UInt32.ofNat m = UInt32.ofNat n ↔ m = n := by
  rw [← UInt32.toNat_inj, u32_toNat_ofNat hm, u32_toNat_ofNat hn]

theorem u32_ofNat_mod_eq_iff (hm : m < 2 ^ 32) (c d : UInt32) :
    UInt32.ofNat m % c = d ↔ m % c.toNat = d.toNat := by
  rw [← UInt32.toNat_inj, UInt32.toNat_mod, u32_toNat_ofNat hm]

variable {i : Nat}

theorem u32_toNat_one_shiftLeft (hi : i < 32) :
    ((1 : UInt32) <<< UInt32.ofNat i).toNat = 2 ^ i := by
  rw [UInt32.toNat_shiftLeft, u32_toNat_ofNat (by omega)]
  change (1 <<< (i % 32)) % 2 ^ 32 = 2 ^ i
  rw [Nat.mod_eq_of_lt hi, Nat.one_shiftLeft]
  exact Nat.mod_eq_of_lt (Nat.pow_lt_pow_right (by decide) hi)

theorem u32_and_bit_eq_zero_iff (x : UInt32) (hi : i < 32) :
    x &&& ((1 : UInt32) <<< UInt32.ofNat i) = 0 ↔ x.toNat / 2 ^ i % 2 = 0 := by
  rw [u32_eq_zero_iff, UInt32.toNat_and, u32_toNat_one_shiftLeft hi, Nat.and_two_pow,
    Nat.testBit_eq_decide_div_mod_eq]
  rcases Nat.mod_two_eq_zero_or_one (x.toNat / 2 ^ i) with h | h
  · simp [h]
  · simp [h]

theorem u32_toNat_and_mask (x : UInt32) (hi : i < 32) :
    (x &&& ((1 : UInt32) <<< UInt32.ofNat i - 1)).toNat = x.toNat % 2 ^ i := by
  have hp : 1 ≤ 2 ^ i := Nat.one_le_two_pow
  have hone : (1 : UInt32) ≤ (1 : UInt32) <<< UInt32.ofNat i := by
    rw [UInt32.le_iff_toNat_le, u32_toNat_one_shiftLeft hi]
    exact hp
  rw [UInt32.toNat_and, UInt32.toNat_sub_of_le _ _ hone, u32_toNat_one_shiftLeft hi]
  exact Nat.and_two_pow_sub_one_eq_mod _ _

theorem u32_toNat_shiftRight (x : UInt32) (hi : i < 32) :
    (x >>> UInt32.ofNat i).toNat = x.toNat / 2 ^ i := by
  rw [UInt32.toNat_shiftRight, u32_toNat_ofNat (by omega), Nat.mod_eq_of_lt hi,
    Nat.shiftRight_eq_div_pow]

end BitvmNode.Reasoning
