import Mathlib.Data.Int.Log
import Mathlib.Data.Rat.Floor
import Mathlib.Tactic.Linarith

/-!
# Rounding to the nearest

A rounding takes its argument to a nearest of the values that it takes.  That alone makes it
monotone and idempotent.  `f64` is the rounding of binary64 numbers, ties to even; an operation
on such numbers is the exact one followed by `f64`, as long as it does not overflow.
-/

namespace BitvmNode.Reasoning

section Nearest

variable {K : Type} [Field K] [LinearOrder K] [IsStrictOrderedRing K]

def Nearest (round : K → K) : Prop := ∀ x y, |round x - x| ≤ |round y - x|

variable {round : K → K}

theorem Nearest.round_round (h : Nearest round) (x : K) : round (round x) = round x := by
  have hclose := h (round x) x
  rw [sub_self, abs_zero] at hclose
  exact sub_eq_zero.mp (abs_nonpos_iff.mp hclose)

theorem two_mul_le_of_abs_le {a b x : K} (hlt : a < b) (h : |a - x| ≤ |b - x|) :
    2 * x ≤ a + b := by
  have hsq := sq_le_sq.mpr h
  have hprod : (b - a) * (2 * x) ≤ (b - a) * (a + b) := by linarith
  exact le_of_mul_le_mul_left hprod (sub_pos.mpr hlt)

theorem le_two_mul_of_abs_le {a b x : K} (hlt : a < b) (h : |b - x| ≤ |a - x|) :
    a + b ≤ 2 * x := by
  have hsq := sq_le_sq.mpr h
  have hprod : (b - a) * (a + b) ≤ (b - a) * (2 * x) := by linarith
  exact le_of_mul_le_mul_left hprod (sub_pos.mpr hlt)

theorem Nearest.monotone (h : Nearest round) : Monotone round := by
  intro x y hle
  by_contra hcross
  have hlt : round y < round x := not_le.mp hcross
  -- both arguments would be the midpoint of the two values
  have hx : round y + round x ≤ 2 * x := le_two_mul_of_abs_le hlt (h x y)
  have hy : 2 * y ≤ round y + round x := two_mul_le_of_abs_le hlt (h y x)
  have heq : x = y := by linarith
  exact hlt.ne (by rw [heq])

end Nearest

def roundTiesEven (q : ℚ) : ℤ :=
  if q - ⌊q⌋ < 1 / 2 then ⌊q⌋
  else if 1 / 2 < q - ⌊q⌋ then ⌊q⌋ + 1
  else if ⌊q⌋ % 2 = 0 then ⌊q⌋ else ⌊q⌋ + 1

theorem roundTiesEven_eq (q : ℚ) :
    (roundTiesEven q = ⌊q⌋ ∧ q - ⌊q⌋ ≤ 1 / 2) ∨
      (roundTiesEven q = ⌊q⌋ + 1 ∧ 1 / 2 ≤ q - ⌊q⌋) := by
  unfold roundTiesEven
  split_ifs with hlow hhigh heven
  · exact .inl ⟨rfl, hlow.le⟩
  · exact .inr ⟨rfl, hhigh.le⟩
  · exact .inl ⟨rfl, not_lt.mp hhigh⟩
  · exact .inr ⟨rfl, not_lt.mp hlow⟩

theorem abs_roundTiesEven_sub_le (q : ℚ) (n : ℤ) : |(roundTiesEven q : ℚ) - q| ≤ |(n : ℚ) - q| := by
  have hlow := Int.floor_le q
  have hhigh := Int.lt_floor_add_one q
  -- an integer is below the floor or above its successor
  have hfar : (n : ℚ) ≤ ⌊q⌋ ∨ (⌊q⌋ : ℚ) + 1 ≤ n := by
    rcases le_or_gt n ⌊q⌋ with h | h
    · exact .inl (by exact_mod_cast h)
    · exact .inr (by exact_mod_cast h)
  have hround : |(roundTiesEven q : ℚ) - q| = min (q - ⌊q⌋) (⌊q⌋ + 1 - q) := by
    rcases roundTiesEven_eq q with ⟨heq, hhalf⟩ | ⟨heq, hhalf⟩
    · rw [heq, abs_sub_comm, abs_of_nonneg (by linarith), min_eq_left (by linarith)]
    · rw [heq, Int.cast_add, Int.cast_one, abs_of_nonneg (by linarith), min_eq_right (by linarith)]
  rw [hround]
  rcases hfar with h | h
  · rw [abs_sub_comm, abs_of_nonneg (by linarith)]
    exact (min_le_left _ _).trans (by linarith)
  · rw [abs_of_nonneg (by linarith)]
    exact (min_le_right _ _).trans (by linarith)

theorem abs_roundTiesEven_le {q : ℚ} {n : ℤ} (h : |q| < n) : |roundTiesEven q| ≤ n := by
  obtain ⟨hneg, hpos⟩ := abs_lt.mp h
  have hfloor : -n ≤ ⌊q⌋ := Int.le_floor.mpr (by push_cast; exact hneg.le)
  have hsucc : ⌊q⌋ + 1 ≤ n := Int.floor_lt.mpr hpos
  apply abs_le.mpr
  rcases roundTiesEven_eq q with ⟨heq, -⟩ | ⟨heq, -⟩ <;> rw [heq] <;> constructor <;> omega

/-- The exponent of the last of the 53 bits of a number; subnormal numbers share one. -/
def ulpExponent (x : ℚ) : ℤ := max (Int.log 2 |x| - 52) (-1074)

def f64 (x : ℚ) : ℚ := roundTiesEven (x / 2 ^ ulpExponent x) * 2 ^ ulpExponent x

example : f64 (1 / 10) = 3602879701896397 / 36028797018963968 := by decide +kernel

theorem two_zpow_pos (e : ℤ) : (0 : ℚ) < 2 ^ e := zpow_pos (by norm_num) e

theorem abs_f64_sub_le_grid (x : ℚ) (n : ℤ) :
    |f64 x - x| ≤ |(n : ℚ) * 2 ^ ulpExponent x - x| := by
  have hpos := two_zpow_pos (ulpExponent x)
  have hscale (m : ℚ) : |m * 2 ^ ulpExponent x - x| =
      |m - x / 2 ^ ulpExponent x| * 2 ^ ulpExponent x := by
    rw [← abs_of_pos hpos, ← abs_mul, abs_of_pos hpos, sub_mul, div_mul_cancel₀ _ hpos.ne']
  unfold f64
  rw [hscale, hscale]
  exact mul_le_mul_of_nonneg_right (abs_roundTiesEven_sub_le _ n) hpos.le

theorem abs_f64_le (x : ℚ) : |f64 x| ≤ 2 ^ (ulpExponent x + 53) := by
  have hpos := two_zpow_pos (ulpExponent x)
  have hlog : |x| < 2 ^ (Int.log 2 |x| + 1) := Int.lt_zpow_succ_log_self (by decide) |x|
  have hexp : Int.log 2 |x| + 1 ≤ ulpExponent x + 53 := by
    unfold ulpExponent
    omega
  have hbound : |x| < 2 ^ (ulpExponent x + 53) :=
    hlog.trans_le (zpow_le_zpow_right₀ (by norm_num) hexp)
  rw [zpow_add₀ (by norm_num)] at hbound ⊢
  have hquot : |x / 2 ^ ulpExponent x| < ((2 ^ 53 : ℤ) : ℚ) := by
    rw [abs_div, abs_of_pos hpos, div_lt_iff₀ hpos, mul_comm]
    exact_mod_cast hbound
  have hround : |(roundTiesEven (x / 2 ^ ulpExponent x) : ℚ)| ≤ 2 ^ 53 := by
    exact_mod_cast abs_roundTiesEven_le hquot
  unfold f64
  rw [abs_mul, abs_of_pos hpos, mul_comm]
  exact mul_le_mul_of_nonneg_left hround hpos.le

theorem nearest_f64 : Nearest f64 := by
  intro x y
  by_cases hzero : x = 0
  · subst hzero
    have hround : f64 0 = 0 := by simp [f64, roundTiesEven]
    rw [hround]
    simp
  rcases le_or_gt (ulpExponent x) (ulpExponent y) with hle | hlt
  · -- the spacing at `y` is a multiple of the spacing at `x`
    obtain ⟨k, hk⟩ := Int.le.dest hle
    have hgrid := abs_f64_sub_le_grid x (roundTiesEven (y / 2 ^ ulpExponent y) * 2 ^ k)
    have hvalue : f64 y = ((roundTiesEven (y / 2 ^ ulpExponent y) * 2 ^ k : ℤ) : ℚ) *
        2 ^ ulpExponent x := by
      rw [f64, ← hk, zpow_add₀ (by norm_num), zpow_natCast]
      push_cast
      ring
    rwa [hvalue]
  · -- the value at `y` is no larger than the least number with the spacing of `x`
    have hexp : Int.log 2 |x| = ulpExponent x + 52 := by
      unfold ulpExponent at hlt ⊢
      omega
    have hleast : (2 : ℚ) ^ (ulpExponent x + 52) ≤ |x| := by
      rw [← hexp]
      exact Int.zpow_log_le_self (by decide) (abs_pos.mpr hzero)
    have hsmall : |f64 y| ≤ 2 ^ (ulpExponent x + 52) :=
      (abs_f64_le y).trans (zpow_le_zpow_right₀ (by norm_num) (by omega))
    have hsplit : (2 : ℚ) ^ (ulpExponent x + 52) = 2 ^ 52 * 2 ^ ulpExponent x := by
      rw [zpow_add₀ (by norm_num), mul_comm]
      norm_cast
    have hedge : |f64 x - x| ≤ |x| - 2 ^ (ulpExponent x + 52) := by
      rcases le_total 0 x with hsign | hsign
      · have hgrid := abs_f64_sub_le_grid x (2 ^ 52)
        rw [abs_of_nonneg hsign] at hleast ⊢
        rw [Int.cast_pow, Int.cast_ofNat, ← hsplit] at hgrid
        refine hgrid.trans_eq ?_
        rw [abs_sub_comm, abs_of_nonneg (sub_nonneg.mpr hleast)]
      · have hgrid := abs_f64_sub_le_grid x (-2 ^ 52)
        rw [abs_of_nonpos hsign] at hleast ⊢
        rw [Int.cast_neg, Int.cast_pow, Int.cast_ofNat, neg_mul, ← hsplit] at hgrid
        refine hgrid.trans_eq ?_
        rw [abs_of_nonneg (by linarith)]
        ring
    calc |f64 x - x| ≤ |x| - 2 ^ (ulpExponent x + 52) := hedge
      _ ≤ |x| - |f64 y| := by linarith
      _ ≤ |x - f64 y| := abs_sub_abs_le_abs_sub x (f64 y)
      _ = |f64 y - x| := abs_sub_comm _ _

theorem f64_monotone : Monotone f64 := nearest_f64.monotone

@[simp]
theorem f64_f64 (x : ℚ) : f64 (f64 x) = f64 x := nearest_f64.round_round x

end BitvmNode.Reasoning
