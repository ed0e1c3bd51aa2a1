import Mathlib.Data.Int.Log
import Mathlib.Data.Rat.Floor
import Mathlib.Tactic.Linarith
import Mathlib.Tactic.NormNum
import Mathlib.Tactic.Positivity

/-!
# Rounding to binary64

`binary64` is the double nearest to a rational that is not negative, ties to even, as if the
exponent had no upper end: the operations that round say themselves what they do with a value
that is not `isFinite`. The quotient of two integers and the product with a double are rounded
once each.
-/

set_option autoImplicit false

namespace LamTo.Library

/-- The nearest integer, ties to even. -/
def roundHalfEven (q : ℚ) : ℤ :=
  if q - ⌊q⌋ < 1 / 2 then ⌊q⌋
  else if 1 / 2 < q - ⌊q⌋ then ⌊q⌋ + 1
  else if ⌊q⌋ % 2 = 0 then ⌊q⌋
  else ⌊q⌋ + 1

/-- Rounding does not pass an integer. -/
theorem roundHalfEven_le (q : ℚ) (n : ℤ) (h : q ≤ n) : roundHalfEven q ≤ n := by
  have hfloor : ⌊q⌋ ≤ n := by
    have hle := Int.floor_le q
    exact_mod_cast hle.trans h
  unfold roundHalfEven
  by_cases hlt : ⌊q⌋ < n
  · split_ifs <;> omega
  · -- then `q` is the integer itself, and nothing is rounded
    have hn : ⌊q⌋ = n := by omega
    have hq : q - ⌊q⌋ < 1 / 2 := by
      rw [hn]
      linarith
    rw [if_pos hq, hn]

theorem roundHalfEven_nonneg (q : ℚ) (h : 0 ≤ q) : 0 ≤ roundHalfEven q := by
  have hfloor : 0 ≤ ⌊q⌋ := Int.floor_nonneg.mpr h
  unfold roundHalfEven
  split_ifs <;> omega

/-- The exponent of the last place: 53 digits, and none below the smallest subnormal. -/
def lastPlace (q : ℚ) : ℤ := max (Int.log 2 q - 52) (-1074)

def binary64 (q : ℚ) : ℚ := roundHalfEven (q / 2 ^ lastPlace q) * 2 ^ lastPlace q

/-- The doubles end below this power. -/
def isFinite (x : ℚ) : Bool := x < 2 ^ 1024

theorem binary64_nonneg (q : ℚ) (h : 0 ≤ q) : 0 ≤ binary64 q := by
  have hpow : (0 : ℚ) < 2 ^ lastPlace q := zpow_pos (by norm_num) _
  have hround := roundHalfEven_nonneg (q / 2 ^ lastPlace q) (div_nonneg h hpow.le)
  exact mul_nonneg (by exact_mod_cast hround) hpow.le

/-- **Rounding does not pass a power of two.** -/
theorem binary64_le_two_pow (q : ℚ) (k : ℕ) (hnonneg : 0 ≤ q) (h : q ≤ 2 ^ k) :
    binary64 q ≤ 2 ^ k := by
  rcases hnonneg.eq_or_lt with rfl | hpos
  · rw [binary64, zero_div, show roundHalfEven 0 = 0 by norm_num [roundHalfEven],
      Int.cast_zero, zero_mul]
    positivity
  have hlog : Int.log 2 q ≤ k := by
    have hmono := Int.log_mono_right (b := 2) hpos h
    have hk : Int.log 2 ((2 : ℚ) ^ k) = k := by
      have := Int.log_zpow (R := ℚ) (b := 2) (by norm_num) (k : ℤ)
      rw [zpow_natCast] at this
      exact_mod_cast this
    rwa [hk] at hmono
  have hplace : lastPlace q ≤ k := by
    unfold lastPlace
    omega
  obtain ⟨n, hn⟩ : ∃ n : ℕ, (k : ℤ) = lastPlace q + n := ⟨(k - lastPlace q).toNat, by omega⟩
  have hpow : (0 : ℚ) < 2 ^ lastPlace q := zpow_pos (by norm_num) _
  -- the power is a whole number of last places
  have hsplit : (2 : ℚ) ^ k = ((2 ^ n : ℤ) : ℚ) * 2 ^ lastPlace q := by
    rw [← zpow_natCast, hn, zpow_add₀ (by norm_num), zpow_natCast, mul_comm]
    norm_num
  have hround : roundHalfEven (q / 2 ^ lastPlace q) ≤ 2 ^ n := by
    apply roundHalfEven_le
    rw [div_le_iff₀ hpow, ← hsplit]
    exact h
  rw [binary64, hsplit]
  exact mul_le_mul_of_nonneg_right (by exact_mod_cast hround) hpow.le

theorem isFinite_of_le_two_pow (x : ℚ) (k : ℕ) (hk : k < 1024) (h : x ≤ 2 ^ k) :
    isFinite x = true := by
  refine decide_eq_true (lt_of_le_of_lt h ?_)
  exact pow_lt_pow_right₀ (by norm_num) hk

end LamTo.Library
