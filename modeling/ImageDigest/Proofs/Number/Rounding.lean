import ImageDigest.Number.Rounding
import Mathlib.Algebra.Order.Field.Basic
import Mathlib.Data.Rat.Cast.Order
import Mathlib.Tactic.FieldSimp
import Mathlib.Tactic.Linarith
import Mathlib.Tactic.NormNum
import Mathlib.Tactic.Positivity
import Mathlib.Tactic.Ring

namespace ImageDigest.Number

variable {num den k n : ℕ} {x : ℚ}

theorem halfUp_eq_iff (positive : 0 < den) :
    halfUp num den = k ↔ 2 * k * den ≤ 2 * num + den ∧ 2 * num + den < 2 * (k + 1) * den := by
  have room : 0 < 2 * den := Nat.mul_pos two_pos positive
  have low : 2 * k * den = k * (2 * den) := by ring
  have high : 2 * (k + 1) * den = (k + 1) * (2 * den) := by ring
  rw [halfUp, low, high, ← Nat.le_div_iff_mul_le room, ← Nat.div_lt_iff_lt_mul room]
  omega

theorem roundHalfUp_eq_iff (nonneg : 0 ≤ x) :
    roundHalfUp x = k ↔ (k : ℚ) - 1 / 2 ≤ x ∧ x < k + 1 / 2 := by
  have low := Rat.floor_le (x + 1 / 2)
  have high := Rat.lt_floor_add_one (x + 1 / 2)
  have sign : 0 ≤ (x + 1 / 2).floor := by
    rw [Rat.le_floor_iff]
    push_cast
    linarith
  have whole : ((roundHalfUp x : ℕ) : ℤ) = (x + 1 / 2).floor := Int.toNat_of_nonneg sign
  rw [← whole] at low high
  push_cast at low high
  constructor
  · rintro rfl
    constructor <;> linarith
  · rintro ⟨lower, upper⟩
    have least : (k : ℚ) < roundHalfUp x + 1 := by linarith
    have most : (roundHalfUp x : ℚ) < k + 1 := by linarith
    have least : k < roundHalfUp x + 1 := by exact_mod_cast least
    have most : roundHalfUp x < k + 1 := by exact_mod_cast most
    omega

theorem roundHalfUp_le (nonneg : 0 ≤ x) (atMost : x ≤ n) : roundHalfUp x ≤ n := by
  have lower := ((roundHalfUp_eq_iff nonneg).mp rfl).1
  have less : (roundHalfUp x : ℚ) < n + 1 := by linarith
  exact Nat.le_of_lt_succ (by exact_mod_cast less)

/-- Half a unit at most around the rounded number, with the upper end left out. -/
theorem halfUp_eq_iff_near (positive : 0 < den) :
    halfUp num den = k ↔ (k : ℚ) - 1 / 2 ≤ (num : ℚ) / den ∧ (num : ℚ) / den < k + 1 / 2 := by
  have room : (0 : ℚ) < den := by exact_mod_cast positive
  rw [halfUp_eq_iff positive, le_div_iff₀ room, div_lt_iff₀ room]
  apply and_congr
  · rw [← Nat.cast_le (α := ℚ)]
    push_cast
    constructor <;> intro bound <;> linarith
  · rw [← Nat.cast_lt (α := ℚ)]
    push_cast
    constructor <;> intro bound <;> linarith

theorem halfUp_eq_roundHalfUp (positive : 0 < den) :
    halfUp num den = roundHalfUp ((num : ℚ) / den) :=
  (halfUp_eq_iff_near positive).mpr ((roundHalfUp_eq_iff (by positivity)).mp rfl)

theorem halfUp_apart (positive : 0 < den) (rounded : halfUp num den = k) :
    (num : ℚ) / den + 1 / (2 * den) ≤ k + 1 / 2 := by
  have room : (0 : ℚ) < den := by exact_mod_cast positive
  obtain ⟨-, upper⟩ := (halfUp_eq_iff positive).mp rounded
  have whole : ((2 * num + den + 1 : ℕ) : ℚ) ≤ (2 * (k + 1) * den : ℕ) := by exact_mod_cast upper
  have sum : (num : ℚ) / den + 1 / (2 * den) = (2 * num + 1) / (2 * den) := by field_simp
  push_cast at whole
  rw [sum, div_le_iff₀ (by positivity)]
  linarith

theorem halfUp_zero (positive : 0 < den) : halfUp 0 den = 0 := by
  rw [halfUp_eq_iff positive]
  omega

theorem halfUp_le {most : ℕ} (positive : 0 < den) (bound : num ≤ most * den) :
    halfUp num den ≤ most := by
  have room : 0 < 2 * den := Nat.mul_pos two_pos positive
  have next : (most + 1) * (2 * den) = 2 * (most * den) + 2 * den := by ring
  rw [halfUp, ← Nat.lt_succ_iff, Nat.div_lt_iff_lt_mul room, Nat.succ_eq_add_one, next]
  omega

end ImageDigest.Number
