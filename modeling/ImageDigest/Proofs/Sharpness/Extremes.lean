import ImageDigest.Proofs.Sharpness
import Mathlib.Algebra.BigOperators.Ring.Finset
import Mathlib.Algebra.Order.BigOperators.Group.Finset
import Mathlib.Data.Real.Basic
import Mathlib.Order.Interval.Finset.Nat
import Mathlib.Tactic.Ring

/-! The least and the largest sum of squared Laplacians, and the buffers that have them. -/

namespace ImageDigest.Buffer

variable {b : Buffer} {x y : ℕ}

section Pixel

theorem sample_bounds (b : Buffer) (x y : ℕ) : 0 ≤ b.sample x y ∧ b.sample x y ≤ 255 := by
  have bound := (b.firstChannel x y).toNat_lt
  unfold sample
  omega

theorem sample_eq_iff {v : UInt8} : b.sample x y = v.toNat ↔ b.firstChannel x y = v := by
  rw [sample, Nat.cast_inj, UInt8.toNat_inj]

def Level (b : Buffer) (x y : ℕ) : Prop :=
  4 * b.sample x y =
    b.sample x (y - 1) + b.sample x (y + 1) + b.sample (x - 1) y + b.sample (x + 1) y

def Surrounded (b : Buffer) (x y : ℕ) (center neighbour : UInt8) : Prop :=
  b.firstChannel x y = center ∧ b.firstChannel x (y - 1) = neighbour ∧
    b.firstChannel x (y + 1) = neighbour ∧ b.firstChannel (x - 1) y = neighbour ∧
    b.firstChannel (x + 1) y = neighbour

/-- The pixel is black and its neighbours are white, or the other way round. -/
def Isolated (b : Buffer) (x y : ℕ) : Prop := b.Surrounded x y 0 255 ∨ b.Surrounded x y 255 0

theorem laplacian_le (b : Buffer) (x y : ℕ) : (b.laplacian x y).natAbs ≤ 1020 := by
  have center := b.sample_bounds x y
  have top := b.sample_bounds x (y - 1)
  have bottom := b.sample_bounds x (y + 1)
  have left := b.sample_bounds (x - 1) y
  have right := b.sample_bounds (x + 1) y
  rw [laplacian_eq_cross, cross]
  omega

theorem laplacian_eq_zero_iff : b.laplacian x y = 0 ↔ b.Level x y := by
  rw [laplacian_eq_cross, cross, Level]
  omega

theorem laplacian_eq_most_iff : (b.laplacian x y).natAbs = 1020 ↔ b.Isolated x y := by
  have center := b.sample_bounds x y
  have top := b.sample_bounds x (y - 1)
  have bottom := b.sample_bounds x (y + 1)
  have left := b.sample_bounds (x - 1) y
  have right := b.sample_bounds (x + 1) y
  have black : ((0 : UInt8).toNat : ℤ) = 0 := rfl
  have white : ((255 : UInt8).toNat : ℤ) = 255 := rfl
  simp only [Isolated, Surrounded, ← sample_eq_iff, black, white]
  rw [laplacian_eq_cross, cross]
  omega

end Pixel

section Sum

theorem interior_eq_product (b : Buffer) :
    b.interior.toFinset =
      Finset.Ico 1 (b.size.width - 1) ×ˢ Finset.Ico 1 (b.size.height - 1) := by
  ext ⟨x, y⟩
  rw [List.mem_toFinset, mem_interior, Finset.mem_product, Finset.mem_Ico, Finset.mem_Ico]
  omega

theorem interior_card (b : Buffer) :
    b.interior.toFinset.card = (b.size.width - 2) * (b.size.height - 2) := by
  rw [interior_eq_product, Finset.card_product, Nat.card_Ico, Nat.card_Ico]
  rfl

theorem squaredLaplacian_cast (b : Buffer) (x y : ℕ) :
    (b.squaredLaplacian x y : ℤ) = cross b.sample x y ^ 2 := by
  rw [squaredLaplacian, Nat.cast_mul, Int.natAbs_mul_self', ← laplacian_eq_cross, sq]

theorem squaredLaplacianSum_cast (b : Buffer) :
    (b.squaredLaplacianSum : ℤ) = ∑ x ∈ Finset.Ico 1 (b.size.width - 1),
      ∑ y ∈ Finset.Ico 1 (b.size.height - 1), cross b.sample x y ^ 2 := by
  rw [squaredLaplacianSum_eq_sum, interior_eq_product, Nat.cast_sum, Finset.sum_product]
  simp only [squaredLaplacian_cast]

theorem squaredLaplacian_le (b : Buffer) (x y : ℕ) : b.squaredLaplacian x y ≤ 1020 ^ 2 := by
  rw [sq]
  exact Nat.mul_le_mul (b.laplacian_le x y) (b.laplacian_le x y)

theorem squaredLaplacianSum_le (b : Buffer) :
    b.squaredLaplacianSum ≤ 1020 ^ 2 * ((b.size.width - 2) * (b.size.height - 2)) := by
  rw [squaredLaplacianSum_eq_sum, ← interior_card, mul_comm]
  exact Finset.sum_le_card_nsmul _ _ _ fun cell _ => b.squaredLaplacian_le cell.1 cell.2

theorem squaredLaplacianSum_eq_zero_iff (b : Buffer) :
    b.squaredLaplacianSum = 0 ↔ ∀ x y, (x, y) ∈ b.interior → b.Level x y := by
  rw [squaredLaplacianSum_eq_sum, Finset.sum_eq_zero_iff]
  simp only [List.mem_toFinset, Prod.forall, squaredLaplacian, mul_self_eq_zero, Int.natAbs_eq_zero,
    laplacian_eq_zero_iff]

theorem squaredLaplacianSum_eq_most_iff (b : Buffer) :
    b.squaredLaplacianSum = 1020 ^ 2 * ((b.size.width - 2) * (b.size.height - 2)) ↔
      ∀ x y, (x, y) ∈ b.interior → b.Isolated x y := by
  have each (x y : ℕ) : b.squaredLaplacian x y = 1020 ^ 2 ↔ b.Isolated x y := by
    rw [squaredLaplacian, ← sq, Nat.pow_left_inj two_ne_zero, laplacian_eq_most_iff]
  have most : 1020 ^ 2 * ((b.size.width - 2) * (b.size.height - 2)) =
      ∑ _cell ∈ b.interior.toFinset, 1020 ^ 2 := by
    rw [Finset.sum_const, interior_card, smul_eq_mul, mul_comm]
  rw [squaredLaplacianSum_eq_sum, most,
    Finset.sum_eq_sum_iff_of_le fun cell _ => b.squaredLaplacian_le cell.1 cell.2]
  simp only [List.mem_toFinset, Prod.forall, each]

def Affine (b : Buffer) : Prop :=
  ∃ p q r : ℝ, ∀ x < b.size.width, ∀ y < b.size.height, (b.sample x y : ℝ) = p * x + q * y + r

theorem Affine.level (affine : b.Affine) (member : (x, y) ∈ b.interior) : b.Level x y := by
  obtain ⟨p, q, r, plane⟩ := affine
  obtain ⟨⟨left, right⟩, top, bottom⟩ := (b.mem_interior x y).mp member
  have around : 4 * (b.sample x y : ℝ) =
      b.sample x (y - 1) + b.sample x (y + 1) + b.sample (x - 1) y + b.sample (x + 1) y := by
    rw [plane x (by omega) y (by omega), plane x (by omega) (y - 1) (by omega),
      plane x (by omega) (y + 1) bottom, plane (x - 1) (by omega) y (by omega),
      plane (x + 1) right y (by omega), Nat.cast_sub left, Nat.cast_sub top]
    push_cast
    ring
  unfold Level
  exact_mod_cast around

end Sum

end ImageDigest.Buffer
