import ImageDigest.Proofs.Number.FloatArithmetic
import ImageDigest.Proofs.Number.Word
import ImageDigest.Proofs.Sharpness.Extremes

/-! The mean squared Laplacian computed in machine words. Nothing is read outside of the buffer and
no word overflows, so the sum under the quotient is exact. -/

namespace ImageDigest

namespace Buffer

open Number

variable {b : Buffer} {x y : ℕ}

def sample? (b : Buffer) (x y : ℕ) : Option ℤ :=
  if x < b.size.width ∧ y < b.size.height then
    b.data[(y * b.size.width + x) * b.channels]?.map fun v => (v.toNat : ℤ)
  else none

/-- The Laplacian of a pixel, with every step of it in a word. -/
def laplacian? (b : Buffer) (x y : ℕ) : Option ℤ := do
  let center ← signedWord? (4 * (← b.sample? x y))
  let top ← signedWord? (center - (← b.sample? x (← y.ppred)))
  let bottom ← signedWord? (top - (← b.sample? x (y + 1)))
  let left ← signedWord? (bottom - (← b.sample? (← x.ppred) y))
  signedWord? (left - (← b.sample? (x + 1) y))

def addSquare? (b : Buffer) (sum : ℕ) (cell : ℕ × ℕ) : Option ℕ := do
  let size := (← b.laplacian? cell.1 cell.2).natAbs
  longWord? (sum + (← longWord? (size * size)))

def squaredLaplacianSum? (b : Buffer) : Option ℕ := b.interior.foldlM b.addSquare? 0

/-- The mean squared Laplacian; there is no answer where a word overflows. -/
def laplacianVariance? (b : Buffer) : Option (Option Float) :=
  if b.size.width < 3 ∨ b.size.height < 3 then some none
  else do
    let sum ← b.squaredLaplacianSum?
    let pixels ← longWord? ((b.size.width - 2) * (b.size.height - 2))
    return some (Float.ofNat sum / Float.ofNat pixels)

section Steps

theorem signedWord_of_small {n : ℤ} (low : -1020 ≤ n) (high : n ≤ 1020) :
    signedWord? n = some n :=
  if_pos ⟨by omega, by omega⟩

theorem sample?_eq (column : x < b.size.width) (row : y < b.size.height) :
    b.sample? x y = some (b.sample x y) := by
  rw [sample?, if_pos ⟨column, row⟩, getElem?_data (first_lt column row), Option.map_some, sample,
    firstChannel]

/-- All five pixels are there, and no difference on the way leaves `-1020` to `1020`. -/
theorem laplacian?_eq (member : (x, y) ∈ b.interior) :
    b.laplacian? x y = some (b.laplacian x y) := by
  obtain ⟨⟨left, right⟩, top, bottom⟩ := (b.mem_interior x y).mp member
  have center := b.sample_bounds x y
  have above := b.sample_bounds x (y - 1)
  have below := b.sample_bounds x (y + 1)
  have before := b.sample_bounds (x - 1) y
  have behind := b.sample_bounds (x + 1) y
  have column : x.ppred = some (x - 1) := Nat.ppred_eq_some.mpr (Nat.sub_add_cancel left)
  have row : y.ppred = some (y - 1) := Nat.ppred_eq_some.mpr (Nat.sub_add_cancel top)
  have columns : x - 1 < b.size.width ∧ x < b.size.width := by omega
  have rows : y - 1 < b.size.height ∧ y < b.size.height := by omega
  rw [laplacian_eq_cross, cross, laplacian?, column, row]
  simp only [Option.bind_eq_bind]
  rw [sample?_eq columns.2 rows.2, Option.bind_some, signedWord_of_small, Option.bind_some,
    Option.bind_some, sample?_eq columns.2 rows.1, Option.bind_some, signedWord_of_small,
    Option.bind_some, sample?_eq columns.2 bottom, Option.bind_some, signedWord_of_small,
    Option.bind_some, Option.bind_some, sample?_eq columns.1 rows.2, Option.bind_some,
    signedWord_of_small, Option.bind_some, sample?_eq right rows.2, Option.bind_some,
    signedWord_of_small]
  all_goals omega

theorem addSquare?_eq {sum : ℕ} {cell : ℕ × ℕ} (member : cell ∈ b.interior)
    (room : sum + b.squaredLaplacian cell.1 cell.2 < 2 ^ 64) :
    b.addSquare? sum cell = some (sum + b.squaredLaplacian cell.1 cell.2) := by
  have square : longWord? (b.squaredLaplacian cell.1 cell.2) =
      some (b.squaredLaplacian cell.1 cell.2) := longWord_of_lt (by omega)
  simp only [addSquare?, laplacian?_eq member, Option.bind_eq_bind, Option.bind_some]
  rw [← squaredLaplacian, square, Option.bind_some, longWord_of_lt room]

theorem foldlM_addSquare (cells : List (ℕ × ℕ)) (inner : ∀ cell ∈ cells, cell ∈ b.interior)
    (sum : ℕ)
    (room : sum + total (cells.map fun cell => b.squaredLaplacian cell.1 cell.2) < 2 ^ 64) :
    cells.foldlM b.addSquare? sum =
      some (sum + total (cells.map fun cell => b.squaredLaplacian cell.1 cell.2)) := by
  induction cells generalizing sum with
  | nil => rfl
  | cons cell rest ih =>
      rw [List.map_cons, total_cons, ← Nat.add_assoc] at room ⊢
      rw [List.foldlM_cons, addSquare?_eq (inner cell List.mem_cons_self) (by omega),
        Option.bind_eq_bind, Option.bind_some]
      exact ih (fun c member => inner c (List.mem_cons_of_mem cell member)) _ room

theorem squaredLaplacianSum?_eq
    (pixels : (b.size.width - 2) * (b.size.height - 2) < 2 ^ 43) :
    b.squaredLaplacianSum? = some b.squaredLaplacianSum := by
  have most := b.squaredLaplacianSum_le
  have sum : b.squaredLaplacianSum =
      total (b.interior.map fun cell => b.squaredLaplacian cell.1 cell.2) := rfl
  rw [sum] at most ⊢
  rw [squaredLaplacianSum?, foldlM_addSquare b.interior (fun _ member => member) 0 (by omega),
    Nat.zero_add]

theorem laplacianVariance?_eq
    (pixels : (b.size.width - 2) * (b.size.height - 2) < 2 ^ 43) :
    b.laplacianVariance? = some b.laplacianVariance := by
  rw [laplacianVariance?, laplacianVariance]
  split
  case isTrue => rfl
  case isFalse =>
    have word : longWord? ((b.size.width - 2) * (b.size.height - 2)) = some _ :=
      longWord_of_lt (by omega)
    rw [squaredLaplacianSum?_eq pixels, word]
    rfl

end Steps

theorem laplacianVariance_of_small (small : b.size.width < 3 ∨ b.size.height < 3) :
    b.laplacianVariance = none := if_pos small

theorem laplacianVariance_of_large (columns : 3 ≤ b.size.width) (rows : 3 ≤ b.size.height) :
    b.laplacianVariance = some (Float.ofNat b.squaredLaplacianSum /
      Float.ofNat ((b.size.width - 2) * (b.size.height - 2))) :=
  if_neg (by omega)

/-- Both whole numbers are converted, then one is divided by the other, and only the first
conversion and the quotient are rounded. -/
theorem represents_variance (columns : 3 ≤ b.size.width) (rows : 3 ≤ b.size.height)
    (pixels : (b.size.width - 2) * (b.size.height - 2) < 2 ^ 43) :
    Represents 128 (Float.ofNat b.squaredLaplacianSum /
        Float.ofNat ((b.size.width - 2) * (b.size.height - 2)))
      (nearest (nearest b.squaredLaplacianSum /
        ((b.size.width - 2) * (b.size.height - 2) : ℕ))) := by
  have most := b.squaredLaplacianSum_le
  have sum := represents_ofNat (k := b.squaredLaplacianSum) (by omega)
  have count := represents_ofNat (k := (b.size.width - 2) * (b.size.height - 2)) (by omega)
  have positive : 0 < (b.size.width - 2) * (b.size.height - 2) :=
    Nat.mul_pos (Nat.sub_pos_of_lt columns) (Nat.sub_pos_of_lt rows)
  rw [nearest_natCast (by omega)] at count
  exact sum.div count (by exact_mod_cast positive) (by norm_num)

/-- In words the mean squared Laplacian has the value that it has in whole numbers, and the sum
under it is zero for level buffers only and the largest there is for isolated pixels only. -/
theorem laplacianVariance_exact (b : Buffer) :
    (3 ≤ b.size.width → 3 ≤ b.size.height →
      (b.size.width - 2) * (b.size.height - 2) < 2 ^ 43 →
      b.laplacianVariance? = some b.laplacianVariance ∧
      ∃ mean : Float, b.laplacianVariance = some mean ∧
        mean = Float.ofNat b.squaredLaplacianSum /
          Float.ofNat ((b.size.width - 2) * (b.size.height - 2)) ∧
        Represents 128 mean (nearest (nearest b.squaredLaplacianSum /
          ((b.size.width - 2) * (b.size.height - 2) : ℕ)))) ∧
    (b.squaredLaplacianSum : ℤ) =
      ∑ x ∈ Finset.Ico 1 (b.size.width - 1), ∑ y ∈ Finset.Ico 1 (b.size.height - 1),
        (4 * b.sample x y - b.sample x (y - 1) - b.sample x (y + 1) - b.sample (x - 1) y -
          b.sample (x + 1) y) ^ 2 ∧
    b.squaredLaplacianSum ≤ 1020 ^ 2 * ((b.size.width - 2) * (b.size.height - 2)) ∧
    (b.squaredLaplacianSum = 0 ↔ ∀ x y, (x, y) ∈ b.interior → b.Level x y) ∧
    (b.Affine → b.squaredLaplacianSum = 0) ∧
    (b.squaredLaplacianSum = 1020 ^ 2 * ((b.size.width - 2) * (b.size.height - 2)) ↔
      ∀ x y, (x, y) ∈ b.interior → b.Isolated x y) ∧
    (¬ (3 ≤ b.size.width ∧ 3 ≤ b.size.height) → b.laplacianVariance = none) := by
  refine ⟨?_, b.squaredLaplacianSum_cast, b.squaredLaplacianSum_le,
    b.squaredLaplacianSum_eq_zero_iff, ?_, b.squaredLaplacianSum_eq_most_iff, ?_⟩
  · intro columns rows pixels
    exact ⟨laplacianVariance?_eq pixels, _, laplacianVariance_of_large columns rows, rfl,
      represents_variance columns rows pixels⟩
  · intro affine
    exact b.squaredLaplacianSum_eq_zero_iff.mpr fun _ _ member => affine.level member
  · intro small
    exact laplacianVariance_of_small (by omega)

def checkered : Buffer := gray ⟨4, 3⟩ fun x y => if (x + y) % 2 = 0 then 255 else 0

def ramp : Buffer := gray ⟨5, 4⟩ fun x y => UInt8.ofNat (10 * x + 20 * y + 3)

theorem laplacianVariance_exact_checkered :
    (∃ mean : Float, checkered.laplacianVariance? = some (some mean) ∧
      mean = Float.ofNat (1020 ^ 2 * 2) / Float.ofNat 2) ∧
    (∀ x y, (x, y) ∈ checkered.interior → checkered.Isolated x y) ∧
    ramp.Affine ∧ ramp.squaredLaplacianSum = 0 ∧
    (gray ⟨2, 100⟩ fun _ _ => 9).laplacianVariance = none := by
  obtain ⟨words, -, -, -, -, most, -⟩ := laplacianVariance_exact checkered
  obtain ⟨-, -, -, -, flat, -, -⟩ := laplacianVariance_exact ramp
  obtain ⟨-, -, -, -, -, -, absent⟩ := laplacianVariance_exact (gray ⟨2, 100⟩ fun _ _ => 9)
  have sum : checkered.squaredLaplacianSum = 1020 ^ 2 * 2 := by decide +kernel
  have plane : ∀ x < 5, ∀ y < 4, ramp.sample x y = 10 * x + 20 * y + 3 := by decide +kernel
  have affine : ramp.Affine := by
    refine ⟨10, 20, 3, ?_⟩
    intro x column y row
    exact_mod_cast plane x column y row
  obtain ⟨same, mean, value, quotient, -⟩ := words (by decide) (by decide) (by decide)
  rw [sum] at quotient
  refine ⟨⟨mean, ?_, quotient⟩, most.mp sum, affine, flat affine, absent (by decide)⟩
  rw [same, value]

end Buffer

end ImageDigest
