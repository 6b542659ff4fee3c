import ImageDigest.Sharpness
import ImageDigest.Proofs.Buffer
import ImageDigest.Proofs.Number.Total
import Mathlib.Algebra.BigOperators.Group.Finset.Basic
import Mathlib.Data.List.Nodup

namespace ImageDigest

variable {settings : SharpnessSettings} {b : Buffer}

def AboveCeiling (settings : SharpnessSettings) (b : Buffer) : Prop :=
  0 < settings.maxPixels ∧ settings.maxPixels < b.pixelCount

instance (settings : SharpnessSettings) (b : Buffer) : Decidable (AboveCeiling settings b) :=
  inferInstanceAs (Decidable (_ ∧ _))

theorem ceiling_of_pos (positive : 0 < settings.maxPixels) :
    settings.ceiling? = some settings.maxPixels :=
  if_neg (Nat.ne_of_gt positive)

theorem within_ceiling (within : ¬ AboveCeiling settings b) {ceiling : Nat}
    (limit : settings.ceiling? = some ceiling) : ¬ ceiling < b.pixelCount := by
  by_cases positive : 0 < settings.maxPixels
  · rw [ceiling_of_pos positive] at limit
    cases limit
    exact fun beyond => within ⟨positive, beyond⟩
  · rw [SharpnessSettings.ceiling?, if_pos (Nat.eq_zero_of_not_pos positive)] at limit
    cases limit

theorem AboveCeiling.hasPixels (above : AboveCeiling settings b) : b.size.HasPixels :=
  Size.hasPixels_of_area above.2

namespace Score

theorem ofBuffer_of_above (above : AboveCeiling settings b) :
    ofBuffer settings b = .error (.tooLarge b.pixelCount settings.maxPixels) := by
  simp only [ofBuffer, ceiling_of_pos above.1, if_pos above.2]

theorem ofBuffer_of_within (within : ¬ AboveCeiling settings b) :
    ofBuffer settings b = .ok (ofSamples settings b) := by
  cases limit : settings.ceiling? with
  | none => simp only [ofBuffer, limit]
  | some ceiling => simp only [ofBuffer, limit, if_neg (within_ceiling within limit)]

end Score

namespace Buffer

theorem mem_interior (b : Buffer) (x y : Nat) :
    (x, y) ∈ b.interior ↔
      (1 ≤ x ∧ x + 1 < b.size.width) ∧ (1 ≤ y ∧ y + 1 < b.size.height) := by
  simp only [interior, List.mem_flatMap, List.mem_map, List.mem_range'_1, Prod.mk.injEq]
  constructor
  · intro listed
    rcases listed with ⟨row, rowIn, column, columnIn, rfl, rfl⟩
    omega
  · intro inside
    exact ⟨y, by omega, x, by omega, rfl, rfl⟩

theorem interior_nodup (b : Buffer) : b.interior.Nodup := by
  refine List.nodup_flatMap.mpr ⟨fun y _ => ?_, ?_⟩
  · exact (List.nodup_range' 1).map fun _ _ same => congrArg Prod.fst same
  · -- rows differ in the second entry of all of their cells
    refine (List.pairwise_lt_range' 1).imp fun {y y'} above cell here there => ?_
    obtain ⟨x, -, rfl⟩ := List.mem_map.mp here
    obtain ⟨x', -, same⟩ := List.mem_map.mp there
    exact above.ne (congrArg Prod.snd same).symm

theorem squaredLaplacianSum_eq_sum (b : Buffer) :
    b.squaredLaplacianSum = ∑ cell ∈ b.interior.toFinset, b.squaredLaplacian cell.1 cell.2 := by
  rw [List.sum_toFinset _ b.interior_nodup, ← Number.total_eq_sum]
  rfl

theorem interior_congr {a b : Buffer} (size : b.size = a.size) : b.interior = a.interior := by
  simp only [interior, size]

def sample (b : Buffer) (x y : ℕ) : ℤ := (b.firstChannel x y).toNat

theorem sample_cast {b : Buffer} {x y : ℕ} {v : UInt8} (value : b.firstChannel x y = v) :
    b.sample x y = v.toNat :=
  congrArg (fun v : UInt8 => (v.toNat : ℤ)) value

/-- Four times a number in a plane less its four neighbours. -/
def cross (plane : ℕ → ℕ → ℤ) (x y : ℕ) : ℤ :=
  4 * plane x y - plane x (y - 1) - plane x (y + 1) - plane (x - 1) y - plane (x + 1) y

theorem laplacian_eq_cross (b : Buffer) (x y : ℕ) : b.laplacian x y = cross b.sample x y := rfl

structure Shows (b : Buffer) (size : Size) (plane : ℕ → ℕ → ℤ) : Prop where
  size_eq : b.size = size
  sample_eq : ∀ x < size.width, ∀ y < size.height, b.sample x y = plane x y

/-- The neighbours of an inner pixel are inside the buffer, so only samples there are read. -/
theorem Shows.laplacian {b : Buffer} {size : Size} {plane : ℕ → ℕ → ℤ} {x y : ℕ}
    (shows : b.Shows size plane) (member : (x, y) ∈ b.interior) :
    b.laplacian x y = cross plane x y := by
  obtain ⟨⟨left, right⟩, top, bottom⟩ := (b.mem_interior x y).mp member
  rw [shows.size_eq] at right bottom
  have columns : x - 1 < size.width ∧ x < size.width := by omega
  have rows : y - 1 < size.height ∧ y < size.height := by omega
  rw [cross, ← shows.sample_eq x columns.2 y rows.2, ← shows.sample_eq x columns.2 _ rows.1,
    ← shows.sample_eq x columns.2 _ bottom, ← shows.sample_eq _ columns.1 y rows.2,
    ← shows.sample_eq _ right y rows.2]
  rfl

namespace SameColors

variable {a b : Buffer}

theorem shows (same : SameColors a b) : a.Shows a.size b.sample :=
  ⟨rfl, fun _ column _ row => sample_cast (same.firstChannel column row)⟩

theorem squaredLaplacianSum (same : SameColors a b) :
    a.squaredLaplacianSum = b.squaredLaplacianSum := by
  unfold Buffer.squaredLaplacianSum
  rw [← interior_congr same.size]
  apply congrArg Number.total
  apply List.map_congr_left
  intro cell member
  simp only [Buffer.squaredLaplacian, same.shows.laplacian member, laplacian_eq_cross]

theorem laplacianVariance (same : SameColors a b) :
    a.laplacianVariance = b.laplacianVariance := by
  unfold Buffer.laplacianVariance
  rw [same.size, same.squaredLaplacianSum]

end SameColors

end Buffer

theorem Score.ofBuffer_congr {a : Buffer} (same : Buffer.SameColors a b)
    (settings : SharpnessSettings) : ofBuffer settings a = ofBuffer settings b := by
  unfold ofBuffer ofSamples
  rw [same.pixelCount, same.laplacianVariance]

end ImageDigest
