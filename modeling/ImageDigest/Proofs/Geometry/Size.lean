import ImageDigest.Buffer

namespace ImageDigest

structure Size.HasPixels (s : Size) : Prop where
  width : 0 < s.width
  height : 0 < s.height

namespace Size

theorem hasPixels_iff (s : Size) : s.HasPixels ↔ 0 < s.width ∧ 0 < s.height :=
  ⟨fun present => ⟨present.width, present.height⟩, fun edges => ⟨edges.1, edges.2⟩⟩

instance (s : Size) : Decidable s.HasPixels := decidable_of_iff _ s.hasPixels_iff.symm

theorem hasPixels_iff_area (s : Size) : s.HasPixels ↔ s.area ≠ 0 := by
  rw [hasPixels_iff, area, Nat.mul_ne_zero_iff, Nat.pos_iff_ne_zero, Nat.pos_iff_ne_zero]

structure Within (s t : Size) : Prop where
  width : s.width ≤ t.width
  height : s.height ≤ t.height

theorem within_iff (s t : Size) : s.Within t ↔ s.width ≤ t.width ∧ s.height ≤ t.height :=
  ⟨fun inside => ⟨inside.width, inside.height⟩, fun edges => ⟨edges.1, edges.2⟩⟩

theorem Within.refl (s : Size) : s.Within s := ⟨Nat.le_refl _, Nat.le_refl _⟩

theorem Within.trans {s t u : Size} (first : s.Within t) (second : t.Within u) : s.Within u :=
  ⟨Nat.le_trans first.width second.width, Nat.le_trans first.height second.height⟩

theorem Within.area_le {s t : Size} (inside : s.Within t) : s.area ≤ t.area :=
  Nat.mul_le_mul inside.width inside.height

/-- A digit below `m` behind a place below `n`. -/
theorem mul_add_lt_mul {m n a b : Nat} (digit : a < m) (place : b < n) : b * m + a < n * m := by
  calc
    b * m + a < b * m + m := Nat.add_lt_add_left digit _
    _ = (b + 1) * m := (Nat.succ_mul b m).symm
    _ ≤ n * m := Nat.mul_le_mul_right m place

theorem index_lt {s : Size} {x y : Nat} (column : x < s.width) (row : y < s.height) :
    y * s.width + x < s.area := by
  rw [area, Nat.mul_comm s.width]
  exact mul_add_lt_mul column row

theorem hasPixels_of_area {s : Size} {n : Nat} (more : n < s.area) : s.HasPixels :=
  s.hasPixels_iff_area.mpr (Nat.ne_zero_of_lt more)

end Size

theorem Buffer.isEmpty_eq_false_iff (b : Buffer) : b.isEmpty = false ↔ b.size.HasPixels := by
  rw [isEmpty, pixelCount, Size.hasPixels_iff_area, decide_eq_false_iff_not]

theorem Buffer.isEmpty_iff (b : Buffer) : b.isEmpty = true ↔ ¬ b.size.HasPixels := by
  rw [← isEmpty_eq_false_iff, Bool.not_eq_false]

end ImageDigest
