import ImageDigest.Geometry.Ceiling
import ImageDigest.Proofs.Geometry.Size
import Mathlib.Logic.Relation

namespace ImageDigest.Size

variable {source s t : Size} {maxPixels : Nat}

section Rounds

/-- The size after one round of the loop, where it has one more. -/
def shrinkOnce? (maxPixels : Nat) (s : Size) : Option Size :=
  if maxPixels < s.area ∧ (1 < s.width ∨ 1 < s.height) then
    some (if s.height ≤ s.width then ⟨s.width - 1, s.height⟩ else ⟨s.width, s.height - 1⟩)
  else none

def Shrinks (maxPixels : Nat) : Size → Size → Prop :=
  Relation.ReflTransGen fun s t => shrinkOnce? maxPixels s = some t

theorem shrinkOnce_cases (round : shrinkOnce? maxPixels s = some t) :
    maxPixels < s.area ∧
      (s.height ≤ s.width ∧ 1 < s.width ∧ t = ⟨s.width - 1, s.height⟩ ∨
        s.width < s.height ∧ 1 < s.height ∧ t = ⟨s.width, s.height - 1⟩) := by
  unfold shrinkOnce? at round
  split at round
  case isTrue more =>
    refine ⟨more.1, ?_⟩
    cases round
    by_cases flat : s.height ≤ s.width
    · rw [if_pos flat]
      exact .inl ⟨flat, by omega, rfl⟩
    · rw [if_neg flat]
      exact .inr ⟨Nat.lt_of_not_le flat, by omega, rfl⟩
  case isFalse => cases round

theorem shrinkOnce_hasPixels (round : shrinkOnce? maxPixels s = some t) (present : s.HasPixels) :
    t.HasPixels := by
  rcases shrinkOnce_cases round with ⟨-, ⟨-, more, rfl⟩ | ⟨-, more, rfl⟩⟩
  · exact ⟨Nat.sub_pos_of_lt more, present.height⟩
  · exact ⟨present.width, Nat.sub_pos_of_lt more⟩

theorem shrinkOnce_within (round : shrinkOnce? maxPixels s = some t) : t.Within s := by
  rcases shrinkOnce_cases round with ⟨-, ⟨-, -, rfl⟩ | ⟨-, -, rfl⟩⟩
  · exact ⟨Nat.sub_le _ 1, Nat.le_refl _⟩
  · exact ⟨Nat.le_refl _, Nat.sub_le _ 1⟩

theorem shrinkOnce_eq_none_iff :
    shrinkOnce? maxPixels s = none ↔ s.area ≤ maxPixels ∨ s.width ≤ 1 ∧ s.height ≤ 1 := by
  unfold shrinkOnce?
  split
  case isTrue more =>
    simp only [reduceCtorEq, false_iff]
    omega
  case isFalse done =>
    simp only [true_iff]
    omega

theorem Shrinks.hasPixels (run : Shrinks maxPixels s t) (present : s.HasPixels) :
    t.HasPixels := by
  induction run with
  | refl => exact present
  | tail _ round ih => exact shrinkOnce_hasPixels round ih

theorem Shrinks.within (run : Shrinks maxPixels s t) : t.Within s := by
  induction run with
  | refl => exact .refl s
  | tail _ round ih => exact (shrinkOnce_within round).trans ih

theorem shrinks_shrinkTo (maxPixels : Nat) (s : Size) :
    Shrinks maxPixels s (shrinkTo maxPixels s) := by
  fun_induction shrinkTo maxPixels s with
  | case1 s more flat ih =>
      refine .head ?_ ih
      rw [shrinkOnce?, if_pos more, if_pos flat]
  | case2 s more tall ih =>
      refine .head ?_ ih
      rw [shrinkOnce?, if_pos more, if_neg tall]
  | case3 => exact .refl

theorem shrinkOnce_shrinkTo (maxPixels : Nat) (s : Size) :
    shrinkOnce? maxPixels (shrinkTo maxPixels s) = none := by
  fun_induction shrinkTo maxPixels s with
  | case1 s more flat ih => exact ih
  | case2 s more tall ih => exact ih
  | case3 s done => exact if_neg done

end Rounds

theorem shrinkTo_hasPixels (present : s.HasPixels) : (shrinkTo maxPixels s).HasPixels :=
  (shrinks_shrinkTo maxPixels s).hasPixels present

/-- The loop ends within the budget, or where no edge has a pixel to lose. -/
theorem shrinkTo_done (maxPixels : Nat) (s : Size) :
    (shrinkTo maxPixels s).area ≤ maxPixels ∨
      (shrinkTo maxPixels s).width ≤ 1 ∧ (shrinkTo maxPixels s).height ≤ 1 :=
  shrinkOnce_eq_none_iff.mp (shrinkOnce_shrinkTo maxPixels s)

theorem shrinkTo_area_le (budget : 1 ≤ maxPixels) : (shrinkTo maxPixels s).area ≤ maxPixels := by
  rcases shrinkTo_done maxPixels s with within | ⟨column, row⟩
  · exact within
  · exact Nat.le_trans (Nat.mul_le_mul column row) budget

theorem ceilingEdge_pos (scale : Rat) (edge : Nat) : 0 < ceilingEdge scale edge :=
  Nat.le_max_right _ 1

/-- Either edge may be given the budget, which is cut to that edge of the source. -/
theorem spendOnOther_cases (source s : Size) (maxPixels : Nat) :
    spendOnOther source maxPixels s = ⟨1, max (min maxPixels source.height) 1⟩ ∨
      spendOnOther source maxPixels s = ⟨max (min maxPixels source.width) 1, 1⟩ ∨
      spendOnOther source maxPixels s = s := by
  unfold spendOnOther
  split
  case isTrue => exact .inl rfl
  case isFalse =>
    split
    case isTrue => exact .inr (.inl rfl)
    case isFalse => exact .inr (.inr rfl)

theorem spendOnOther_hasPixels (present : s.HasPixels) :
    (spendOnOther source maxPixels s).HasPixels := by
  rcases spendOnOther_cases source s maxPixels with spent | spent | spent
  · rw [spent]
    exact ⟨Nat.one_pos, Nat.le_max_right _ 1⟩
  · rw [spent]
    exact ⟨Nat.le_max_right _ 1, Nat.one_pos⟩
  · rw [spent]
    exact present

theorem spendOnOther_within {bound : Size} (present : bound.HasPixels)
    (inside : source.Within bound) (scaled : s.Within bound) :
    (spendOnOther source maxPixels s).Within bound := by
  have cut {edge most : Nat} (within : edge ≤ most) (positive : 0 < most) :
      max (min maxPixels edge) 1 ≤ most :=
    Nat.max_le.mpr ⟨Nat.le_trans (Nat.min_le_right _ _) within, positive⟩
  rcases spendOnOther_cases source s maxPixels with spent | spent | spent
  · rw [spent]
    exact ⟨present.width, cut inside.height present.height⟩
  · rw [spent]
    exact ⟨cut inside.width present.width, present.height⟩
  · rw [spent]
    exact scaled

theorem spent_hasPixels (scale : Rat) (source : Size) (maxPixels : Nat) :
    (spendOnOther source maxPixels
      ⟨ceilingEdge scale source.width, ceilingEdge scale source.height⟩).HasPixels :=
  spendOnOther_hasPixels ⟨ceilingEdge_pos scale _, ceilingEdge_pos scale _⟩

theorem ceiling_hasPixels (present : source.HasPixels) (maxPixels : Nat) :
    (source.ceiling maxPixels).HasPixels := by
  unfold ceiling
  split
  case isTrue => exact present
  case isFalse => exact shrinkTo_hasPixels (spent_hasPixels _ source maxPixels)

theorem ceiling_area_le (source : Size) (budget : 1 ≤ maxPixels) :
    (source.ceiling maxPixels).area ≤ maxPixels := by
  unfold ceiling
  split
  case isTrue within => exact within
  case isFalse => exact shrinkTo_area_le budget

end ImageDigest.Size
