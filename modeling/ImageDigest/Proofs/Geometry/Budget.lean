import ImageDigest.Proofs.Geometry.Ceiling
import ImageDigest.Proofs.Number.Nearest

/-! Sizes of 32-bit edges under a pixel budget: the loop that shrinks them comes to its end without
an empty edge and without an overflow, and nothing is scaled up. -/

namespace ImageDigest.Size

open Number

variable {source s : Size} {maxPixels edge : ℕ} {scale : ℚ}

def largest : Size := ⟨2 ^ 32 - 1, 2 ^ 32 - 1⟩

theorem area_lt_of_words (words : s.Within largest) : s.area < 2 ^ 64 := by
  calc
    s.area ≤ largest.area := words.area_le
    _ < 2 ^ 64 := by decide

section Scale

theorem ceilingScale_le_one (above : maxPixels < source.area) :
    ceilingScale source maxPixels ≤ 1 := by
  -- both counts may have more than 53 bits, and rounding them keeps their order
  have order : nearest (maxPixels : ℚ) ≤ nearest (source.area : ℚ) :=
    nearest_mono (by exact_mod_cast above.le)
  have quotient := div_le_one_of_le₀ order (nearest_nonneg _)
  have rounded := nearest_le_natCast (n := 1) (by norm_num) (by exact_mod_cast quotient)
  exact nearestSqrt_le_one (by exact_mod_cast rounded)

theorem scaledEdge_le (small : edge < 2 ^ 53) (atMost : scale ≤ 1) :
    (nearest (edge * scale)).floor.toNat ≤ edge := by
  have scaled : (edge : ℚ) * scale ≤ edge := mul_le_of_le_one_right (Nat.cast_nonneg edge) atMost
  have rounded := (Rat.floor_le _).trans (nearest_le_natCast small scaled)
  rw [Int.toNat_le]
  exact_mod_cast rounded

theorem ceilingEdge_le (present : 0 < edge)
    (floored : (nearest (edge * scale)).floor.toNat ≤ edge) : ceilingEdge scale edge ≤ edge :=
  Nat.max_le.mpr ⟨floored, present⟩

end Scale

theorem ceilingWith_within (present : source.HasPixels)
    (width : (nearest (source.width * scale)).floor.toNat ≤ source.width)
    (height : (nearest (source.height * scale)).floor.toNat ≤ source.height) :
    (ceilingWith scale source maxPixels).Within source := by
  have scaled : Within ⟨ceilingEdge scale source.width, ceilingEdge scale source.height⟩ source :=
    ⟨ceilingEdge_le present.width width, ceilingEdge_le present.height height⟩
  exact (shrinks_shrinkTo maxPixels _).within.trans
    (spendOnOther_within present (.refl source) scaled)

theorem ceiling_within (words : source.Within largest) (maxPixels : ℕ) :
    (source.ceiling maxPixels).Within source := by
  unfold ceiling
  split
  case isTrue => exact .refl source
  case isFalse above =>
    have above : maxPixels < source.area := Nat.lt_of_not_le above
    have scale := ceilingScale_le_one above
    have width : source.width < 2 ^ 53 := lt_of_le_of_lt words.width (by decide)
    have height : source.height < 2 ^ 53 := lt_of_le_of_lt words.height (by decide)
    exact ceilingWith_within (hasPixels_of_area above) (scaledEdge_le width scale)
      (scaledEdge_le height scale)

theorem ceiling_of_area_le (inside : source.area ≤ maxPixels) :
    source.ceiling maxPixels = source :=
  if_pos inside

theorem ceiling_eq_self_iff (budget : 1 ≤ maxPixels) :
    source.ceiling maxPixels = source ↔ source.area ≤ maxPixels := by
  constructor
  · intro unchanged
    have area := ceiling_area_le source budget
    rwa [unchanged] at area
  · exact ceiling_of_area_le

/-- A run of the loop that shrinks a size: it comes to its end, which is within the budget, and
every size on the way has pixels, no more than 64 bits can count. -/
structure SafeRun (maxPixels : ℕ) (start : Size) : Prop where
  reaches : Shrinks maxPixels start (shrinkTo maxPixels start)
  stops : shrinkOnce? maxPixels (shrinkTo maxPixels start) = none
  passes : ∀ t, Shrinks maxPixels start t → t.HasPixels ∧ t.Within largest ∧ t.area < 2 ^ 64
  area_le : (shrinkTo maxPixels start).area ≤ maxPixels

theorem safeRun {start : Size} (present : start.HasPixels) (words : start.Within largest)
    (budget : 1 ≤ maxPixels) : SafeRun maxPixels start where
  reaches := shrinks_shrinkTo maxPixels start
  stops := shrinkOnce_shrinkTo maxPixels start
  passes := by
    intro t run
    have inside := run.within.trans words
    exact ⟨run.hasPixels present, inside, area_lt_of_words inside⟩
  area_le := shrinkTo_area_le budget

/-- How a size is brought under a budget. Whatever edges the scaling comes to, the loop behind it is
safe; and what it scales by makes no edge longer. The result is inside the source, with pixels if
the source has any, and a second time nothing changes. -/
structure CeilingSafe (source : Size) (maxPixels : ℕ) : Prop where
  run : ∀ scaled : Size, scaled.HasPixels → scaled.Within largest →
    SafeRun maxPixels (spendOnOther source maxPixels scaled)
  any_scale : ∀ scale : ℚ,
    (ceilingWith scale source maxPixels).HasPixels ∧
    (ceilingWith scale source maxPixels).area ≤ maxPixels
  scaled_within : maxPixels < source.area → ∀ scale : ℚ,
    (nearest (source.width * scale)).floor.toNat ≤ source.width →
    (nearest (source.height * scale)).floor.toNat ≤ source.height →
      (ceilingWith scale source maxPixels).Within source
  scale_le_one : maxPixels < source.area →
    ceilingScale source maxPixels ≤ 1 ∧
    ∀ edge : ℕ, edge < 2 ^ 32 →
      (nearest (edge * ceilingScale source maxPixels)).floor.toNat ≤ edge
  source_area_lt : source.area < 2 ^ 64
  area_le : (source.ceiling maxPixels).area ≤ maxPixels
  area_lt : (source.ceiling maxPixels).area < 2 ^ 64
  within : (source.ceiling maxPixels).Within source
  hasPixels : source.area ≠ 0 → (source.ceiling maxPixels).HasPixels
  unchanged_iff : source.ceiling maxPixels = source ↔ source.area ≤ maxPixels
  idempotent : (source.ceiling maxPixels).ceiling maxPixels = source.ceiling maxPixels

theorem ceiling_safe (source : Size) (maxPixels : ℕ) (words : source.Within largest)
    (budget : 1 ≤ maxPixels) : CeilingSafe source maxPixels where
  run := by
    intro scaled present small
    exact safeRun (spendOnOther_hasPixels present)
      (spendOnOther_within (by decide) words small) budget
  any_scale := by
    intro scale
    exact ⟨shrinkTo_hasPixels (spent_hasPixels scale source maxPixels), shrinkTo_area_le budget⟩
  scaled_within := by
    intro above scale
    exact ceilingWith_within (hasPixels_of_area above)
  scale_le_one := by
    intro above
    have scale := ceilingScale_le_one above
    refine ⟨scale, ?_⟩
    intro edge small
    exact scaledEdge_le (small.trans (by decide)) scale
  source_area_lt := area_lt_of_words words
  area_le := ceiling_area_le source budget
  area_lt := area_lt_of_words ((ceiling_within words maxPixels).trans words)
  within := ceiling_within words maxPixels
  hasPixels := by
    intro present
    exact ceiling_hasPixels (source.hasPixels_iff_area.mpr present) maxPixels
  unchanged_iff := ceiling_eq_self_iff budget
  idempotent := ceiling_of_area_le (ceiling_area_le source budget)

theorem ceiling_safe_column :
    (ceiling ⟨7, 4294967295⟩ 999).area ≤ 999 ∧ (ceiling ⟨7, 4294967295⟩ 999).HasPixels ∧
      (ceiling ⟨7, 4294967295⟩ 999).width ≤ 7 ∧
      ceiling ⟨7, 4294967295⟩ 999 ≠ ⟨7, 4294967295⟩ := by
  have column := ceiling_safe ⟨7, 4294967295⟩ 999 ⟨by decide, by decide⟩ (by decide)
  refine ⟨column.area_le, column.hasPixels (by decide), column.within.width, ?_⟩
  intro same
  exact absurd (column.unchanged_iff.mp same) (by decide)

end ImageDigest.Size
