import ImageDigest.Proofs.Palette.Pick
import ImageDigest.Proofs.Saturation

/-! The vibrant color of a list has the largest saturation. It is the first color that has it,
unless rounding makes a later one look more saturated. -/

namespace ImageDigest.Palette

open Number

variable {colors front back : List Color} {c d : Color}

theorem exactSaturation_le_of_not_lt (notGreater : ¬ c.rgb.saturation < d.rgb.saturation) :
    d.rgb.exactSaturation ≤ c.rgb.exactSaturation :=
  not_lt.mp (mt Rgb.saturation_lt notGreater)

theorem exists_first_most_saturated (present : colors ≠ []) :
    ∃ front c back, colors = front ++ c :: back ∧
      (∀ d ∈ front, d.rgb.exactSaturation < c.rgb.exactSaturation) ∧
      ∀ d ∈ back, d.rgb.exactSaturation ≤ c.rgb.exactSaturation := by
  -- the scan of the list with exact numbers finds it
  have chain (r s t : ℚ) (_ : True) (_ : True) (_ : True) (notGreater : ¬ s < r) (less : s < t) :
      r < t := (not_lt.mp notGreater).trans_lt less
  obtain ⟨front, c, back, split, -, ahead, behind⟩ :=
    firstBest_value_cases (fun _ _ => lt_asymm) chain present fun _ _ => trivial
  exact ⟨front, c, back, split, ahead, fun d member => not_lt.mp (behind d member)⟩

theorem vibrant_cases (present : colors ≠ []) :
    ∃ c ∈ colors, vibrant colors = some c ∧
      ∀ d ∈ colors, ¬ c.rgb.saturation < d.rgb.saturation := by
  obtain ⟨front, c, back, split, picked, ahead, behind⟩ :=
    firstBest_value_cases (fun _ _ => not_lt_of_lt) (fun _ _ _ => lt_of_not_lt_of_lt) present
      fun d _ => d.rgb.saturation_not_isNaN
  refine ⟨c, by simp [split], picked, fun d member => ?_⟩
  rw [split, List.mem_append, List.mem_cons] at member
  rcases member with earlier | rfl | later
  · exact not_lt_of_lt (ahead d earlier)
  · exact fun less => not_lt_of_lt less less
  · exact behind d later

theorem vibrant_append_cons
    (ahead : ∀ d ∈ front, d.rgb.exactSaturation < c.rgb.exactSaturation)
    (behind : ∀ d ∈ back, d.rgb.exactSaturation ≤ c.rgb.exactSaturation) :
    vibrant (front ++ c :: back) = some c ↔
      ∀ d ∈ back, d.rgb.exactSaturation = c.rgb.exactSaturation →
        ¬ c.rgb.saturation < d.rgb.saturation := by
  constructor
  · intro picked d member _
    have present : front ++ c :: back ≠ [] := by simp
    obtain ⟨c', -, picked', greatest⟩ := vibrant_cases present
    rw [picked] at picked'
    cases picked'
    exact greatest d (by simp [member])
  · intro notPassed
    refine firstBest_append_cons rfl ?_ ?_
    · rintro d member _ ⟨⟩
      exact Rgb.saturation_lt (ahead d member)
    · rintro d member _ ⟨⟩
      rcases (behind d member).lt_or_eq with less | same
      · exact not_lt_of_lt (Rgb.saturation_lt less)
      · exact notPassed d member same

/-- The first most saturated color is passed over only for a later one that is as saturated, and
only if that one has the larger number after rounding. Rounding does not tell two such colors apart
that have no saturation, or all of it, or the same largest channel. -/
theorem vibrant_most_saturated (colors : List Color) (present : colors ≠ []) :
    ∃ front c back, colors = front ++ c :: back ∧
      (∀ d ∈ front, d.rgb.exactSaturation < c.rgb.exactSaturation) ∧
      (∀ d ∈ back, d.rgb.exactSaturation ≤ c.rgb.exactSaturation) ∧
      (∃ d ∈ c :: back, vibrant colors = some d ∧
        d.rgb.exactSaturation = c.rgb.exactSaturation) ∧
      (vibrant colors = some c ↔ ∀ d ∈ back, d.rgb.exactSaturation = c.rgb.exactSaturation →
        ¬ c.rgb.saturation < d.rgb.saturation) ∧
      ((∀ d ∈ back, d.rgb.exactSaturation = c.rgb.exactSaturation →
          d.rgb.exactSaturation = 0 ∨ d.rgb.exactSaturation = 1 ∨ d.rgb.upper = c.rgb.upper) →
        vibrant colors = some c) := by
  obtain ⟨front, c, back, split, ahead, behind⟩ := exists_first_most_saturated present
  have exactly := vibrant_append_cons ahead behind
  rw [← split] at exactly
  refine ⟨front, c, back, split, ahead, behind, ?same, exactly, ?regular⟩
  case same =>
    obtain ⟨d, member, picked, greatest⟩ := vibrant_cases present
    have least : c.rgb.exactSaturation ≤ d.rgb.exactSaturation :=
      exactSaturation_le_of_not_lt (greatest c (by simp [split]))
    rw [split, List.mem_append] at member
    rcases member with earlier | here
    · exact absurd (ahead d earlier) least.not_gt
    · refine ⟨d, here, picked, le_antisymm ?_ least⟩
      rcases List.mem_cons.mp here with rfl | later
      · exact le_rfl
      · exact behind d later
  case regular =>
    intro regular
    refine exactly.mpr fun d member same less => ?_
    rw [Rgb.saturation_congr same (regular d member same)] at less
    exact not_lt_of_lt less less

theorem vibrant_most_saturated_pair :
    ∃ front c back, [⟨⟨0, 0, 255⟩, none⟩, ⟨⟨255, 0, 0⟩, none⟩] = front ++ c :: back ∧
      ∃ d ∈ c :: back, vibrant [⟨⟨0, 0, 255⟩, none⟩, ⟨⟨255, 0, 0⟩, none⟩] = some d ∧
        d.rgb.exactSaturation = c.rgb.exactSaturation := by
  obtain ⟨front, c, back, split, -, -, picked, -⟩ :=
    vibrant_most_saturated [⟨⟨0, 0, 255⟩, none⟩, ⟨⟨255, 0, 0⟩, none⟩] (List.cons_ne_nil _ _)
  exact ⟨front, c, back, split, picked⟩

theorem vibrant_passes_first :
    (⟨3, 1, 1⟩ : Rgb).exactSaturation = (⟨33, 11, 11⟩ : Rgb).exactSaturation ∧
      vibrant [⟨⟨3, 1, 1⟩, none⟩, ⟨⟨33, 11, 11⟩, none⟩] = some ⟨⟨33, 11, 11⟩, none⟩ :=
  ⟨by decide +kernel, rfl⟩

end ImageDigest.Palette
