import ImageDigest.Proofs.Number.FloatOrder
import ImageDigest.Proofs.Settings.Valid

namespace ImageDigest.Settings

open Number

structure IsUnit (x : Float) : Prop where
  lower : 0 ≤ x
  upper : x ≤ 1
  number : x.isNaN = false

/-- Settings that every analysis can work with. -/
structure Sound (s : Settings) : Prop where
  colorCount : 1 ≤ s.palette.colorCount
  iterations : 1 ≤ s.palette.iterations
  sampleSize : 1 ≤ s.palette.sampleSize
  bucketStep : 1 ≤ s.palette.bucketStep
  monochromaticThreshold : IsUnit s.palette.monochromaticThreshold
  similarityThreshold : IsUnit s.fingerprint.similarityThreshold
  divisor : 0 < s.sharpness.divisor ∧ s.sharpness.divisor.isNaN = false
  cap : 0 < s.sharpness.cap ∧ s.sharpness.cap ≤ 100
  maxPixels : s.sharpness.maxPixels = 0 ∨ 9 ≤ s.sharpness.maxPixels

def OutsideUnit (x : Float) : Prop := x < 0 ∨ 1 < x ∨ x.isNaN = true

section Thresholds

variable {x : Float}

theorem inUnit_iff (x : Float) : inUnit x = true ↔ 0 ≤ x ∧ x ≤ 1 := by
  rw [inUnit, Bool.and_eq_true, decide_eq_true_eq, decide_eq_true_eq]

theorem isUnit_of_inUnit (within : inUnit x = true) : IsUnit x := by
  obtain ⟨lower, upper⟩ := (inUnit_iff x).mp within
  exact ⟨lower, upper, (not_isNaN_of_le upper).1⟩

/-- A test that what is no number fails like what is too small or too large. -/
theorem inUnit_eq_false_iff (x : Float) : inUnit x = false ↔ OutsideUnit x := by
  have zero : (0 : Float).isNaN = false := rfl
  have one : (1 : Float).isNaN = false := rfl
  rw [← Bool.not_eq_true, inUnit_iff, Classical.not_and_iff_not_or_not, not_le_iff, not_le_iff,
    zero, one]
  simp only [Bool.false_eq_true, false_or, or_false]
  rw [← or_or_distrib_right, or_assoc, OutsideUnit]

end Thresholds

variable {s : Settings}

theorem sound_of_isValid (valid : s.isValid = true) : Sound s := by
  have held := (isValid_iff s).mp valid
  simp only [conditions, List.forall_mem_cons, Bool.and_eq_true, Bool.or_eq_true,
    decide_eq_true_eq] at held
  obtain ⟨-, -, sampleSize, -, monochromatic, similarity, divisor, cap, maxPixels, -⟩ := held
  exact
    { colorCount := colorCount_pos valid
      iterations := iterations_pos valid
      sampleSize := Nat.pos_of_ne_zero sampleSize
      bucketStep := bucketStep_pos valid
      monochromaticThreshold := isUnit_of_inUnit monochromatic
      similarityThreshold := isUnit_of_inUnit similarity
      divisor := ⟨divisor, (not_isNaN_of_lt divisor).2⟩
      cap := cap
      maxPixels := maxPixels }

end ImageDigest.Settings
