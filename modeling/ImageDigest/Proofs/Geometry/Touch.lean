import ImageDigest.Proofs.Geometry.Scale

/-! Fitting a size into a box makes no edge longer, and brings the tighter edge exactly onto its
bound: both roundings together take it off by less than half a pixel. -/

namespace ImageDigest.Size

open Number

variable {source bounds : Size} {edge bound : ℕ} {scale : ℚ}

section Edge

theorem exactlyScaled_quotient (present : 0 < edge) (word : bound ≤ 2 ^ 32 - 1) :
    exactlyScaled (nearest ((bound : ℚ) / edge)) edge = bound := by
  rcases Nat.eq_zero_or_pos bound with rfl | positive
  · rw [Nat.cast_zero, zero_div, nearest_zero, exactlyScaled_by_zero]
  have room : (0 : ℚ) < edge := by exact_mod_cast present
  have least : (1 : ℚ) ≤ bound := by exact_mod_cast positive
  have most : (bound : ℚ) ≤ 2 ^ 32 := by exact_mod_cast word.trans (Nat.sub_le _ 1)
  have quotient := abs_le.mp (nearest_close_relative (div_pos (zero_lt_one.trans_le least) room))
  have back : (edge : ℚ) * (bound / edge) = bound := mul_div_cancel₀ _ room.ne'
  have low := mul_le_mul_of_nonneg_left quotient.1 room.le
  have high := mul_le_mul_of_nonneg_left quotient.2 room.le
  rw [mul_neg, ← mul_div_assoc, mul_sub, back] at low
  rw [← mul_div_assoc, mul_sub, back] at high
  have product := abs_le.mp (nearest_close_relative (x := edge * nearest (bound / edge))
    (by linarith))
  rw [exactlyScaled, roundHalfUp_eq_iff (nearest_nonneg _)]
  constructor <;> linarith

theorem exactlyScaled_le (word : edge ≤ 2 ^ 32 - 1) (atMost : scale ≤ 1) :
    exactlyScaled scale edge ≤ edge := by
  have scaled : (edge : ℚ) * scale ≤ edge := mul_le_of_le_one_right (Nat.cast_nonneg edge) atMost
  exact roundHalfUp_le (nearest_nonneg _) (nearest_le_natCast (by omega) scaled)

theorem clampedEdge_le_edge {scaled : ℕ} (present : 0 < edge) (atMost : scaled ≤ edge) :
    clampedEdge scaled edge bound ≤ edge := by
  simp only [clampedEdge]
  omega

theorem clampedEdge_bound (room : 0 < bound) (edge : ℕ) : clampedEdge bound edge bound = bound := by
  simp only [clampedEdge]
  omega

end Edge

section Box

/-- A source that is not within the box is not scaled up: one of its edges is above the bound. -/
theorem fitScale_le_one (present : source.HasPixels) (outside : ¬ source.Within bounds) :
    fitScale source bounds ≤ 1 := by
  have atMost {edge bound : ℕ} (above : bound < edge) : nearest ((bound : ℚ) / edge) ≤ 1 := by
    have quotient : (bound : ℚ) / edge ≤ (1 : ℕ) := by
      rw [Nat.cast_one]
      exact div_le_one_of_le₀ (by exact_mod_cast above.le) (Nat.cast_nonneg edge)
    exact_mod_cast nearest_le_natCast (by norm_num) quotient
  rw [fitScale_of_hasPixels present]
  rcases Nat.lt_or_ge bounds.width source.width with wide | width
  · exact min_le_of_left_le (atMost wide)
  · rcases Nat.lt_or_ge bounds.height source.height with high | height
    · exact min_le_of_right_le (atMost high)
    · exact absurd ⟨width, height⟩ outside

theorem fit_within_source (present : source.HasPixels) (words : source.Within largest)
    (bounds : Size) : (source.fit bounds).Within source := by
  rw [fit_eq_fitScaled]
  by_cases inside : source.Within bounds
  · rw [fitScaled_of_within inside]
    exact .refl source
  · have scale := fitScale_le_one present inside
    rw [fitScaled_of_not_within inside]
    exact ⟨clampedEdge_le_edge present.width (exactlyScaled_le words.width scale),
      clampedEdge_le_edge present.height (exactlyScaled_le words.height scale)⟩

/-- The scale is one of the quotients, and that one brings its edge onto the bound. -/
theorem fit_touches (present : source.HasPixels) (box : bounds.HasPixels)
    (boxWords : bounds.Within largest) (outside : ¬ source.Within bounds) :
    (source.fit bounds).width = bounds.width ∨ (source.fit bounds).height = bounds.height := by
  rw [fit_eq_fitScaled, fitScaled_of_not_within outside, fitScale_of_hasPixels present]
  rcases min_choice (nearest ((bounds.width : ℚ) / source.width))
    (nearest ((bounds.height : ℚ) / source.height)) with horizontal | vertical
  · left
    rw [horizontal, exactlyScaled_quotient present.width boxWords.width]
    exact clampedEdge_bound box.width source.width
  · right
    rw [vertical, exactlyScaled_quotient present.height boxWords.height]
    exact clampedEdge_bound box.height source.height

theorem transpose_within_iff :
    source.transpose.Within bounds.transpose ↔ source.Within bounds := by
  rw [within_iff, within_iff]
  exact and_comm

theorem fit_transpose (present : source.HasPixels) (bounds : Size) :
    source.transpose.fit bounds.transpose = (source.fit bounds).transpose := by
  have turned : source.transpose.HasPixels := ⟨present.height, present.width⟩
  rw [fit_eq_fitScaled, fit_eq_fitScaled]
  by_cases inside : source.Within bounds
  · rw [fitScaled_of_within inside, fitScaled_of_within (transpose_within_iff.mpr inside)]
  · rw [fitScaled_of_not_within inside, fitScaled_of_not_within (mt transpose_within_iff.mp inside),
      fitScale_of_hasPixels present, fitScale_of_hasPixels turned, min_comm]
    rfl

end Box

/-- With the division, the product and the rounding of floating-point numbers a size with pixels
comes into a box inside of its source, and onto an edge of the box unless it is within the box
already. Rows and columns play the same part. -/
theorem fit_tight (source bounds : Size) (present : source.HasPixels) (box : bounds.HasPixels)
    (words : source.Within largest) (boxWords : bounds.Within largest) :
    source.fit bounds = fitBy (boxScale source bounds) source bounds ∧
    (source.fit bounds).Within source ∧
    (¬ source.Within bounds →
      (source.fit bounds).width = bounds.width ∨ (source.fit bounds).height = bounds.height) ∧
    source.transpose.fit bounds.transpose = (source.fit bounds).transpose := by
  refine ⟨fit_eq_fitBy words boxWords, fit_within_source present words bounds, ?_,
    fit_transpose present bounds⟩
  intro outside
  exact fit_touches present box boxWords outside

theorem fit_tight_longest :
    (fit ⟨4294967295, 7⟩ ⟨4294967294, 3⟩).Within ⟨4294967295, 7⟩ ∧
    ((fit ⟨4294967295, 7⟩ ⟨4294967294, 3⟩).width = 4294967294 ∨
      (fit ⟨4294967295, 7⟩ ⟨4294967294, 3⟩).height = 3) ∧
    fit ⟨7, 4294967295⟩ ⟨3, 4294967294⟩ = (fit ⟨4294967295, 7⟩ ⟨4294967294, 3⟩).transpose := by
  obtain ⟨-, inside, touches, turned⟩ := fit_tight ⟨4294967295, 7⟩ ⟨4294967294, 3⟩
    ⟨by decide, by decide⟩ ⟨by decide, by decide⟩ ⟨by decide, by decide⟩ ⟨by decide, by decide⟩
  refine ⟨inside, touches ?_, turned⟩
  intro fits
  exact absurd fits.height (by decide)

end ImageDigest.Size
