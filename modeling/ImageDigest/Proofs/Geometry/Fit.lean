import ImageDigest.Geometry.Fit
import ImageDigest.Proofs.Geometry.Size

namespace ImageDigest.Size

variable {source bounds : Size} {scaled : Nat → Nat} {edge bound : Nat}

/-- A scaled edge brought into its range: one pixel at least unless the edge is zero, and the bound
at most unless that is zero. -/
def clampedEdge (scaled edge bound : Nat) : Nat := min (max scaled (min 1 edge)) (max bound 1)

def fitScaled (scaled : Nat → Nat) (source bounds : Size) : Size :=
  if source.fitsIn bounds then source
  else ⟨clampedEdge (scaled source.width) source.width bounds.width,
    clampedEdge (scaled source.height) source.height bounds.height⟩

def exactlyScaled (scale : Rat) (edge : Nat) : Nat :=
  Number.roundHalfUp (Number.nearest ((edge : Rat) * scale))

theorem fit_eq_fitScaled (source bounds : Size) :
    source.fit bounds = fitScaled (exactlyScaled (fitScale source bounds)) source bounds := rfl

theorem fitsIn_iff (source bounds : Size) :
    source.fitsIn bounds = true ↔ source.Within bounds := by
  rw [within_iff, fitsIn, Bool.and_eq_true, decide_eq_true_eq, decide_eq_true_eq]

section Edge

theorem clampedEdge_le (scaled edge bound : Nat) : clampedEdge scaled edge bound ≤ max bound 1 :=
  Nat.min_le_right _ _

theorem clampedEdge_le_bound (scaled edge : Nat) (room : 0 < bound) :
    clampedEdge scaled edge bound ≤ bound := by
  have limit := clampedEdge_le scaled edge bound
  omega

theorem clampedEdge_pos (scaled : Nat) (present : 0 < edge) (bound : Nat) :
    0 < clampedEdge scaled edge bound := by
  simp only [clampedEdge]
  omega

theorem clampedEdge_zero (bound : Nat) : clampedEdge 0 0 bound = 0 := by
  simp only [clampedEdge]
  omega

end Edge

section Scaled

theorem fitScaled_of_within (inside : source.Within bounds) :
    fitScaled scaled source bounds = source :=
  if_pos ((fitsIn_iff source bounds).mpr inside)

theorem fitScaled_of_not_within (outside : ¬ source.Within bounds) :
    fitScaled scaled source bounds =
      ⟨clampedEdge (scaled source.width) source.width bounds.width,
        clampedEdge (scaled source.height) source.height bounds.height⟩ :=
  if_neg (mt (fitsIn_iff source bounds).mp outside)

theorem fitScaled_hasPixels (present : source.HasPixels) :
    (fitScaled scaled source bounds).HasPixels := by
  by_cases inside : source.Within bounds
  · rw [fitScaled_of_within inside]
    exact present
  · rw [fitScaled_of_not_within inside]
    exact ⟨clampedEdge_pos _ present.width _, clampedEdge_pos _ present.height _⟩

theorem fitScaled_within (box : bounds.HasPixels) :
    (fitScaled scaled source bounds).Within bounds := by
  by_cases inside : source.Within bounds
  · rw [fitScaled_of_within inside]
    exact inside
  · rw [fitScaled_of_not_within inside]
    exact ⟨clampedEdge_le_bound _ _ box.width, clampedEdge_le_bound _ _ box.height⟩

theorem fitScaled_eq_self_iff (box : bounds.HasPixels) :
    fitScaled scaled source bounds = source ↔ source.Within bounds := by
  constructor
  · intro unchanged
    have within : (fitScaled scaled source bounds).Within bounds := fitScaled_within box
    rwa [unchanged] at within
  · exact fitScaled_of_within

end Scaled

theorem fit_of_fits (fits : source.fitsIn bounds = true) : source.fit bounds = source :=
  if_pos fits

/-- Degenerate shapes and boxes without pixels included, no edge vanishes. -/
theorem fit_hasPixels (present : source.HasPixels) (bounds : Size) :
    (source.fit bounds).HasPixels := by
  rw [fit_eq_fitScaled]
  exact fitScaled_hasPixels present

theorem fit_within (source : Size) (box : bounds.HasPixels) :
    (source.fit bounds).Within bounds := by
  rw [fit_eq_fitScaled]
  exact fitScaled_within box

theorem fit_eq_self_iff (box : bounds.HasPixels) :
    source.fit bounds = source ↔ source.fitsIn bounds = true := by
  rw [fit_eq_fitScaled, fitsIn_iff]
  exact fitScaled_eq_self_iff box

end ImageDigest.Size
