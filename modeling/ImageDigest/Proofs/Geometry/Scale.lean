import ImageDigest.Proofs.Geometry.Budget
import ImageDigest.Proofs.Geometry.Fit
import ImageDigest.Proofs.Number.FloatArithmetic

/-! Fitting a size into a box with a floating-point scale, which a zero edge makes infinite or no
number at all: whatever the scale is, the size keeps its empty edges and no others, and a second
fit changes nothing. -/

namespace ImageDigest.Size

open Number

variable {source bounds : Size} {edge bound : ℕ}

def scaledBy (scale : Float) (edge : ℕ) : ℕ :=
  (FloatValue.ofFloat (Float.ofNat edge * scale)).clampedRound (2 ^ 32 - 1)

def boxScale (source bounds : Size) : Float :=
  leastNumber (Float.ofNat bounds.width / Float.ofNat source.width)
    (Float.ofNat bounds.height / Float.ofNat source.height)

def fitBy (scale : Float) (source bounds : Size) : Size :=
  fitScaled (scaledBy scale) source bounds

section Exact

theorem represents_edge (word : edge ≤ 2 ^ 32 - 1) : Represents 64 (Float.ofNat edge) edge := by
  have exact := represents_ofNat (k := edge) (by omega)
  rwa [nearest_natCast (by omega)] at exact

theorem represents_quotient (word : edge ≤ 2 ^ 32 - 1) (boundWord : bound ≤ 2 ^ 32 - 1)
    (present : 0 < edge) :
    Represents 128 (Float.ofNat bound / Float.ofNat edge) (nearest ((bound : ℚ) / edge)) :=
  (represents_edge boundWord).div (represents_edge word) (by exact_mod_cast present) (by norm_num)

theorem boundless_quotient (boundWord : bound ≤ 2 ^ 32 - 1) :
    Boundless (Float.ofNat bound / Float.ofNat 0) :=
  boundless_div_zero (represents_edge boundWord)

theorem fitScale_of_hasPixels (present : source.HasPixels) (bounds : Size) :
    fitScale source bounds =
      min (nearest ((bounds.width : ℚ) / source.width))
        (nearest ((bounds.height : ℚ) / source.height)) := by
  have width := present.width.ne'
  have height := present.height.ne'
  simp only [fitScale, quotients, List.filterMap_cons, width, height, if_false,
    List.filterMap_nil]
  rfl

theorem fitScale_of_no_width (flat : source.width = 0) (present : 0 < source.height)
    (bounds : Size) : fitScale source bounds = nearest ((bounds.height : ℚ) / source.height) := by
  simp only [fitScale, quotients, List.filterMap_cons, flat, present.ne', if_true, if_false,
    List.filterMap_nil]
  rfl

theorem fitScale_of_no_height (flat : source.height = 0) (present : 0 < source.width)
    (bounds : Size) : fitScale source bounds = nearest ((bounds.width : ℚ) / source.width) := by
  simp only [fitScale, quotients, List.filterMap_cons, flat, present.ne', if_true, if_false,
    List.filterMap_nil]
  rfl

/-- The floating-point scale is the exact one: a quotient by zero gives way to the other. -/
theorem represents_boxScale (words : source.Within largest) (boxWords : bounds.Within largest)
    (outside : ¬ source.Within bounds) :
    Represents 128 (boxScale source bounds) (fitScale source bounds) := by
  have horizontal := represents_quotient words.width boxWords.width
  have vertical := represents_quotient words.height boxWords.height
  rcases Nat.eq_zero_or_pos source.width with flat | wide
  · rcases Nat.eq_zero_or_pos source.height with low | high
    · refine absurd ⟨?_, ?_⟩ outside
      · rw [flat]
        exact Nat.zero_le _
      · rw [low]
        exact Nat.zero_le _
    · rw [fitScale_of_no_width flat high, boxScale, flat,
        ((boundless_quotient boxWords.width).least (vertical high)).1]
      exact vertical high
  · rcases Nat.eq_zero_or_pos source.height with low | high
    · rw [fitScale_of_no_height low wide, boxScale, low,
        ((boundless_quotient boxWords.height).least (horizontal wide)).2]
      exact horizontal wide
    · rw [fitScale_of_hasPixels ⟨wide, high⟩]
      exact (horizontal wide).least (vertical high)

/-- What the conversion cuts is above the bound anyway. -/
theorem clampedEdge_min {limit : ℕ} (most : max bound 1 ≤ limit) (scaled edge : ℕ) :
    clampedEdge (min limit scaled) edge bound = clampedEdge scaled edge bound := by
  simp only [clampedEdge]
  omega

theorem clampedEdge_scaledBy {x : Float} {scale : ℚ} (represents : Represents 128 x scale)
    (word : edge ≤ 2 ^ 32 - 1) (boundWord : bound ≤ 2 ^ 32 - 1) :
    clampedEdge (scaledBy x edge) edge bound =
      clampedEdge (exactlyScaled scale edge) edge bound := by
  have product := (represents_edge word).mul represents (by norm_num)
  rw [scaledBy, product.clampedRound, clampedEdge_min (Nat.max_le.mpr ⟨boundWord, by decide⟩)]
  rfl

theorem fit_eq_fitBy (words : source.Within largest) (boxWords : bounds.Within largest) :
    source.fit bounds = fitBy (boxScale source bounds) source bounds := by
  rw [fit_eq_fitScaled, fitBy]
  by_cases inside : source.Within bounds
  · rw [fitScaled_of_within inside, fitScaled_of_within inside]
  · have scale := represents_boxScale words boxWords inside
    rw [fitScaled_of_not_within inside, fitScaled_of_not_within inside,
      clampedEdge_scaledBy scale words.width boxWords.width,
      clampedEdge_scaledBy scale words.height boxWords.height]

end Exact

/-- What a fitted size has to do with its source and with the box. -/
structure Fitted (source bounds result : Size) : Prop where
  bounded : source.Within bounds ∧ result = source ∨
    result.width ≤ max bounds.width 1 ∧ result.height ≤ max bounds.height 1
  width_eq_zero_iff : result.width = 0 ↔ source.width = 0
  height_eq_zero_iff : result.height = 0 ↔ source.height = 0
  eq_source_iff : bounds.HasPixels → (result = source ↔ source.Within bounds)

theorem fitted_fitScaled {scaled : ℕ → ℕ} (empty : scaled 0 = 0) (source bounds : Size) :
    Fitted source bounds (fitScaled scaled source bounds) := by
  by_cases inside : source.Within bounds
  · rw [fitScaled_of_within inside]
    exact ⟨.inl ⟨inside, rfl⟩, Iff.rfl, Iff.rfl, fun _ => iff_of_true rfl inside⟩
  · have vanishing (edge bound : ℕ) : clampedEdge (scaled edge) edge bound = 0 ↔ edge = 0 := by
      constructor
      · intro none
        by_contra present
        exact (clampedEdge_pos _ (Nat.pos_of_ne_zero present) _).ne' none
      · rintro rfl
        rw [empty, clampedEdge_zero]
    have unchanged (box : bounds.HasPixels) :
        fitScaled scaled source bounds = source ↔ source.Within bounds :=
      fitScaled_eq_self_iff box
    rw [fitScaled_of_not_within inside] at unchanged ⊢
    exact ⟨.inr ⟨clampedEdge_le _ _ _, clampedEdge_le _ _ _⟩, vanishing _ _, vanishing _ _,
      unchanged⟩

theorem scaledBy_zero (scale : Float) : scaledBy scale 0 = 0 :=
  clampedRound_zero_mul scale (2 ^ 32 - 1)

theorem exactlyScaled_zero (scale : ℚ) : exactlyScaled scale 0 = 0 := by
  have nothing : roundHalfUp 0 = 0 := by decide +kernel
  rw [exactlyScaled, Nat.cast_zero, zero_mul, nearest_zero, nothing]

section Again

/-- Some edge has pixels where the box has room for none. -/
def Starved (source bounds : Size) : Prop :=
  0 < source.width ∧ bounds.width = 0 ∨ 0 < source.height ∧ bounds.height = 0

theorem exactlyScaled_by_zero (edge : ℕ) : exactlyScaled 0 edge = 0 := by
  have nothing : roundHalfUp 0 = 0 := by decide +kernel
  rw [exactlyScaled, mul_zero, nearest_zero, nothing]

theorem fitScale_of_starved (starved : Starved source bounds) : fitScale source bounds = 0 := by
  have nothing (edge : ℕ) : nearest (((0 : ℕ) : ℚ) / edge) = 0 := by
    rw [Nat.cast_zero, zero_div, nearest_zero]
  rcases starved with ⟨wide, zero⟩ | ⟨high, zero⟩
  · rcases Nat.eq_zero_or_pos source.height with flat | high
    · rw [fitScale_of_no_height flat wide, zero, nothing]
    · rw [fitScale_of_hasPixels ⟨wide, high⟩, zero, nothing, min_eq_left (nearest_nonneg _)]
  · rcases Nat.eq_zero_or_pos source.width with flat | wide
    · rw [fitScale_of_no_width flat high, zero, nothing]
    · rw [fitScale_of_hasPixels ⟨wide, high⟩, zero, nothing, min_eq_right (nearest_nonneg _)]

theorem Starved.not_within (starved : Starved source bounds) : ¬ source.Within bounds := by
  intro inside
  have column := inside.width
  have row := inside.height
  unfold Starved at starved
  omega

theorem fit_of_starved (starved : Starved source bounds) :
    source.fit bounds = ⟨min 1 source.width, min 1 source.height⟩ := by
  have pixel (edge bound : ℕ) : clampedEdge 0 edge bound = min 1 edge := by
    simp only [clampedEdge]
    omega
  rw [fit_eq_fitScaled, fitScaled_of_not_within starved.not_within, fitScale_of_starved starved,
    exactlyScaled_by_zero, exactlyScaled_by_zero, pixel, pixel]

theorem fit_within_of_not_starved (room : ¬ Starved source bounds) :
    (source.fit bounds).Within bounds := by
  rw [fit_eq_fitScaled]
  by_cases inside : source.Within bounds
  · rw [fitScaled_of_within inside]
    exact inside
  · have within {edge bound : ℕ} (fed : ¬ (0 < edge ∧ bound = 0)) (scale : ℚ) :
        clampedEdge (exactlyScaled scale edge) edge bound ≤ bound := by
      rcases Nat.eq_zero_or_pos bound with zero | positive
      · have none : edge = 0 := by omega
        rw [none, exactlyScaled_zero, clampedEdge_zero]
        exact Nat.zero_le _
      · exact clampedEdge_le_bound _ _ positive
    rw [fitScaled_of_not_within inside]
    exact ⟨within (fun short => room (.inl short)) _, within (fun short => room (.inr short)) _⟩

theorem fit_fit (source bounds : Size) :
    (source.fit bounds).fit bounds = source.fit bounds := by
  by_cases starved : Starved source bounds
  · have again : Starved ⟨min 1 source.width, min 1 source.height⟩ bounds := by
      unfold Starved at starved ⊢
      simp only
      omega
    rw [fit_of_starved starved, fit_of_starved again, ← min_assoc, min_self, ← min_assoc, min_self]
  · exact fit_of_fits ((fitsIn_iff _ _).mpr (fit_within_of_not_starved starved))

end Again

/-- Fitting is done with the floating-point scale. With any scale the fitted size keeps its empty
edges and no others and is within the box, and in a box with pixels it stays as it is under any
other scale. A second fit never changes anything. -/
theorem fit_settles (source bounds : Size) (words : source.Within largest)
    (boxWords : bounds.Within largest) :
    source.fit bounds = fitBy (boxScale source bounds) source bounds ∧
    (∀ scale : Float, Fitted source bounds (fitBy scale source bounds)) ∧
    (min 1 source.width ≤ max bounds.width 1 ∧ min 1 source.height ≤ max bounds.height 1) ∧
    (bounds.HasPixels → ∀ scale scale' : Float,
      fitBy scale' (fitBy scale source bounds) bounds = fitBy scale source bounds) ∧
    Fitted source bounds (source.fit bounds) ∧
    (source.fit bounds).fit bounds = source.fit bounds := by
  refine ⟨fit_eq_fitBy words boxWords, fun scale => fitted_fitScaled (scaledBy_zero scale) _ _, ?_,
    ?_, fitted_fitScaled (exactlyScaled_zero _) _ _, fit_fit source bounds⟩
  · omega
  · intro box scale scale'
    exact fitScaled_of_within (fitScaled_within box)

theorem fit_settles_empty :
    Within ⟨0, 200⟩ largest ∧ Within ⟨100, 100⟩ largest ∧ HasPixels ⟨100, 100⟩ ∧
    Fitted ⟨0, 200⟩ ⟨100, 100⟩ (fitBy (0 / 0) ⟨0, 200⟩ ⟨100, 100⟩) ∧
    fitBy (1 / 0) (fitBy (0 / 0) ⟨0, 200⟩ ⟨100, 100⟩) ⟨100, 100⟩ =
      fitBy (0 / 0) ⟨0, 200⟩ ⟨100, 100⟩ ∧
    Fitted ⟨10, 0⟩ ⟨0, 0⟩ (fit ⟨10, 0⟩ ⟨0, 0⟩) ∧
    (fit ⟨10, 0⟩ ⟨0, 0⟩).fit ⟨0, 0⟩ = fit ⟨10, 0⟩ ⟨0, 0⟩ ∧ fit ⟨10, 0⟩ ⟨0, 0⟩ ≠ ⟨10, 0⟩ := by
  have words : Within ⟨0, 200⟩ largest := ⟨by decide, by decide⟩
  have boxWords : Within ⟨100, 100⟩ largest := ⟨by decide, by decide⟩
  have box : HasPixels ⟨100, 100⟩ := ⟨by decide, by decide⟩
  obtain ⟨-, fitted, -, again, -, -⟩ := fit_settles ⟨0, 200⟩ ⟨100, 100⟩ words boxWords
  obtain ⟨-, -, -, -, fitted', again'⟩ :=
    fit_settles ⟨10, 0⟩ ⟨0, 0⟩ ⟨by decide, by decide⟩ ⟨by decide, by decide⟩
  exact ⟨words, boxWords, box, fitted _, again box _ _, fitted', again', by decide +kernel⟩

end ImageDigest.Size
