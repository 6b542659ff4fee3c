import ImageDigest.Proofs.Palette.OneColor
import ImageDigest.Proofs.Palette.Partition
import ImageDigest.Proofs.Saturation

/-! Samples without color. Means and rounded channels of gray pixels are gray, and no gray is dark
or light vibrant. -/

namespace ImageDigest

open Palette

structure Rgb.Achromatic (c : Rgb) : Prop where
  red_eq_green : c.red = c.green
  green_eq_blue : c.green = c.blue

namespace Rgb.Achromatic

variable {c : Rgb}

instance (c : Rgb) : Decidable c.Achromatic :=
  decidable_of_iff (c.red = c.green ∧ c.green = c.blue)
    ⟨fun same => ⟨same.1, same.2⟩, fun gray => ⟨gray.red_eq_green, gray.green_eq_blue⟩⟩

theorem lower_eq_upper (gray : c.Achromatic) : c.lower = c.upper := by
  rw [← UInt8.toNat_inj, lower, upper, toNat_min, toNat_min, toNat_max, toNat_max,
    gray.red_eq_green, gray.green_eq_blue]
  omega

theorem saturation (gray : c.Achromatic) : c.saturation = 0 :=
  saturation_of_gray gray.lower_eq_upper

theorem mapChannels (f : UInt8 → UInt8) (gray : c.Achromatic) : (c.mapChannels f).Achromatic where
  red_eq_green := congrArg f gray.red_eq_green
  green_eq_blue := congrArg f gray.green_eq_blue

end Rgb.Achromatic

namespace Palette

variable {pixels own : List Rgb} {c : Color} {k : Nat}

section Means

theorem meanChannel_congr {first second : Rgb → UInt8}
    (same : ∀ p ∈ own, first p = second p) (count : Nat) :
    meanChannel first count own = meanChannel second count own := by
  have values : own.map (fun p => (first p).toNat) = own.map fun p => (second p).toNat :=
    List.map_congr_left fun p member => congrArg UInt8.toNat (same p member)
  rw [meanChannel, meanChannel, channelSum, channelSum, values]

theorem meanOver_achromatic (gray : ∀ p ∈ own, p.Achromatic) (count : Nat) :
    (meanOver count own).Achromatic where
  red_eq_green := meanChannel_congr (fun p member => (gray p member).red_eq_green) count
  green_eq_blue := meanChannel_congr (fun p member => (gray p member).green_eq_blue) count

end Means

section Colors

/-- A clustered color is a mean of some pixels, wherever the centroids were. -/
theorem exists_mean_of_mem_byClusters {iterations : Nat}
    (listed : c ∈ byClusters pixels k iterations) :
    ∃ own count, (∀ p ∈ own, p ∈ pixels) ∧ c.rgb = meanOver count own := by
  cases iterations with
  | zero => cases listed
  | succ passes =>
      rw [byClusters_eq_map] at listed
      obtain ⟨i, member, rfl⟩ := List.mem_map.mp listed
      exact ⟨_, _, fun p inside => (mem_cluster.mp inside).1, rfl⟩

theorem exists_rounded_of_mem_byBuckets {step : Nat} (listed : c ∈ byBuckets pixels k step) :
    ∃ p ∈ pixels, c.rgb = p.mapChannels (roundToStep step) := by
  by_cases none : step = 0
  · rw [byBuckets, if_pos none] at listed
    cases listed
  · rw [byBuckets, if_neg none] at listed
    obtain ⟨t, tallied, rfl⟩ := List.mem_map.mp (List.mem_of_mem_take listed)
    have counted := List.mem_of_mem_filter ((ranked_perm _).mem_iff.mp tallied)
    obtain ⟨p, member, rounded⟩ := List.mem_map.mp ((mem_frequencies _).mp counted).1
    exact ⟨p, member, rounded.symm⟩

theorem quantize_achromatic (settings : PaletteSettings) (gray : ∀ p ∈ pixels, p.Achromatic) :
    ∀ c ∈ quantize settings pixels, c.rgb.Achromatic := by
  intro c listed
  unfold quantize at listed
  cases strategy : settings.quantizer with
  | clusters =>
      rw [strategy] at listed
      obtain ⟨own, count, sampled, value⟩ := exists_mean_of_mem_byClusters listed
      rw [value]
      exact meanOver_achromatic (fun p member => gray p (sampled p member)) count
  | buckets =>
      rw [strategy] at listed
      obtain ⟨p, sampled, value⟩ := exists_rounded_of_mem_byBuckets listed
      rw [value]
      exact (gray p sampled).mapChannels _

end Colors

section Picks

variable {colors rest : List Color}

theorem vibrant_achromatic (gray : ∀ d ∈ c :: rest, d.rgb.Achromatic) :
    vibrant (c :: rest) = some c := by
  have first := (gray c List.mem_cons_self).saturation
  show firstBest _ ([] ++ c :: rest) = some c
  refine firstBest_append_cons rfl (by simp) ?_
  rintro d member _ ⟨⟩
  rw [first, (gray d (List.mem_cons_of_mem c member)).saturation]
  decide

theorem darkScore_achromatic (gray : c.rgb.Achromatic) : darkScore c = none := by
  have limit : (decide (saturationLimit < 0)) = false := by decide
  simp only [darkScore, gray.saturation, limit, Bool.and_false, Bool.false_eq_true, if_false]

theorem lightScore_achromatic (gray : c.rgb.Achromatic) : lightScore c = none := by
  have limit : (decide (saturationLimit < 0)) = false := by decide
  simp only [lightScore, gray.saturation, limit, Bool.and_false, Bool.false_eq_true, if_false]

end Picks

theorem isGray_of_achromatic {p : Rgb} (gray : p.Achromatic) : isGray p = true := by
  have close (v : UInt8) : closeTo v v = true := by simp [closeTo]
  rw [isGray, gray.red_eq_green, gray.green_eq_blue, close]
  rfl

theorem isGrayscale_of_achromatic (present : pixels ≠ []) (gray : ∀ p ∈ pixels, p.Achromatic) :
    isGrayscale pixels = true := by
  have all : pixels.countP isGray = pixels.length :=
    List.countP_eq_length.mpr fun p member => isGray_of_achromatic (gray p member)
  have positive := List.length_pos_iff.mpr present
  rw [isGrayscale, all]
  exact decide_eq_true (by omega)

end Palette

/-- The analysis of a gray sample: its colors are gray, the vibrant color is the first of them, and
nothing is dark or light vibrant. A sample that 32 bits can count has a color. -/
structure Analysis.OfGray (pixels : List Rgb) (a : Analysis) : Prop where
  isGrayscale : a.isGrayscale = true
  colors : ∀ c ∈ a.palette.colors, c.rgb.Achromatic
  average : ∃ c, a.palette.average = some c ∧ c.rgb.Achromatic
  vibrant : a.vibrant = a.palette.colors.head?
  listed : pixels.length < 2 ^ 32 → a.palette.colors ≠ []
  darkVibrant : a.darkVibrant = none
  lightVibrant : a.lightVibrant = none

theorem Analysis.ofSample_achromatic {s : Settings} (valid : s.isValid = true) {pixels : List Rgb}
    (present : pixels ≠ []) (gray : ∀ p ∈ pixels, p.Achromatic) :
    (Analysis.ofSample s.palette pixels).OfGray pixels := by
  have colors := Palette.quantize_achromatic s.palette gray
  constructor
  case isGrayscale => exact Palette.isGrayscale_of_achromatic present gray
  case colors => exact colors
  case average => exact ⟨_, Palette.average_of_present present, Palette.meanOver_achromatic gray _⟩
  case vibrant =>
    show Palette.vibrant (Palette.quantize s.palette pixels) =
      (Palette.quantize s.palette pixels).head?
    cases listed : Palette.quantize s.palette pixels with
    | nil => rfl
    | cons c rest =>
        rw [listed] at colors
        exact Palette.vibrant_achromatic colors
  case listed => exact fun small => Palette.quantize_ne_nil valid small present
  case darkVibrant =>
    exact Palette.firstBest_eq_none fun c listed => Palette.darkScore_achromatic (colors c listed)
  case lightVibrant =>
    exact Palette.firstBest_eq_none fun c listed => Palette.lightScore_achromatic (colors c listed)

theorem Analysis.ofSample_achromatic_three :
    (Analysis.ofSample { colorCount := 2 }
      [⟨0, 0, 0⟩, ⟨16, 16, 16⟩, ⟨255, 255, 255⟩]).OfGray
        [⟨0, 0, 0⟩, ⟨16, 16, 16⟩, ⟨255, 255, 255⟩] ∧
    (Analysis.ofSample { colorCount := 2, quantizer := .buckets, bucketStep := 32 }
      [⟨0, 0, 0⟩, ⟨16, 16, 16⟩, ⟨255, 255, 255⟩]).OfGray
        [⟨0, 0, 0⟩, ⟨16, 16, 16⟩, ⟨255, 255, 255⟩] := by
  have clusters : Settings.isValid { palette := { colorCount := 2 } } = true := by decide +kernel
  have buckets : Settings.isValid
      { palette := { colorCount := 2, quantizer := .buckets, bucketStep := 32 } } = true := by
    decide +kernel
  exact ⟨ofSample_achromatic clusters (List.cons_ne_nil _ _) (by decide),
    ofSample_achromatic buckets (List.cons_ne_nil _ _) (by decide)⟩

/-- Stock settings list none of so many pixels of one gray that their counter is back at 0. -/
theorem Analysis.ofSample_achromatic_uncounted :
    Settings.isValid {} = true ∧
    (Analysis.ofSample {} (List.replicate (2 ^ 32) ⟨128, 128, 128⟩)).palette.colors = [] ∧
    (Analysis.ofSample {} (List.replicate (2 ^ 32) ⟨128, 128, 128⟩)).vibrant = none := by
  have none : counter (2 ^ 32) = 0 := by decide
  have resting :
      moved ⟨128, 128, 128⟩ (List.replicate (2 ^ 32) ⟨128, 128, 128⟩) = ⟨128, 128, 128⟩ :=
    moved_of_uncounted (by rw [List.length_replicate, none]) _
  have empty : quantize {} (List.replicate (2 ^ 32) ⟨128, 128, 128⟩) = [] := by
    rw [quantize, byClusters_replicate resting (by decide) (by decide) (by decide), none, rank_zero]
  refine ⟨by decide +kernel, empty, ?_⟩
  rw [ofSample, Palette.ofSample, empty]
  rfl

end ImageDigest
