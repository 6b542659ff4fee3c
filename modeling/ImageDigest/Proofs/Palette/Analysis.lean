import ImageDigest.Palette.Basic
import ImageDigest.Proofs.Palette.Bucket
import ImageDigest.Proofs.Palette.Cluster
import ImageDigest.Proofs.Palette.Pick
import ImageDigest.Proofs.Settings.Valid

namespace ImageDigest

open Number Palette

/-- An analysis of a sample that fits together: it is blank for a sample without pixels, and
otherwise lists ranked colors, which the dominant color and the picks are taken from. -/
structure Analysis.WellFormed (settings : PaletteSettings) (pixels : List Rgb)
    (a : Analysis) : Prop where
  sampleSize : a.palette.sampleSize = pixels.length
  colors_empty_iff : a.palette.colors = [] ↔ pixels.length = 0
  blank : pixels.length = 0 →
    a.palette.dominant = none ∧ a.palette.average = none ∧ a.vibrant = none ∧
      a.darkVibrant = none ∧ a.lightVibrant = none ∧
      a.isGrayscale = false ∧ a.isMonochromatic = false
  length_le : a.palette.colors.length ≤ min settings.colorCount pixels.length
  counted : ∀ c ∈ a.palette.colors, ∃ n, c.count? = some n ∧ 1 ≤ n
  decreasing : a.palette.colors.Pairwise fun c d => d.count ≤ c.count
  clusters_total : settings.quantizer = .clusters →
    total (a.palette.colors.map Color.count) = pixels.length
  buckets_total_le : settings.quantizer = .buckets →
    total (a.palette.colors.map Color.count) ≤ pixels.length
  buckets_total_iff : settings.quantizer = .buckets →
    (total (a.palette.colors.map Color.count) = pixels.length ↔
      (pixels.map (Rgb.mapChannels (roundToStep settings.bucketStep))).toFinset.card ≤
        settings.colorCount)
  dominant : a.palette.dominant = a.palette.colors[0]?
  dominant_max : ∀ c, a.palette.dominant = some c →
    ∀ d ∈ a.palette.colors, d.count ≤ c.count
  average : 0 < pixels.length → a.palette.average.isSome = true
  vibrant : 0 < pixels.length → a.vibrant.isSome = true
  picks : ∀ c, a.vibrant = some c ∨ a.darkVibrant = some c ∨ a.lightVibrant = some c →
    c ∈ a.palette.colors

def Palette.blank : Palette where
  colors := []
  dominant := none
  average := none
  sampleSize := 0

def Analysis.blank : Analysis where
  palette := .blank
  vibrant := none
  darkVibrant := none
  lightVibrant := none
  isGrayscale := false
  isMonochromatic := false

namespace Palette

variable {s : Settings} {pixels : List Rgb}

/-- Settings that are not valid are no exception. -/
theorem quantize_of_nothing (settings : PaletteSettings) : quantize settings [] = [] := by
  unfold quantize
  cases settings.quantizer with
  | clusters => exact byClusters_nil _ _
  | buckets => exact byBuckets_nil _ _

theorem quantize_ranked (valid : s.isValid = true) (pixels : List Rgb) :
    Ranked (quantize s.palette pixels) := by
  unfold quantize
  cases s.palette.quantizer with
  | clusters => exact byClusters_ranked _ _ _
  | buckets => exact byBuckets_ranked (Settings.bucketStep_pos valid)

theorem quantize_total_le (valid : s.isValid = true) (pixels : List Rgb) :
    total ((quantize s.palette pixels).map Color.count) ≤ pixels.length := by
  unfold quantize
  cases s.palette.quantizer with
  | clusters => exact byClusters_total_le _ _ _
  | buckets => exact byBuckets_total_le (Settings.bucketStep_pos valid)

theorem quantize_length_le (valid : s.isValid = true) (pixels : List Rgb) :
    (quantize s.palette pixels).length ≤ min s.palette.colorCount pixels.length := by
  have counted := (quantize_ranked valid pixels).length_le_total
  have covered := quantize_total_le valid pixels
  have asked : (quantize s.palette pixels).length ≤ s.palette.colorCount := by
    unfold quantize
    cases s.palette.quantizer with
    | clusters => exact byClusters_length_le _ _ _
    | buckets => exact byBuckets_length_le _ _ _
  omega

theorem quantize_ne_nil (valid : s.isValid = true) (small : pixels.length < 2 ^ 32)
    (present : pixels ≠ []) : quantize s.palette pixels ≠ [] := by
  unfold quantize
  cases s.palette.quantizer with
  | clusters =>
      exact byClusters_ne_nil small (Settings.colorCount_pos valid)
        (Settings.iterations_pos valid) present
  | buckets =>
      exact byBuckets_ne_nil small (Settings.bucketStep_pos valid)
        (Settings.colorCount_pos valid) present

theorem average_of_present (present : pixels ≠ []) :
    average? pixels = some ⟨mean pixels, none⟩ := by
  apply if_neg
  rwa [List.isEmpty_iff]

theorem ofSample_of_nothing (settings : PaletteSettings) : ofSample settings [] = blank := by
  rw [ofSample, quantize_of_nothing]
  rfl

end Palette

theorem Analysis.ofSample_of_nothing (settings : PaletteSettings) :
    ofSample settings [] = blank := by
  rw [ofSample, Palette.ofSample_of_nothing]
  rfl

theorem Analysis.ofSample_wellFormed (s : Settings) (valid : s.isValid = true)
    {pixels : List Rgb} (small : pixels.length < 2 ^ 32) :
    (Analysis.ofSample s.palette pixels).WellFormed s.palette pixels where
  sampleSize := rfl
  colors_empty_iff := by
    rw [List.length_eq_zero_iff]
    constructor
    · intro none
      by_contra present
      exact quantize_ne_nil valid small present none
    · rintro rfl
      exact quantize_of_nothing _
  blank := by
    intro empty
    rw [List.length_eq_zero_iff.mp empty, ofSample_of_nothing]
    exact ⟨rfl, rfl, rfl, rfl, rfl, rfl, rfl⟩
  length_le := quantize_length_le valid pixels
  counted := (quantize_ranked valid pixels).counted
  decreasing := (quantize_ranked valid pixels).decreasing
  clusters_total := by
    intro strategy
    show total ((quantize s.palette pixels).map Color.count) = _
    rw [quantize, strategy]
    exact byClusters_total small (Settings.colorCount_pos valid) (Settings.iterations_pos valid)
  buckets_total_le := fun _ => quantize_total_le valid pixels
  buckets_total_iff := by
    intro strategy
    show total ((quantize s.palette pixels).map Color.count) = _ ↔ _
    rw [quantize, strategy]
    exact byBuckets_total_iff small (Settings.bucketStep_pos valid)
  dominant := List.head?_eq_getElem?
  dominant_max := by
    intro c first
    apply (quantize_ranked valid pixels).head_max
    rw [← List.head?_eq_getElem?]
    exact first
  average := by
    intro present
    show (average? pixels).isSome = true
    rw [average_of_present (List.length_pos_iff.mp present)]
    rfl
  vibrant := by
    intro present
    exact firstBest_isSome _ (quantize_ne_nil valid small (List.length_pos_iff.mp present))
  picks := by
    intro c picked
    rcases picked with picked | picked | picked
    · exact firstBest_mem picked
    · exact firstBest_mem picked
    · exact firstBest_mem picked

theorem Analysis.ofSample_wellFormed_cut :
    (Analysis.ofSample { colorCount := 2, quantizer := .buckets, bucketStep := 255 }
      [⟨250, 0, 0⟩, ⟨0, 250, 0⟩, ⟨0, 0, 250⟩]).palette.colors.length ≤ 2 ∧
    total ((Analysis.ofSample { colorCount := 2, quantizer := .buckets, bucketStep := 255 }
      [⟨250, 0, 0⟩, ⟨0, 250, 0⟩, ⟨0, 0, 250⟩]).palette.colors.map Color.count) ≠ 3 ∧
    total ((Analysis.ofSample {} [⟨250, 0, 0⟩, ⟨0, 250, 0⟩, ⟨0, 0, 250⟩]).palette.colors.map
      Color.count) = 3 := by
  have valid : Settings.isValid
      { palette := { colorCount := 2, quantizer := .buckets, bucketStep := 255 } } = true := by
    decide +kernel
  have stock : Settings.isValid {} = true := by decide +kernel
  have small : [(⟨250, 0, 0⟩ : Rgb), ⟨0, 250, 0⟩, ⟨0, 0, 250⟩].length < 2 ^ 32 := by decide
  have buckets := Analysis.ofSample_wellFormed _ valid small
  have clusters := Analysis.ofSample_wellFormed _ stock small
  refine ⟨buckets.length_le, ?_, clusters.clusters_total rfl⟩
  intro whole
  exact absurd ((buckets.buckets_total_iff rfl).mp whole) (by decide)

end ImageDigest
