import ImageDigest.Proofs.Geometry.Touch
import ImageDigest.Proofs.Image.Fingerprint
import ImageDigest.Proofs.Image.Sharpness
import ImageDigest.Proofs.Palette.OneColor
import ImageDigest.Image.Colors

/-! An image of one color is recognised as such by every analysis: whatever copies pixels or turns
them gray leaves one color in every place. -/

namespace ImageDigest

open Number

variable {b : Buffer} {c : Rgb}

namespace Buffer

namespace Uniform

theorem resample (uniform : b.Uniform c) (present : b.size.HasPixels) (target : Size) :
    (Codec.Nearest.resample b target).Uniform c := by
  intro i member
  have inside : i < target.area := member
  rw [Codec.Nearest.rgbAt_resample b inside]
  exact uniform _ (Codec.Nearest.sourcePixel_lt present inside)

theorem resize (uniform : b.Uniform c) {request : ResizeRequest} {resized : Buffer}
    (done : Codec.nearest.resize b request = .ok resized) : resized.Uniform c := by
  rw [Codec.nearest_resize] at done
  split at done
  case isTrue pixels =>
    cases done
    exact uniform.resample pixels.1 _
  case isFalse => cases done

theorem grayscale (uniform : b.Uniform c) :
    (Codec.Nearest.grayscale b).Uniform (.ofGray (Codec.Nearest.luma c)) := by
  intro i member
  have inside : i < b.size.area := member
  have byte : (Codec.Nearest.grayscale b).byteAt (i * 1 + 0) =
      Codec.Nearest.luma (b.rgbAt (i / b.size.width * b.size.width + i % b.size.width)) :=
    byteAt_tabulate _ _ _ inside Nat.one_pos
  rw [Nat.div_add_mod', uniform i inside] at byte
  rw [rgbAt_of_gray (b := Codec.Nearest.grayscale b) one_le_two]
  exact congrArg Rgb.ofGray byte

theorem laplacian (uniform : b.Uniform c) {x y : Nat} (member : (x, y) ∈ b.interior) :
    b.laplacian x y = 0 := by
  have shows : b.Shows b.size fun _ _ => c.red.toNat :=
    ⟨rfl, fun _ column _ row => sample_cast (uniform.firstChannel column row)⟩
  rw [shows.laplacian member, cross]
  ring

theorem squaredLaplacianSum (uniform : b.Uniform c) : b.squaredLaplacianSum = 0 := by
  have flat : b.interior.map (fun cell => b.squaredLaplacian cell.1 cell.2) =
      List.replicate b.interior.length 0 := by
    rw [List.eq_replicate_iff, List.length_map]
    refine ⟨rfl, fun value listed => ?_⟩
    rcases List.mem_map.mp listed with ⟨⟨x, y⟩, member, rfl⟩
    simp only [squaredLaplacian, uniform.laplacian member, Int.natAbs_zero]
  calc
    b.squaredLaplacianSum
        = total (b.interior.map fun cell => b.squaredLaplacian cell.1 cell.2) := rfl
    _ = 0 := by rw [flat, total_replicate, Nat.mul_zero]

theorem laplacianVariance (uniform : b.Uniform c) (bound : b.pixelCount < 2 ^ 64) :
    b.laplacianVariance = none ∨ b.laplacianVariance = some 0 := by
  unfold Buffer.laplacianVariance
  by_cases small : b.size.width < 3 ∨ b.size.height < 3
  · exact .inl (if_pos small)
  · right
    have inner : 0 < (b.size.width - 2) * (b.size.height - 2) :=
      Nat.mul_pos (by omega) (by omega)
    have fewer : (b.size.width - 2) * (b.size.height - 2) ≤ b.pixelCount :=
      Nat.mul_le_mul (Nat.sub_le _ 2) (Nat.sub_le _ 2)
    rw [if_neg small, uniform.squaredLaplacianSum]
    exact congrArg some (zero_div_of_pos (ofNat_pos inner (fewer.trans_lt bound)))

end Uniform

end Buffer

namespace Score

theorem ofVariance_zero {settings : SharpnessSettings} (divisor : 0 < settings.divisor)
    (cap : 0 < settings.cap) : ofVariance settings 0 = .ofNat 0 := by
  have root : (0 : Float).sqrt = 0 := rfl
  have zero : (0 : Float).isNaN = false := rfl
  have least : leastNumber 0 settings.cap = 0 := by
    rw [leastNumber, zero, (not_isNaN_of_lt cap).2, if_neg (not_lt_of_lt cap)]
    rfl
  have rounded : (FloatValue.ofFloat 0).clampedRound 255 = 0 := by decide +kernel
  rw [ofVariance, root, zero_div_of_pos divisor, least, rounded]

theorem ofSamples_uniform {settings : SharpnessSettings} (divisor : 0 < settings.divisor)
    (cap : 0 < settings.cap) (uniform : b.Uniform c) (bound : b.pixelCount < 2 ^ 64) :
    ofSamples settings b = .ofNat 0 := by
  rcases uniform.laplacianVariance bound with variance | variance
  · rw [ofSamples, variance]
  · rw [ofSamples, variance]
    exact ofVariance_zero divisor cap

end Score

namespace Fingerprint

theorem marked_uniform {grid : Buffer} {algorithm : Algorithm} (shape : IsGrid algorithm grid)
    (uniform : grid.Uniform c) {x y : Nat} (column : x < 8) (row : y < 8) :
    Marked algorithm grid (x, y) ↔ algorithm = .average := by
  have value (i j : Nat) (column : i < algorithm.grid.width) (row : j < algorithm.grid.height) :
      grid.firstChannel i j = c.red := by
    rw [← shape.size] at column row
    exact uniform.firstChannel column row
  cases algorithm with
  | difference =>
      have next : x + 1 < 9 := Nat.succ_lt_succ column
      have own : x < 9 := Nat.lt_of_succ_lt next
      rw [Marked, value x y own row, value (x + 1) y next row]
      exact iff_of_false (Nat.lt_irrefl _) (by decide)
  | average =>
      have level (i : Nat) (column : i < 8) (j : Nat) (row : j < 8) :
          grid.firstChannel i j = c.red := value i j column row
      rw [Marked, sum_of_level level, level x column y row]
      exact iff_of_true (Nat.le_refl _) rfl

theorem bits_uniform {grid : Buffer} {algorithm : Algorithm} (shape : IsGrid algorithm grid)
    (uniform : grid.Uniform c) :
    bits grid algorithm = List.replicate bitCount (decide (algorithm = .average)) := by
  rw [bits_eq_replicate_iff shape, forall_mem_square]
  intro x column y row
  rw [decide_eq_decide, marked_uniform shape uniform column row]

end Fingerprint

namespace Image

theorem sample_uniform (uniform : b.Uniform c) {edge : Nat} {sampled : Buffer}
    (done : (sample .nearest edge b).result = .ok sampled) : sampled.Uniform c := by
  unfold sample at done
  split at done
  case isTrue =>
    cases done
    exact uniform
  case isFalse => exact uniform.resize done

theorem fingerprint_uniform (present : b.size.HasPixels) (uniform : b.Uniform c)
    (algorithm : Algorithm) :
    (fingerprint .nearest algorithm b).result =
      .ok ⟨Fingerprint.hexOfBits
        (List.replicate Fingerprint.bitCount (decide (algorithm = .average))), algorithm⟩ := by
  obtain ⟨_, _, made⟩ := fingerprint_ok_of_hasPixels Codec.nearest_regular algorithm present
  obtain ⟨sampled, gray, grid, first, second, third, read⟩ := fingerprint_ok made
  cases second
  have plain : grid.Uniform _ := (sample_uniform uniform first).grayscale.resize third
  have shape := Fingerprint.isGrid_of_ofGrid read
  have same := Except.ok.inj (read.symm.trans (Fingerprint.ofGrid_isGrid shape))
  rw [made, same, Fingerprint.bits_uniform shape plain]

theorem score_uniform {settings : SharpnessSettings} (policy : settings.oversize = .downsample)
    (divisor : 0 < settings.divisor) (cap : 0 < settings.cap) (uniform : b.Uniform c)
    (bound : b.pixelCount < 2 ^ 64) :
    (score .nearest settings b).result = .ok (.ofNat 0) := by
  by_cases above : AboveCeiling settings b
  · obtain ⟨reduced, done, scored⟩ := scoreReduced_ok Codec.nearest_regular.stretches above
    have size : reduced.size = b.size.ceiling settings.maxPixels :=
      (Codec.nearest_regular.resize_shape _ _ _ done).1
    have fewer : reduced.pixelCount < 2 ^ 64 := by
      have limit := Size.ceiling_area_le b.size above.1
      have beyond := above.2
      rw [Buffer.pixelCount, size]
      omega
    rw [score_of_above policy above, scored,
      Score.ofSamples_uniform divisor cap (uniform.resize done) fewer]
  · rw [score_of_within above, scoreAsIs_result, Score.ofBuffer_of_within above,
      Score.ofSamples_uniform divisor cap uniform bound]
    rfl

theorem sampleSize_area_le (words : b.size.Within Size.largest) (edge : Nat) :
    (sampleSize edge b).area ≤ b.size.area := by
  unfold sampleSize
  split
  case isTrue large => exact (Size.fit_within_source large.1 words _).area_le
  case isFalse => exact Nat.le_refl _

theorem within_largest (present : b.size.HasPixels) (bound : b.size.area < 2 ^ 32) :
    b.size.Within Size.largest where
  width := Nat.le_sub_one_of_lt ((Nat.le_mul_of_pos_right _ present.height).trans_lt bound)
  height := Nat.le_sub_one_of_lt ((Nat.le_mul_of_pos_left _ present.width).trans_lt bound)

theorem analysis_uniform {s : Settings} (valid : s.isValid = true)
    (strategy : s.palette.quantizer = .clusters) (present : b.size.HasPixels)
    (uniform : b.Uniform c) (bound : b.size.area < 2 ^ 32) :
    ∃ a n, (analysis .nearest s.palette b).result = .ok a ∧ a.OfOneColor c n := by
  have square := (Settings.sound_of_isValid valid).sampleSize
  obtain ⟨sampled, done, size, -⟩ := sample_ok Codec.nearest_regular.fits square b
  have full : 0 < sampled.pixelCount := by
    rw [Buffer.pixelCount, size, Nat.pos_iff_ne_zero, ← Size.hasPixels_iff_area,
      sampleSize_hasPixels_iff]
    exact present
  have few : sampled.pixelCount < 2 ^ 32 := by
    rw [Buffer.pixelCount, size]
    exact (sampleSize_area_le (within_largest present bound) _).trans_lt bound
  have pixels := (sample_uniform uniform done).rgbPixels
  have result : (analysis .nearest s.palette b).result =
      .ok (.ofSample s.palette (List.replicate sampled.pixelCount c)) := by
    simp only [analysis, samplePixels, Traced.result_bind, done, ok_bind, Traced.result_pure,
      pixels]
  exact ⟨_, _, result, Analysis.ofSample_replicate valid strategy c full few⟩

/-- What every analysis makes of an image of one color: a palette of that color alone, which stands
for the whole sample, a fingerprint of equal digits, and no sharpness. -/
theorem single_color (size : Size) (present : 1 ≤ size.width ∧ 1 ≤ size.height)
    (bound : size.width * size.height < 2 ^ 32) (c : Rgb) (s : Settings)
    (valid : s.isValid = true) (strategy : s.palette.quantizer = .clusters) :
    (∃ a color mean, (analysis .nearest s.palette (.filled size c)).result = .ok a ∧
      a.palette.colors = [color] ∧ color.rgb = c ∧ color.count? = some a.palette.sampleSize ∧
      a.palette.average = some mean ∧ mean.rgb = c ∧
      a.isMonochromatic = true ∧ (a.isGrayscale = true ↔ Palette.isGray c = true)) ∧
    (fingerprint .nearest .difference (.filled size c)).result =
      .ok ⟨"0000000000000000", .difference⟩ ∧
    (fingerprint .nearest .average (.filled size c)).result =
      .ok ⟨"ffffffffffffffff", .average⟩ ∧
    (s.sharpness.oversize = .downsample →
      (score .nearest s.sharpness (.filled size c)).result = .ok (.ofNat 0)) := by
  have full : size.HasPixels := ⟨present.1, present.2⟩
  have uniform := Buffer.filled_uniform size c
  have sound := Settings.sound_of_isValid valid
  refine ⟨?_, ?_, ?_, ?_⟩
  · obtain ⟨a, n, done, one⟩ := analysis_uniform valid strategy full uniform bound
    refine ⟨a, _, _, done, one.colors, rfl, ?_, one.average, rfl, one.isMonochromatic, ?_⟩
    · rw [one.sampleSize]
      rfl
    · rw [one.isGrayscale]
  · rw [fingerprint_uniform full uniform]
    decide +kernel
  · rw [fingerprint_uniform full uniform]
    decide +kernel
  · intro policy
    have few : (Buffer.filled size c).pixelCount < 2 ^ 64 :=
      bound.trans (Nat.pow_lt_pow_right one_lt_two (by decide))
    exact score_uniform policy sound.divisor.1 sound.cap.1 uniform few

theorem single_color_band :
    (∃ a color mean, (analysis .nearest {} (.filled ⟨250, 3⟩ ⟨200, 10, 10⟩)).result = .ok a ∧
      a.palette.colors = [color] ∧ color.rgb = ⟨200, 10, 10⟩ ∧
      color.count? = some a.palette.sampleSize ∧
      a.palette.average = some mean ∧ mean.rgb = ⟨200, 10, 10⟩ ∧
      a.isMonochromatic = true ∧
      (a.isGrayscale = true ↔ Palette.isGray ⟨200, 10, 10⟩ = true)) ∧
    (score .nearest {} (.filled ⟨250, 3⟩ ⟨200, 10, 10⟩)).result = .ok (.ofNat 0) := by
  have images := single_color ⟨250, 3⟩ (by decide) (by decide) ⟨200, 10, 10⟩ {}
    (by decide +kernel) rfl
  exact ⟨images.1, images.2.2.2 rfl⟩

end Image

end ImageDigest
