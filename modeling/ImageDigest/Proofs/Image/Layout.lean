import ImageDigest.Image.Colors
import ImageDigest.Proofs.Image.Fingerprint
import ImageDigest.Proofs.Image.Sharpness

/-! Images that show the same colors have the same results, whatever their alpha and layout. -/

namespace ImageDigest.Image

open Buffer

section Agreement

variable {ε ε' β : Type} {a b : Buffer}

/-- Both fail for one reason, or both give images of the same colors. -/
inductive Agree : Except ε Buffer → Except ε Buffer → Prop where
  | failed (e : ε) : Agree (.error e) (.error e)
  | done {a b : Buffer} (same : SameColors a b) : Agree (.ok a) (.ok b)

theorem Agree.mapError {x y : Except ε Buffer} (agree : Agree x y) (wrap : ε → ε') :
    Agree (x.mapError wrap) (y.mapError wrap) := by
  cases agree with
  | failed e => exact .failed (wrap e)
  | done same => exact .done same

theorem Agree.bind_congr {x y : Except ε Buffer} (agree : Agree x y) {f : Buffer → Except ε β}
    (next : ∀ a b, SameColors a b → f a = f b) : x >>= f = y >>= f := by
  cases agree with
  | failed e => rfl
  | done same => exact next _ _ same

theorem resize_agree (same : SameColors a b) (request : ResizeRequest) :
    Agree (Codec.nearest.resize a request) (Codec.nearest.resize b request) := by
  rw [Codec.nearest_resize, Codec.nearest_resize, same.size]
  split
  case isTrue pixels =>
    have present : a.size.HasPixels := by
      rw [same.size]
      exact pixels.1
    exact .done (Codec.Nearest.resample_sameColors same present)
  case isFalse => exact .failed _

theorem sample_agree (same : SameColors a b) (edge : Nat) :
    Agree (sample .nearest edge a).result (sample .nearest edge b).result := by
  have empty : a.isEmpty = b.isEmpty := by
    unfold Buffer.isEmpty
    rw [same.pixelCount]
  unfold sample
  rw [empty, same.size]
  split
  case isTrue => exact .done same
  case isFalse => exact resize_agree same _

end Agreement

structure SameResults (codec : Codec) (a b : Buffer) : Prop where
  palette : ∀ settings,
    (palette codec settings a).result = (palette codec settings b).result
  analysis : ∀ settings,
    (analysis codec settings a).result = (analysis codec settings b).result
  fingerprint : ∀ algorithm,
    (fingerprint codec algorithm a).result = (fingerprint codec algorithm b).result
  score : ∀ settings,
    (score codec settings a).result = (score codec settings b).result

section Results

variable {a b : Buffer}

theorem samplePixels_congr (same : SameColors a b) (settings : PaletteSettings) :
    (samplePixels .nearest settings a).result = (samplePixels .nearest settings b).result := by
  simp only [samplePixels, Traced.result_bind, Traced.result_pure]
  apply (sample_agree same settings.sampleSize).bind_congr
  intro sampled sampled' alike
  rw [alike.rgbPixels]

theorem fingerprint_congr (same : SameColors a b) (algorithm : Algorithm) :
    (fingerprint .nearest algorithm a).result = (fingerprint .nearest algorithm b).result := by
  rw [result_fingerprint, result_fingerprint]
  apply ((sample_agree same fingerprintSample).mapError ImageError.codec).bind_congr
  intro sampled sampled' alike
  have gray : Codec.nearest.grayscale sampled = Codec.nearest.grayscale sampled' :=
    congrArg Except.ok (Codec.Nearest.grayscale_congr alike)
  rw [gray]

theorem scoreAsIs_congr (same : SameColors a b) (settings : SharpnessSettings) :
    scoreAsIs settings a = scoreAsIs settings b := by
  unfold scoreAsIs
  rw [Score.ofBuffer_congr same]

theorem scoreReduced_congr (same : SameColors a b) (settings : SharpnessSettings) (ceiling : Nat) :
    (scoreReduced .nearest settings ceiling a).result =
      (scoreReduced .nearest settings ceiling b).result := by
  rw [result_scoreReduced, result_scoreReduced, same.size]
  apply ((resize_agree same _).mapError ImageError.codec).bind_congr
  intro reduced reduced' alike
  rw [scoreAsIs_congr alike]

theorem score_congr (same : SameColors a b) (settings : SharpnessSettings) :
    (score .nearest settings a).result = (score .nearest settings b).result := by
  have asIs := scoreAsIs_congr same settings
  have reach : AboveCeiling settings a ↔ AboveCeiling settings b := by
    unfold AboveCeiling
    rw [same.pixelCount]
  by_cases above : AboveCeiling settings a
  · cases policy : settings.oversize with
    | reject => rw [score_of_reject policy, score_of_reject policy, asIs]
    | downsample =>
        rw [score_of_above policy above, score_of_above policy (reach.mp above)]
        exact scoreReduced_congr same settings settings.maxPixels
  · rw [score_of_within above, score_of_within fun beyond => above (reach.mpr beyond), asIs]

theorem sameResults (same : SameColors a b) : SameResults .nearest a b where
  palette := by
    intro settings
    simp only [palette, Traced.result_bind, Traced.result_pure, samplePixels_congr same]
  analysis := by
    intro settings
    simp only [analysis, Traced.result_bind, Traced.result_pure, samplePixels_congr same]
  fingerprint := fingerprint_congr same
  score := score_congr same

end Results

/-- Alpha makes no difference to any result, nor does it matter whether a gray value stands alone,
with an alpha, or once for each color channel. -/
theorem layout_irrelevant :
    (∀ a b : Buffer, a.size = b.size → a.channels = b.channels →
      a.channels = 2 ∨ a.channels = 4 →
      (∀ i < a.data.size, (i + 1) % a.channels ≠ 0 → a.byteAt i = b.byteAt i) →
      SameResults .nearest a b) ∧
    (∀ gray veiled tripled : Buffer, gray.size = veiled.size → gray.size = tripled.size →
      gray.channels = 1 → veiled.channels = 2 → tripled.channels = 3 →
      (∀ i < gray.pixelCount, veiled.byteAt (2 * i) = gray.byteAt i) →
      (∀ i < gray.pixelCount, ∀ k < 3, tripled.byteAt (3 * i + k) = gray.byteAt i) →
      SameResults .nearest gray veiled ∧ SameResults .nearest gray tripled ∧
        SameResults .nearest veiled tripled) := by
  constructor
  · intro a b size channels layout agree
    exact sameResults (sameColors_of_alpha size channels layout agree)
  · intro gray veiled tripled size size' single double triple values values'
    have left := sameColors_of_grayAlpha size single double values
    have right := sameColors_of_tripled size' single triple values'
    exact ⟨sameResults left, sameResults right, sameResults (left.symm.trans right)⟩

theorem layout_irrelevant_two_pixels :
    SameResults .nearest
      { size := ⟨2, 1⟩, channels := 4, data := #[9, 8, 7, 0, 6, 5, 4, 255], data_size := rfl }
      { size := ⟨2, 1⟩, channels := 4, data := #[9, 8, 7, 200, 6, 5, 4, 1], data_size := rfl } ∧
    SameResults .nearest
      { size := ⟨2, 1⟩, channels := 2, data := #[10, 99, 20, 0], data_size := rfl }
      { size := ⟨2, 1⟩, channels := 3, data := #[10, 10, 10, 20, 20, 20], data_size := rfl } := by
  constructor
  · exact layout_irrelevant.1 _ _ rfl rfl (.inr rfl) (by decide)
  · have layouts := layout_irrelevant.2
      { size := ⟨2, 1⟩, channels := 1, data := #[10, 20], data_size := rfl }
      { size := ⟨2, 1⟩, channels := 2, data := #[10, 99, 20, 0], data_size := rfl }
      { size := ⟨2, 1⟩, channels := 3, data := #[10, 10, 10, 20, 20, 20], data_size := rfl }
      rfl rfl rfl rfl rfl (by decide) (by decide)
    exact layouts.2.2

end ImageDigest.Image
