import ImageDigest.Image.Colors
import ImageDigest.Proofs.Image.Fingerprint
import ImageDigest.Proofs.Image.Sharpness
import ImageDigest.Proofs.Palette.Analysis

/-! An image without pixels has a blank palette and the score 0, and no fingerprint. Nothing of that
takes a codec that works. -/

namespace ImageDigest

namespace Image

variable {codec : Codec} {b : Buffer}

theorem samplePixels_of_empty (codec : Codec) (empty : ¬ b.size.HasPixels)
    (settings : PaletteSettings) : samplePixels codec settings b = pure [] := by
  have none : b.rgbPixels = [] := by
    have count : b.pixelCount = 0 := not_not.mp (mt b.size.hasPixels_iff_area.mpr empty)
    rw [Buffer.rgbPixels, count]
    rfl
  rw [samplePixels, sample_of_not_exceeds fun large => empty large.1]
  show pure b.rgbPixels = _
  rw [none]

theorem palette_of_empty (codec : Codec) (empty : ¬ b.size.HasPixels)
    (settings : PaletteSettings) : palette codec settings b = pure Palette.blank := by
  rw [palette, samplePixels_of_empty codec empty]
  exact congrArg pure (Palette.ofSample_of_nothing settings)

theorem analysis_of_empty (codec : Codec) (empty : ¬ b.size.HasPixels)
    (settings : PaletteSettings) : analysis codec settings b = pure Analysis.blank := by
  rw [analysis, samplePixels_of_empty codec empty]
  exact congrArg pure (Analysis.ofSample_of_nothing settings)

theorem score_of_empty (codec : Codec) (empty : ¬ b.size.HasPixels)
    (settings : SharpnessSettings) : score codec settings b = pure (.ofNat 0) := by
  have within : ¬ AboveCeiling settings b := fun above => empty above.hasPixels
  have small : b.size.width < 3 ∨ b.size.height < 3 := by
    rw [b.size.hasPixels_iff] at empty
    omega
  have none : b.laplacianVariance = none := if_pos small
  rw [score_of_within within, scoreAsIs, Score.ofBuffer_of_within within, Score.ofSamples, none]
  rfl

def RefusesEmpty (codec : Codec) : Prop :=
  ∀ (b : Buffer) (request : ResizeRequest),
    b.size.width * b.size.height = 0 → ∃ e, codec.resize b request = .error e

/-- A gray version, where there is one, has the size of what it was made from. -/
def KeepsSizeInGray (codec : Codec) : Prop :=
  ∀ b gray : Buffer, codec.grayscale b = .ok gray → gray.size = b.size

theorem fingerprint_of_empty (refuses : RefusesEmpty codec) (keeps : KeepsSizeInGray codec)
    (empty : b.size.width * b.size.height = 0) (algorithm : Algorithm) (h : Fingerprint) :
    (fingerprint codec algorithm b).result ≠ .ok h := by
  intro made
  obtain ⟨sampled, gray, grid, first, second, third, -⟩ := fingerprint_ok made
  have void : ¬ b.size.HasPixels := fun present => b.size.hasPixels_iff_area.mp present empty
  -- the image is its own sample, so it is still empty where the grid is asked for
  rw [sample_of_not_exceeds fun large => void large.1] at first
  cases first
  have flat : gray.size.width * gray.size.height = 0 := by rwa [keeps _ gray second]
  obtain ⟨e, failed⟩ := refuses gray ⟨algorithm.grid, .fill⟩ flat
  exact ok_error_absurd third failed

/-- Without pixels, whatever the other edge and the channels are: the palette and the analysis are
blank and the score is 0 under all settings, with no call of the codec. There is no fingerprint if
the codec refuses to resize what is empty. -/
theorem no_pixels (b : Buffer) (empty : b.size.width * b.size.height = 0) (codec : Codec) :
    (∀ settings, (palette codec settings b).result = .ok Palette.blank ∧
      (palette codec settings b).calls = []) ∧
    (∀ settings, (analysis codec settings b).result = .ok Analysis.blank ∧
      (analysis codec settings b).calls = []) ∧
    (∀ settings, (score codec settings b).result = .ok (.ofNat 0) ∧
      (score codec settings b).calls = []) ∧
    (RefusesEmpty codec → KeepsSizeInGray codec →
      ∀ algorithm h, (fingerprint codec algorithm b).result ≠ .ok h) := by
  have void : ¬ b.size.HasPixels := fun present => b.size.hasPixels_iff_area.mp present empty
  refine ⟨?_, ?_, ?_, ?_⟩
  · intro settings
    rw [palette_of_empty codec void]
    exact ⟨rfl, rfl⟩
  · intro settings
    rw [analysis_of_empty codec void]
    exact ⟨rfl, rfl⟩
  · intro settings
    rw [score_of_empty codec void]
    exact ⟨rfl, rfl⟩
  · intro refuses keeps algorithm h
    exact fingerprint_of_empty refuses keeps empty algorithm h

theorem no_pixels_flat :
    (∀ codec : Codec, (score codec { maxPixels := 9, oversize := .reject }
      (.filled ⟨200, 0⟩ ⟨1, 2, 3⟩)).result = .ok (.ofNat 0)) ∧
    ∀ h, (fingerprint
      ⟨fun _ => .error (.undecodable "no"), fun _ _ => .error (.resize "no"),
        fun _ => .error (.undecodable "no")⟩
      .average (.filled ⟨200, 0⟩ ⟨1, 2, 3⟩)).result ≠ .ok h := by
  constructor
  · intro codec
    exact ((no_pixels (.filled ⟨200, 0⟩ ⟨1, 2, 3⟩) rfl codec).2.2.1 _).1
  · exact (no_pixels (.filled ⟨200, 0⟩ ⟨1, 2, 3⟩) rfl _).2.2.2 (fun _ _ _ => ⟨_, rfl⟩)
      (by intro b gray done; cases done) .average

end Image

end ImageDigest
