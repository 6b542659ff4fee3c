import ImageDigest.Codec.Standard
import ImageDigest.Proofs.Codec.Nearest

/-! Every codec on top of a library of pictures keeps the same contract as the copying codec. -/

namespace ImageDigest

namespace Layout

theorem ofChannels?_eq {n : Nat} (positive : 1 ≤ n) (atMost : n ≤ 4) :
    ∃ layout, ofChannels? n = some layout ∧ layout.channels = n := by
  obtain rfl | rfl | rfl | rfl : n = 1 ∨ n = 2 ∨ n = 3 ∨ n = 4 := by omega
  · exact ⟨.gray, rfl, rfl⟩
  · exact ⟨.grayAlpha, rfl, rfl⟩
  · exact ⟨.color, rfl, rfl⟩
  · exact ⟨.colorAlpha, rfl, rfl⟩

end Layout

namespace PictureLibrary

/-- Samples of the right number make a picture of their size, a picture gives all its samples back,
and its gray version has its size. -/
structure Lawful (library : PictureLibrary) : Prop where
  ofRaw_ok : ∀ (layout : Layout) (size : Size) (samples : Array UInt8),
    samples.size = size.area * layout.channels →
      ∃ image, library.ofRaw layout size samples = some image ∧
        library.size (.raster layout image) = size
  raw_size : ∀ (layout : Layout) (image : library.Raster layout),
    (library.raw image).size = (library.size (.raster layout image)).area * layout.channels
  gray_size : ∀ (layout : Layout) (image : library.Raster layout),
    library.size (.raster .gray (library.converted .gray (.raster layout image))) =
      library.size (.raster layout image)

/-- Stretching brings pictures to exactly this size; their type says that they keep their layout. -/
def StretchesTo (library : PictureLibrary) (target : Size) : Prop :=
  ∀ (layout : Layout) (image : library.Raster layout),
    (library.size (.raster layout image)).HasPixels →
      library.size (.raster layout (library.stretched image target)) = target

section Contract

variable {library : PictureLibrary} {b : Buffer} {request : ResizeRequest}

theorem wrap_ok (lawful : library.Lawful) (b : Buffer) :
    ∃ layout image, library.wrap b = .ok ⟨layout, image⟩ ∧
      library.size (.raster layout image) = b.size ∧ layout.channels = b.channels := by
  rcases Layout.ofChannels?_eq b.channels_pos b.channels_le with ⟨layout, known, channels⟩
  have length : b.data.size = b.size.area * layout.channels := by rw [channels, b.data_size]
  rcases lawful.ofRaw_ok layout b.size b.data length with ⟨image, made, size⟩
  refine ⟨layout, image, ?_, size, channels⟩
  simp only [wrap, known, made]

theorem unwrap_ok (lawful : library.Lawful) (layout : Layout) (image : library.Raster layout) :
    ∃ b, library.unwrap (.raster layout image) = .ok b ∧
      b.size = library.size (.raster layout image) ∧ b.channels = layout.channels := by
  have length := lawful.raw_size layout image
  refine ⟨⟨_, _, _, layout.channels_pos, layout.channels_le, length⟩, ?_, rfl, rfl⟩
  simp only [unwrap, flattened, Buffer.ofData_ok layout.channels_pos layout.channels_le length,
    mapError_of_ok]

theorem resize_of_void (void : ¬ (b.size.HasPixels ∧ (request.target b.size).HasPixels)) :
    ∃ reason, library.resize b request = .error (.resize reason) := by
  unfold resize
  by_cases present : b.size.HasPixels
  · have full : ¬ b.isEmpty = true := fun empty => b.isEmpty_iff.mp empty present
    have flat : (request.target b.size).width = 0 ∨ (request.target b.size).height = 0 := by
      have missing : ¬ (request.target b.size).HasPixels := fun target =>
        void ⟨present, target⟩
      rw [Size.hasPixels_iff] at missing
      omega
    exact ⟨_, (if_neg full).trans (if_pos flat)⟩
  · exact ⟨_, if_pos (b.isEmpty_iff.mpr present)⟩

theorem resize_of_pixels (present : b.size.HasPixels)
    (target : (request.target b.size).HasPixels) :
    library.resize b request =
      if request.target b.size = b.size then .ok b
      else library.wrap b >>= fun picture =>
        library.unwrap
          (.raster picture.1 (library.stretched picture.2 (request.target b.size))) := by
  have full : ¬ b.isEmpty = true := fun empty => b.isEmpty_iff.mp empty present
  have edges : ¬ ((request.target b.size).width = 0 ∨ (request.target b.size).height = 0) := by
    rw [Size.hasPixels_iff] at target
    omega
  rw [resize]
  simp only [if_neg full, if_neg edges]

theorem stretch_ok (lawful : library.Lawful) (present : b.size.HasPixels) {target : Size}
    (stretches : library.StretchesTo target) :
    ∃ resized, (library.wrap b >>= fun picture =>
        library.unwrap (.raster picture.1 (library.stretched picture.2 target))) = .ok resized ∧
      resized.size = target ∧ resized.channels = b.channels := by
  rcases wrap_ok lawful b with ⟨layout, image, wrapped, size, channels⟩
  have source : (library.size (.raster layout image)).HasPixels := size ▸ present
  rcases unwrap_ok lawful layout (library.stretched image target) with
    ⟨resized, unwrapped, size', channels'⟩
  refine ⟨resized, ?_, size'.trans (stretches layout image source), channels'.trans channels⟩
  rw [wrapped, ok_bind, unwrapped]

theorem codec_makesGray (lawful : library.Lawful) : library.codec.MakesGray := by
  intro b
  show ∃ gray, library.grayscale b = .ok gray ∧ _
  unfold grayscale
  split
  case isTrue single => exact ⟨b, rfl, rfl, single⟩
  case isFalse =>
    rcases wrap_ok lawful b with ⟨layout, image, wrapped, size, -⟩
    have same := lawful.gray_size layout image
    rcases unwrap_ok lawful .gray (library.converted .gray (.raster layout image)) with
      ⟨gray, unwrapped, size', single⟩
    refine ⟨gray, ?_, size'.trans (same.trans size), single⟩
    rw [wrapped, ok_bind]
    exact unwrapped

theorem codec_answersResize (lawful : library.Lawful) (b : Buffer)
    (stretches : library.StretchesTo (request.target b.size)) :
    library.codec.AnswersResize b request where
  resized := by
    intro present target
    have answer : library.codec.resize b request = _ := resize_of_pixels present target
    rw [answer]
    split
    case isTrue same => exact ⟨b, rfl, same.symm, rfl, fun _ => rfl⟩
    case isFalse changed =>
      rcases stretch_ok lawful present stretches with ⟨resized, done, size, channels⟩
      exact ⟨resized, done, size, channels, fun same => absurd same changed⟩
  refused := resize_of_void

end Contract

end PictureLibrary

namespace Codec

theorem Standard.pictures_lawful : Standard.pictures.Lawful where
  ofRaw_ok := by
    intro layout size samples length
    exact ⟨_, dif_pos length, rfl⟩
  raw_size := by
    intro layout image
    show image.val.data.size = image.val.size.area * layout.channels
    rw [image.val.data_size, image.property]
  gray_size := fun _ image => Luma.convert_size .gray image.val

theorem Standard.pictures_stretch (target : Size) : Standard.pictures.StretchesTo target :=
  fun _ _ _ => rfl

/-- Whatever the library computes, a codec on top of it promises what the copying codec promises
wherever a vector can hold the target. A box always leaves it so. The copying codec reads no byte
from outside its source. -/
theorem contract_of_library (library : PictureLibrary) (lawful : library.Lawful) :
    (∀ b request, library.StretchesTo (request.target b.size) →
      library.codec.Contract b request) ∧
    (∀ b request, Nearest.Holds b request →
      Nearest.resize b request = some (Codec.nearest.resize b request) ∧
        Codec.nearest.Contract b request) ∧
    (∀ b request, request.mode = .fit → b.isEmpty = false → b.size.Within Size.largest →
      b.data.size ≤ Nearest.vectorLimit →
        ∃ resized, Nearest.resize b request = some (.ok resized)) ∧
    ∀ (b : Buffer) (target : Size), b.isEmpty = false →
      ∀ x < target.width, ∀ y < target.height, ∀ k < b.channels,
        ∃ inside : (y * b.size.height / target.height * b.size.width +
            x * b.size.width / target.width) * b.channels + k < b.data.size,
          (Nearest.resample b target).byteAt ((y * target.width + x) * b.channels + k) =
            b.data[(y * b.size.height / target.height * b.size.width +
              x * b.size.width / target.width) * b.channels + k] := by
  have copies (b : Buffer) (request : ResizeRequest) : Codec.nearest.Contract b request :=
    (nearest_answersResize b request).contract nearest_makesGray
  refine ⟨?_, ?_, ?_, ?_⟩
  · intro b request stretches
    exact (library.codec_answersResize lawful b stretches).contract
      (library.codec_makesGray lawful)
  · intro b request holds
    exact ⟨Nearest.resize_of_holds fun _ => holds, copies b request⟩
  · intro b request fit full words held
    have present := b.isEmpty_eq_false_iff.mp full
    rcases (copies b request).fit_ok fit full with ⟨resized, done⟩
    refine ⟨resized, ?_⟩
    rw [Nearest.resize_of_holds fun _ => Nearest.holds_of_fit fit present words held, done]
  · intro b target full x column y row k channel
    exact Nearest.resample_copies (b.isEmpty_eq_false_iff.mp full) column row channel

theorem contract_of_library_six :
    (∃ resized, Codec.standard.resize (.filled ⟨3, 2⟩ ⟨1, 2, 3⟩) ⟨⟨0, 0⟩, .fit⟩ = .ok resized ∧
      resized.size = ⟨1, 1⟩ ∧ resized.data.size = 3) ∧
    (¬ ∃ resized, Codec.standard.resize (.filled ⟨3, 2⟩ ⟨1, 2, 3⟩) ⟨⟨4, 0⟩, .fill⟩ =
      .ok resized) ∧
    (∃ resized, Nearest.resize (.filled ⟨3, 2⟩ ⟨1, 2, 3⟩) ⟨⟨0, 0⟩, .fit⟩ =
      some (.ok resized)) ∧
    Nearest.resize (.filled ⟨3, 2⟩ ⟨1, 2, 3⟩) ⟨⟨9, 8⟩, .fill⟩ =
      some (Codec.nearest.resize (.filled ⟨3, 2⟩ ⟨1, 2, 3⟩) ⟨⟨9, 8⟩, .fill⟩) := by
  obtain ⟨promised, copied, fitted, -⟩ :=
    contract_of_library Standard.pictures Standard.pictures_lawful
  have six : (Buffer.filled ⟨3, 2⟩ ⟨1, 2, 3⟩).isEmpty = false := by decide
  have point : Size.fit ⟨3, 2⟩ ⟨0, 0⟩ = ⟨1, 1⟩ := by decide +kernel
  have fit := promised (.filled ⟨3, 2⟩ ⟨1, 2, 3⟩) ⟨⟨0, 0⟩, .fit⟩ (Standard.pictures_stretch _)
  have stretch := promised (.filled ⟨3, 2⟩ ⟨1, 2, 3⟩) ⟨⟨4, 0⟩, .fill⟩ (Standard.pictures_stretch _)
  refine ⟨?_, fun done => (stretch.resize_ok_iff.mp done).2.2 rfl,
    fitted _ _ rfl six ⟨by decide, by decide⟩ (by decide), (copied _ _ (by decide)).1⟩
  rcases fit.fit_ok rfl six with ⟨resized, done⟩
  have size : resized.size = ⟨1, 1⟩ := (fit.resized_size resized done).trans point
  refine ⟨resized, done, size, ?_⟩
  rw [resized.data_size, size, fit.resized_channels resized done]
  rfl

/-- No vector holds what one pixel is stretched to over the largest size. -/
theorem contract_overflows :
    (Buffer.gray ⟨1, 1⟩ fun _ _ => 7).isEmpty = false ∧ Size.largest.HasPixels ∧
    Nearest.resize (.gray ⟨1, 1⟩ fun _ _ => 7) ⟨Size.largest, .fill⟩ = none := by
  refine ⟨by decide, ⟨by decide, by decide⟩, ?_⟩
  rw [Nearest.resize_of_pixels ⟨⟨by decide, by decide⟩, ⟨by decide, by decide⟩⟩]
  exact if_neg (by decide)

end Codec

end ImageDigest
