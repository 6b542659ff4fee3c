import ImageDigest.Codec.Nearest
import ImageDigest.Proofs.Buffer
import ImageDigest.Proofs.Codec.Contract
import ImageDigest.Proofs.Geometry.Touch

namespace ImageDigest.Codec

namespace Nearest

def Holds (b : Buffer) (request : ResizeRequest) : Prop :=
  (request.target b.size).area * b.channels ≤ vectorLimit

instance (b : Buffer) (request : ResizeRequest) : Decidable (Holds b request) :=
  inferInstanceAs (Decidable (_ ≤ _))

/-- The refusals of an empty source and of an empty target are one condition. -/
theorem refuses_iff (b : Buffer) (target : Size) :
    (b.isEmpty || target.width = 0 || target.height = 0) = true ↔
      ¬ (b.size.HasPixels ∧ target.HasPixels) := by
  rw [Bool.or_eq_true, Bool.or_eq_true, decide_eq_true_eq, decide_eq_true_eq, b.isEmpty_iff,
    target.hasPixels_iff, Classical.not_and_iff_not_or_not, Classical.not_and_iff_not_or_not,
    Nat.not_lt, Nat.not_lt, Nat.le_zero, Nat.le_zero, or_assoc]

theorem resize_of_void {b : Buffer} {request : ResizeRequest}
    (void : ¬ (b.size.HasPixels ∧ (request.target b.size).HasPixels)) :
    resize b request = some (.error (.resize "empty resize")) :=
  if_pos ((refuses_iff b _).mpr void)

theorem resize_of_pixels {b : Buffer} {request : ResizeRequest}
    (pixels : b.size.HasPixels ∧ (request.target b.size).HasPixels) :
    resize b request =
      if (request.target b.size).area * b.channels ≤ vectorLimit then
        some (.ok (resample b (request.target b.size)))
      else none :=
  if_neg fun refused => (refuses_iff b _).mp refused pixels

end Nearest

theorem nearest_resize (b : Buffer) (request : ResizeRequest) :
    Codec.nearest.resize b request =
      if b.size.HasPixels ∧ (request.target b.size).HasPixels then
        .ok (Nearest.resample b (request.target b.size))
      else .error (.resize "empty resize") := by
  by_cases pixels : b.size.HasPixels ∧ (request.target b.size).HasPixels
  · simp only [Codec.nearest, Nearest.resize_of_pixels pixels, if_pos pixels]
    by_cases room : (request.target b.size).area * b.channels ≤ Nearest.vectorLimit
    · simp only [if_pos room]
    · simp only [if_neg room]
  · simp only [Codec.nearest, Nearest.resize_of_void pixels, if_neg pixels]

theorem Nearest.resize_of_holds {b : Buffer} {request : ResizeRequest}
    (holds : b.isEmpty = false → Nearest.Holds b request) :
    Nearest.resize b request = some (Codec.nearest.resize b request) := by
  rw [nearest_resize]
  split
  case isTrue pixels =>
    rw [Nearest.resize_of_pixels pixels]
    exact if_pos (holds (b.isEmpty_eq_false_iff.mpr pixels.1))
  case isFalse void => exact Nearest.resize_of_void void

/-- What a source leaves a box, its own vector had room for. -/
theorem Nearest.holds_of_fit {b : Buffer} {request : ResizeRequest} (fit : request.mode = .fit)
    (present : b.size.HasPixels) (words : b.size.Within Size.largest)
    (held : b.data.size ≤ vectorLimit) : Nearest.Holds b request := by
  have inside : (request.target b.size).Within b.size := by
    rw [ResizeRequest.target, fit]
    exact Size.fit_within_source present words request.size
  calc
    (request.target b.size).area * b.channels ≤ b.size.area * b.channels :=
      Nat.mul_le_mul_right _ inside.area_le
    _ = b.data.size := b.data_size.symm
    _ ≤ vectorLimit := held

namespace Nearest

open Buffer

variable {a b : Buffer} {target : Size} {i : Nat}

theorem sourceIndex_lt {source goal : Nat} (inside : i < goal) (present : 0 < source) :
    sourceIndex source goal i < source := by
  apply Nat.div_lt_of_lt_mul
  exact Nat.mul_lt_mul_of_pos_right inside present

/-- The position in the source that position `i` of the target is copied from. -/
def sourcePixel (source target : Size) (i : Nat) : Nat :=
  sourceIndex source.height target.height (i / target.width) * source.width +
    sourceIndex source.width target.width (i % target.width)

theorem sourcePixel_lt {source : Size} (present : source.HasPixels) (inside : i < target.area) :
    sourcePixel source target i < source.area := by
  have width : 0 < target.width := Nat.pos_of_mul_pos_right (Nat.zero_lt_of_lt inside)
  have column := sourceIndex_lt (Nat.mod_lt i width) present.width
  have row := sourceIndex_lt (Nat.div_lt_of_lt_mul inside) present.height
  exact Size.index_lt column row

theorem byteAt_resample (b : Buffer) {k : Nat} (inside : i < target.area)
    (channel : k < b.channels) :
    (resample b target).byteAt (i * b.channels + k) =
      b.byteAt (sourcePixel b.size target i * b.channels + k) :=
  byteAt_tabulate _ b.channels_pos b.channels_le inside channel

theorem resample_copies (present : b.size.HasPixels) {x y k : Nat} (column : x < target.width)
    (row : y < target.height) (channel : k < b.channels) :
    ∃ inside : (y * b.size.height / target.height * b.size.width +
        x * b.size.width / target.width) * b.channels + k < b.data.size,
      (resample b target).byteAt ((y * target.width + x) * b.channels + k) =
        b.data[(y * b.size.height / target.height * b.size.width +
          x * b.size.width / target.width) * b.channels + k] := by
  have pixel : y * target.width + x < target.area := Size.index_lt column row
  have place : sourcePixel b.size target (y * target.width + x) =
      y * b.size.height / target.height * b.size.width + x * b.size.width / target.width := by
    have width : 0 < target.width := Nat.zero_lt_of_lt column
    rw [sourcePixel, Nat.mul_comm y target.width, Nat.mul_add_div width, Nat.mul_add_mod,
      Nat.div_eq_of_lt column, Nat.mod_eq_of_lt column, Nat.add_zero]
    rfl
  have inside := Size.mul_add_lt_mul channel (sourcePixel_lt present pixel)
  rw [place, ← b.data_size] at inside
  refine ⟨inside, ?_⟩
  rw [byteAt_resample b pixel channel, place, byteAt]
  exact (Array.getElem_eq_getD 0).symm

theorem resample_self (b : Buffer) : resample b b.size = b := by
  have own {edge position : Nat} (inside : position < edge) :
      sourceIndex edge edge position = position :=
    Nat.mul_div_cancel position (Nat.zero_lt_of_lt inside)
  calc
    resample b b.size = tabulate b.size b.channels
        (fun x y k => b.byteAt ((y * b.size.width + x) * b.channels + k))
        b.channels_pos b.channels_le := by
      apply tabulate_congr
      intro x column y row k channel
      rw [own column, own row]
    _ = b := tabulate_byteAt b

theorem rgbAt_resample (b : Buffer) (inside : i < target.area) :
    (resample b target).rgbAt i = b.rgbAt (sourcePixel b.size target i) := by
  have copied (k : Nat) (channel : k < b.channels) := byteAt_resample b inside channel
  by_cases gray : b.channels ≤ 2
  · rw [rgbAt_of_gray gray, rgbAt_of_gray (b := resample b target) gray]
    exact congrArg Rgb.ofGray (copied 0 b.channels_pos)
  · have color : 3 ≤ b.channels := Nat.lt_of_not_le gray
    rw [rgbAt_of_color color, rgbAt_of_color (b := resample b target) color]
    have red := copied 0 b.channels_pos
    have green := copied 1 (by omega)
    have blue := copied 2 color
    exact (Rgb.mk.injEq _ _ _ _ _ _).mpr ⟨red, green, blue⟩

theorem resample_sameColors (same : SameColors a b) (present : a.size.HasPixels) :
    SameColors (resample a target) (resample b target) := by
  refine ⟨rfl, ?_⟩
  intro i member
  have inside : i < target.area := member
  have bound := sourcePixel_lt present inside
  rw [rgbAt_resample a inside, rgbAt_resample b inside, same.rgbAt _ bound, same.size]

theorem grayscale_congr (same : SameColors a b) : grayscale a = grayscale b := by
  unfold grayscale
  rw [← same.size]
  apply gray_congr
  intro x column y row
  rw [same.at_position column row, same.size]

end Nearest

theorem nearest_answersResize (b : Buffer) (request : ResizeRequest) :
    Codec.nearest.AnswersResize b request where
  resized := by
    intro present target
    refine ⟨Nearest.resample b (request.target b.size), ?_, rfl, rfl, ?_⟩
    · rw [nearest_resize, if_pos ⟨present, target⟩]
    · intro same
      rw [same, Nearest.resample_self]
  refused := by
    intro void
    rw [nearest_resize, if_neg void]
    exact ⟨_, rfl⟩

theorem nearest_makesGray : Codec.nearest.MakesGray := fun b => ⟨Nearest.grayscale b, rfl, rfl, rfl⟩

theorem nearest_regular : Codec.nearest.Regular :=
  regular_of_answers nearest_answersResize nearest_makesGray

theorem nearest_refusesResizing : Codec.nearest.RefusesResizing :=
  refusesResizing_of_answers nearest_answersResize

end ImageDigest.Codec
