import ImageDigest.Codec.Basic
import ImageDigest.Proofs.Except
import ImageDigest.Proofs.Geometry.Fit

namespace ImageDigest.Codec

/-- Exactly the buffers with pixels can be resized, to exactly the targets with pixels, and keep
their channels. Every buffer has a gray version of its size. -/
structure Regular (codec : Codec) : Prop where
  resize_ok_iff : ∀ (b : Buffer) (request : ResizeRequest),
    (∃ resized, codec.resize b request = .ok resized) ↔
      b.size.HasPixels ∧ (request.target b.size).HasPixels
  resize_shape : ∀ (b : Buffer) (request : ResizeRequest) (resized : Buffer),
    codec.resize b request = .ok resized →
      resized.size = request.target b.size ∧ resized.channels = b.channels
  grayscale_ok : ∀ b : Buffer,
    ∃ gray, codec.grayscale b = .ok gray ∧ gray.size = b.size ∧ gray.channels = 1

/-- What cannot be resized is refused as such, and as nothing else. -/
def RefusesResizing (codec : Codec) : Prop :=
  ∀ (b : Buffer) (request : ResizeRequest) (e : CodecError),
    codec.resize b request = .error e → ∃ reason, e = .resize reason

def Stretches (codec : Codec) : Prop :=
  ∀ (b : Buffer) (size : Size), b.size.HasPixels → size.HasPixels →
    ∃ resized, codec.resize b ⟨size, .fill⟩ = .ok resized ∧ resized.size = size

def Fits (codec : Codec) : Prop :=
  ∀ (b : Buffer) (box : Size), b.size.HasPixels →
    ∃ resized, codec.resize b ⟨box, .fit⟩ = .ok resized ∧
      resized.size = b.size.fit box ∧ resized.channels = b.channels

/-- What a codec promises on one buffer and one request. The target of a fit is the largest size
inside the box, and that of a fill the size of the request. -/
structure Contract (codec : Codec) (b : Buffer) (request : ResizeRequest) : Prop where
  resize_ok_iff : (∃ resized, codec.resize b request = .ok resized) ↔
    b.isEmpty = false ∧ (request.target b.size).width ≠ 0 ∧ (request.target b.size).height ≠ 0
  resized_size : ∀ resized, codec.resize b request = .ok resized →
    resized.size = request.target b.size
  resized_channels : ∀ resized, codec.resize b request = .ok resized →
    resized.channels = b.channels
  resized_data : ∀ resized, codec.resize b request = .ok resized →
    resized.data.size =
      (request.target b.size).width * (request.target b.size).height * b.channels
  kept : ∀ resized, codec.resize b request = .ok resized →
    request.target b.size = b.size → resized = b
  fit_ok : request.mode = .fit → b.isEmpty = false →
    ∃ resized, codec.resize b request = .ok resized
  refusal : ∀ e, codec.resize b request = .error e → ∃ reason, e = .resize reason
  grayscale_ok : ∃ gray, codec.grayscale b = .ok gray ∧ gray.size = b.size ∧ gray.channels = 1

namespace Regular

variable {codec : Codec} {b : Buffer}

theorem resize_ok (regular : codec.Regular) (present : b.size.HasPixels)
    (request : ResizeRequest) (target : (request.target b.size).HasPixels) :
    ∃ resized, codec.resize b request = .ok resized ∧
      resized.size = request.target b.size ∧ resized.channels = b.channels := by
  rcases (regular.resize_ok_iff b request).mpr ⟨present, target⟩ with ⟨resized, done⟩
  exact ⟨resized, done, regular.resize_shape b request resized done⟩

theorem resize_empty (regular : codec.Regular) (empty : ¬ b.size.HasPixels)
    (request : ResizeRequest) : ∃ e, codec.resize b request = .error e := by
  cases outcome : codec.resize b request with
  | error e => exact ⟨e, rfl⟩
  | ok resized => exact absurd ((regular.resize_ok_iff b request).mp ⟨resized, outcome⟩).1 empty

theorem stretches (regular : codec.Regular) : codec.Stretches := by
  intro b size present target
  rcases regular.resize_ok present ⟨size, .fill⟩ target with ⟨resized, done, same, -⟩
  exact ⟨resized, done, same⟩

theorem fits (regular : codec.Regular) : codec.Fits := by
  intro b box present
  exact regular.resize_ok present ⟨box, .fit⟩ (Size.fit_hasPixels present box)

end Regular

/-- Between sizes with pixels the resize succeeds, and changes nothing if they are the same.
Otherwise it is refused. -/
structure AnswersResize (codec : Codec) (b : Buffer) (request : ResizeRequest) : Prop where
  resized : b.size.HasPixels → (request.target b.size).HasPixels →
    ∃ resized, codec.resize b request = .ok resized ∧ resized.size = request.target b.size ∧
      resized.channels = b.channels ∧ (request.target b.size = b.size → resized = b)
  refused : ¬ (b.size.HasPixels ∧ (request.target b.size).HasPixels) →
    ∃ reason, codec.resize b request = .error (.resize reason)

def MakesGray (codec : Codec) : Prop :=
  ∀ b : Buffer, ∃ gray, codec.grayscale b = .ok gray ∧ gray.size = b.size ∧ gray.channels = 1

namespace AnswersResize

variable {codec : Codec} {b resized : Buffer} {request : ResizeRequest} {e : CodecError}

theorem of_ok (answers : codec.AnswersResize b request)
    (done : codec.resize b request = .ok resized) :
    (b.size.HasPixels ∧ (request.target b.size).HasPixels) ∧
      resized.size = request.target b.size ∧ resized.channels = b.channels ∧
      (request.target b.size = b.size → resized = b) := by
  by_cases pixels : b.size.HasPixels ∧ (request.target b.size).HasPixels
  · rcases answers.resized pixels.1 pixels.2 with ⟨resized', done', shape⟩
    cases done.symm.trans done'
    exact ⟨pixels, shape⟩
  · rcases answers.refused pixels with ⟨reason, failed⟩
    exact (ok_error_absurd done failed).elim

theorem of_error (answers : codec.AnswersResize b request)
    (failed : codec.resize b request = .error e) : ∃ reason, e = .resize reason := by
  by_cases pixels : b.size.HasPixels ∧ (request.target b.size).HasPixels
  · rcases answers.resized pixels.1 pixels.2 with ⟨resized, done, -⟩
    exact (ok_error_absurd done failed).elim
  · rcases answers.refused pixels with ⟨reason, refused⟩
    exact ⟨reason, Except.error.inj (failed.symm.trans refused)⟩

theorem ok_iff (answers : codec.AnswersResize b request) :
    (∃ resized, codec.resize b request = .ok resized) ↔
      b.size.HasPixels ∧ (request.target b.size).HasPixels := by
  constructor
  · rintro ⟨resized, done⟩
    exact (answers.of_ok done).1
  · intro pixels
    rcases answers.resized pixels.1 pixels.2 with ⟨resized, done, -⟩
    exact ⟨resized, done⟩

theorem contract (answers : codec.AnswersResize b request) (gray : codec.MakesGray) :
    codec.Contract b request where
  resize_ok_iff := by
    rw [answers.ok_iff, b.isEmpty_eq_false_iff, (request.target b.size).hasPixels_iff,
      Nat.pos_iff_ne_zero, Nat.pos_iff_ne_zero]
  resized_size := fun _ done => (answers.of_ok done).2.1
  resized_channels := fun _ done => (answers.of_ok done).2.2.1
  resized_data := by
    intro resized done
    rcases answers.of_ok done with ⟨-, size, channels, -⟩
    rw [resized.data_size, size, channels]
    rfl
  kept := fun _ done => (answers.of_ok done).2.2.2
  fit_ok := by
    intro mode full
    have present := b.isEmpty_eq_false_iff.mp full
    have target : (request.target b.size).HasPixels := by
      rw [ResizeRequest.target, mode]
      exact Size.fit_hasPixels present request.size
    exact answers.ok_iff.mpr ⟨present, target⟩
  refusal := fun _ failed => answers.of_error failed
  grayscale_ok := gray b

end AnswersResize

section Requests

variable {codec : Codec} (answers : ∀ b request, codec.AnswersResize b request)

include answers

theorem refusesResizing_of_answers : codec.RefusesResizing :=
  fun b request _ failed => (answers b request).of_error failed

theorem regular_of_answers (gray : codec.MakesGray) : codec.Regular where
  resize_ok_iff := fun b request => (answers b request).ok_iff
  resize_shape := by
    intro b request resized done
    rcases (answers b request).of_ok done with ⟨-, size, channels, -⟩
    exact ⟨size, channels⟩
  grayscale_ok := gray

end Requests

end ImageDigest.Codec
