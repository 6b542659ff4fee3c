import ImageDigest.Image.Fingerprint
import ImageDigest.Proofs.Fingerprint.Grid
import ImageDigest.Proofs.Image.Sample

namespace ImageDigest.Image

open Fingerprint Text

theorem grid_hasPixels (algorithm : Algorithm) : algorithm.grid.HasPixels := by
  cases algorithm <;> decide

theorem one_le_fingerprintSample : 1 ≤ fingerprintSample := by decide

section Stages

variable {codec : Codec} {algorithm : Algorithm} {b sampled gray : Buffer} {h : Fingerprint}

theorem result_fingerprint (codec : Codec) (algorithm : Algorithm) (b : Buffer) :
    (fingerprint codec algorithm b).result =
      (sample codec fingerprintSample b).result.mapError .codec >>= fun sampled =>
        (codec.grayscale sampled).mapError .codec >>= fun gray =>
          (codec.resize gray ⟨algorithm.grid, .fill⟩).mapError .codec >>= fun grid =>
            (ofGrid grid algorithm).mapError .fingerprint := by
  simp only [fingerprint, Traced.result_bind, Traced.result_mapError, Traced.result_ofExcept,
    Codec.result_tracedGrayscale, Codec.result_tracedResize]

theorem fingerprint_ok (made : (fingerprint codec algorithm b).result = .ok h) :
    ∃ sampled gray grid,
      (sample codec fingerprintSample b).result = .ok sampled ∧
      codec.grayscale sampled = .ok gray ∧
      codec.resize gray ⟨algorithm.grid, .fill⟩ = .ok grid ∧
      ofGrid grid algorithm = .ok h := by
  rw [result_fingerprint] at made
  rcases bind_ok made with ⟨sampled, first, made⟩
  rcases bind_ok made with ⟨gray, second, made⟩
  rcases bind_ok made with ⟨grid, third, made⟩
  exact ⟨sampled, gray, grid, mapError_ok first, mapError_ok second, mapError_ok third,
    mapError_ok made⟩

theorem fingerprint_calls (first : (sample codec fingerprintSample b).result = .ok sampled)
    (second : codec.grayscale sampled = .ok gray) :
    (fingerprint codec algorithm b).calls =
      (sample codec fingerprintSample b).calls ++
        [.grayscale sampled.channels, .resize gray.size ⟨algorithm.grid, .fill⟩] := by
  have firstDone : ((sample codec fingerprintSample b).mapError ImageError.codec).result =
      .ok sampled := by
    rw [Traced.result_mapError, first, mapError_of_ok]
  have secondDone : ((codec.tracedGrayscale sampled).mapError ImageError.codec).result =
      .ok gray := by
    rw [Traced.result_mapError, Codec.result_tracedGrayscale, second, mapError_of_ok]
  rw [fingerprint, Traced.calls_bind_ok firstDone, Traced.calls_bind_ok secondDone,
    Traced.calls_bind_silent _ fun _ => Traced.calls_ofExcept _]
  simp only [Traced.calls_mapError, Codec.calls_tracedGrayscale, Codec.calls_tracedResize,
    List.cons_append, List.nil_append]

theorem fingerprint_result (first : (sample codec fingerprintSample b).result = .ok sampled)
    (second : codec.grayscale sampled = .ok gray) :
    (fingerprint codec algorithm b).result =
      (codec.resize gray ⟨algorithm.grid, .fill⟩).mapError .codec >>= fun grid =>
        (ofGrid grid algorithm).mapError .fingerprint := by
  simp only [result_fingerprint, first, second, mapError_of_ok, ok_bind]

end Stages

section Regular

variable {codec : Codec} {b : Buffer}

theorem fingerprint_ok_of_hasPixels (regular : codec.Regular) (algorithm : Algorithm)
    (present : b.size.HasPixels) :
    ∃ grid, IsGrid algorithm grid ∧
      (fingerprint codec algorithm b).result =
        .ok ⟨hexOfBits (bits grid algorithm), algorithm⟩ := by
  obtain ⟨sampled, first, size, -⟩ := sample_ok regular.fits one_le_fingerprintSample b
  obtain ⟨gray, second, same, single⟩ := regular.grayscale_ok sampled
  have full : gray.size.HasPixels := by
    rw [same, size, sampleSize_hasPixels_iff]
    exact present
  obtain ⟨grid, third, stretched, kept⟩ :=
    regular.resize_ok full ⟨algorithm.grid, .fill⟩ (grid_hasPixels algorithm)
  have shape : IsGrid algorithm grid := ⟨stretched, kept.trans single⟩
  refine ⟨grid, shape, ?_⟩
  rw [fingerprint_result first second, third, mapError_of_ok, ok_bind, ofGrid_isGrid shape,
    mapError_of_ok]

theorem fingerprint_error_of_empty (regular : codec.Regular) (algorithm : Algorithm)
    (empty : ¬ b.size.HasPixels) :
    ∃ gray cause, codec.grayscale b = .ok gray ∧
      codec.resize gray ⟨algorithm.grid, .fill⟩ = .error cause ∧
      (fingerprint codec algorithm b).result = .error (.codec cause) := by
  -- an image without pixels is its own sample, so the grid is the first thing asked for
  have first : (sample codec fingerprintSample b).result = .ok b := by
    rw [sample_of_not_exceeds fun large => empty large.1]
    rfl
  obtain ⟨gray, second, same, -⟩ := regular.grayscale_ok b
  have void : ¬ gray.size.HasPixels := by rwa [same]
  obtain ⟨cause, failed⟩ := regular.resize_empty void ⟨algorithm.grid, .fill⟩
  refine ⟨gray, cause, second, failed, ?_⟩
  rw [fingerprint_result first second, failed, mapError_of_error, error_bind]

theorem fingerprint_calls_of_regular (regular : codec.Regular) (algorithm : Algorithm)
    (b : Buffer) :
    (fingerprint codec algorithm b).calls =
      (if Exceeds fingerprintSample b then
        [.resize b.size ⟨⟨fingerprintSample, fingerprintSample⟩, .fit⟩] else []) ++
      [.grayscale b.channels,
        .resize (sampleSize fingerprintSample b) ⟨algorithm.grid, .fill⟩] := by
  obtain ⟨sampled, first, size, channels⟩ := sample_ok regular.fits one_le_fingerprintSample b
  obtain ⟨gray, second, same, -⟩ := regular.grayscale_ok sampled
  rw [fingerprint_calls first second, sample_calls codec one_le_fingerprintSample, channels, same,
    size]

end Regular

/-- What a fingerprint comes to. Exactly the images with pixels have one, of 16 lowercase digits.
The others fail where the codec is asked to stretch them onto the grid, with its own error, and no
grid has the wrong shape. The calls are a sample where the image exceeds it, the gray version and
the grid. -/
structure FingerprintOutcome (codec : Codec) (algorithm : Algorithm) (b : Buffer) : Prop where
  ok_iff : (∃ h, (fingerprint codec algorithm b).result = .ok h) ↔ b.size.HasPixels
  digits : ∀ h, (fingerprint codec algorithm b).result = .ok h →
    h.algorithm = algorithm ∧ h.digits.length = 16 ∧ ∀ c ∈ h.digits.toList, c ∈ Hex.lowerDigits
  passed_on : ¬ b.size.HasPixels →
    ∃ gray cause, codec.grayscale b = .ok gray ∧
      codec.resize gray ⟨algorithm.grid, .fill⟩ = .error cause ∧
      (fingerprint codec algorithm b).result = .error (.codec cause)
  refused : ¬ b.size.HasPixels → codec.RefusesResizing →
    ∃ reason, (fingerprint codec algorithm b).result = .error (.codec (.resize reason))
  no_other_error : ∀ cause, (fingerprint codec algorithm b).result ≠ .error (.fingerprint cause)
  calls : (fingerprint codec algorithm b).calls =
    (if b.size.HasPixels ∧ (100 < b.size.width ∨ 100 < b.size.height) then
      [.resize b.size ⟨⟨100, 100⟩, .fit⟩] else []) ++
    [.grayscale b.channels, .resize (sampleSize 100 b) ⟨algorithm.grid, .fill⟩]

theorem fingerprint_iff_hasPixels (codec : Codec) (regular : codec.Regular)
    (algorithm : Algorithm) (b : Buffer) : FingerprintOutcome codec algorithm b where
  ok_iff := by
    constructor
    · rintro ⟨h, made⟩
      by_contra empty
      rcases fingerprint_error_of_empty regular algorithm empty with ⟨-, cause, -, -, failed⟩
      exact ok_error_absurd made failed
    · intro present
      rcases fingerprint_ok_of_hasPixels regular algorithm present with ⟨grid, -, made⟩
      exact ⟨_, made⟩
  digits := by
    intro h made
    by_cases present : b.size.HasPixels
    · rcases fingerprint_ok_of_hasPixels regular algorithm present with ⟨grid, shape, made'⟩
      rw [made'] at made
      cases made
      have encoded := encodes_grid shape
      exact ⟨rfl, encoded.length, encoded.lower⟩
    · rcases fingerprint_error_of_empty regular algorithm present with ⟨-, cause, -, -, failed⟩
      exact (ok_error_absurd made failed).elim
  passed_on := fingerprint_error_of_empty regular algorithm
  refused := by
    intro empty refuses
    rcases fingerprint_error_of_empty regular algorithm empty with ⟨gray, cause, -, failed, result⟩
    rcases refuses gray ⟨algorithm.grid, .fill⟩ cause failed with ⟨reason, rfl⟩
    exact ⟨reason, result⟩
  no_other_error := by
    intro cause failed
    by_cases present : b.size.HasPixels
    · rcases fingerprint_ok_of_hasPixels regular algorithm present with ⟨grid, -, made⟩
      exact ok_error_absurd made failed
    · rcases fingerprint_error_of_empty regular algorithm present with ⟨-, cause', -, -, failed'⟩
      rw [failed'] at failed
      cases failed
  calls := fingerprint_calls_of_regular regular algorithm b

theorem fingerprint_iff_hasPixels_flat :
    (∃ h, (fingerprint .nearest .difference (.filled ⟨101, 1⟩ ⟨9, 9, 9⟩)).result = .ok h ∧
      h.digits.length = 16) ∧
    (fingerprint .nearest .difference (.filled ⟨101, 1⟩ ⟨9, 9, 9⟩)).calls =
      [.resize ⟨101, 1⟩ ⟨⟨100, 100⟩, .fit⟩, .grayscale 3, .resize ⟨100, 1⟩ ⟨⟨9, 8⟩, .fill⟩] ∧
    (∃ reason, (fingerprint .nearest .average (.filled ⟨200, 0⟩ ⟨9, 9, 9⟩)).result =
      .error (.codec (.resize reason))) ∧
    (fingerprint .nearest .average (.filled ⟨200, 0⟩ ⟨9, 9, 9⟩)).calls =
      [.grayscale 3, .resize ⟨200, 0⟩ ⟨⟨8, 8⟩, .fill⟩] := by
  have row := fingerprint_iff_hasPixels .nearest Codec.nearest_regular .difference
    (.filled ⟨101, 1⟩ ⟨9, 9, 9⟩)
  have flat := fingerprint_iff_hasPixels .nearest Codec.nearest_regular .average
    (.filled ⟨200, 0⟩ ⟨9, 9, 9⟩)
  have present : (Buffer.filled ⟨101, 1⟩ ⟨9, 9, 9⟩).size.HasPixels := by decide
  have empty : ¬ (Buffer.filled ⟨200, 0⟩ ⟨9, 9, 9⟩).size.HasPixels := by decide
  have fitted : sampleSize 100 (Buffer.filled ⟨101, 1⟩ ⟨9, 9, 9⟩) = ⟨100, 1⟩ := by decide +kernel
  refine ⟨?_, ?_, flat.refused empty Codec.nearest_refusesResizing, flat.calls⟩
  · rcases row.ok_iff.mpr present with ⟨h, done⟩
    exact ⟨h, done, (row.digits h done).2.1⟩
  · rw [row.calls, fitted]
    rfl

section Misreported

/-- The copying codec, with another error for what it refuses to resize. -/
def misreporting : Codec where
  decode := Codec.nearest.decode
  resize b request :=
    (Codec.nearest.resize b request).mapError fun _ => .invalidBuffer (.unsupportedChannels 5)
  grayscale := Codec.nearest.grayscale

theorem misreporting_regular : misreporting.Regular where
  resize_ok_iff := by
    intro b request
    rw [← Codec.nearest_regular.resize_ok_iff]
    constructor
    · rintro ⟨resized, done⟩
      exact ⟨resized, mapError_ok done⟩
    · rintro ⟨resized, done⟩
      refine ⟨resized, ?_⟩
      show (Codec.nearest.resize b request).mapError _ = _
      rw [done, mapError_of_ok]
  resize_shape := fun b request resized done =>
    Codec.nearest_regular.resize_shape b request resized (mapError_ok done)
  grayscale_ok := Codec.nearest_regular.grayscale_ok

theorem fingerprint_misreported :
    misreporting.Regular ∧ ¬ (Buffer.filled ⟨200, 0⟩ ⟨9, 9, 9⟩).size.HasPixels ∧
    (fingerprint misreporting .difference (.filled ⟨200, 0⟩ ⟨9, 9, 9⟩)).result =
      .error (.codec (.invalidBuffer (.unsupportedChannels 5))) := by
  have empty : ¬ (Buffer.filled ⟨200, 0⟩ ⟨9, 9, 9⟩).size.HasPixels := by decide
  refine ⟨misreporting_regular, empty, ?_⟩
  rcases fingerprint_error_of_empty misreporting_regular .difference empty with
    ⟨gray, cause, -, failed, result⟩
  have kind : cause = .invalidBuffer (.unsupportedChannels 5) := by
    cases refused : Codec.nearest.resize gray ⟨Algorithm.difference.grid, .fill⟩ with
    | ok resized => simp [misreporting, refused, Except.mapError] at failed
    | error e => simpa [misreporting, refused, Except.mapError, eq_comm] using failed
  rw [result, kind]

end Misreported

end ImageDigest.Image
