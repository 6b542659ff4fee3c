import ImageDigest.Image.Sample
import ImageDigest.Proofs.Codec.Nearest
import ImageDigest.Proofs.Codec.Traced

namespace ImageDigest.Image

variable {codec : Codec} {edge : Nat} {b : Buffer}

def Exceeds (edge : Nat) (b : Buffer) : Prop :=
  b.size.HasPixels ∧ (edge < b.size.width ∨ edge < b.size.height)

instance (edge : Nat) (b : Buffer) : Decidable (Exceeds edge b) :=
  inferInstanceAs (Decidable (_ ∧ _))

def sampleSize (edge : Nat) (b : Buffer) : Size :=
  if Exceeds edge b then b.size.fit ⟨edge, edge⟩ else b.size

theorem fits_square_iff (edge : Nat) (s : Size) :
    s.fitsIn ⟨edge, edge⟩ = true ↔ ¬ (edge < s.width ∨ edge < s.height) := by
  rw [Size.fitsIn_iff, Size.within_iff]
  show s.width ≤ edge ∧ s.height ≤ edge ↔ _
  omega

theorem sample_of_not_exceeds (small : ¬ Exceeds edge b) : sample codec edge b = pure b := by
  apply if_pos
  rw [Bool.or_eq_true, b.isEmpty_iff, decide_eq_true_eq]
  by_cases present : b.size.HasPixels
  · right
    apply Size.fit_of_fits
    rw [fits_square_iff]
    exact fun beyond => small ⟨present, beyond⟩
  · exact .inl present

theorem sample_of_exceeds (square : 1 ≤ edge) (large : Exceeds edge b) :
    sample codec edge b = codec.tracedResize b ⟨⟨edge, edge⟩, .fit⟩ := by
  have box : Size.HasPixels ⟨edge, edge⟩ := ⟨square, square⟩
  rcases large with ⟨present, beyond⟩
  apply if_neg
  rw [Bool.or_eq_true, b.isEmpty_iff, decide_eq_true_eq, Size.fit_eq_self_iff box, fits_square_iff]
  intro kept
  -- a fit that changes nothing leaves only a size that is inside the square already
  rcases kept with empty | fits
  · exact empty present
  · exact fits beyond

theorem sample_calls (codec : Codec) (square : 1 ≤ edge) (b : Buffer) :
    (sample codec edge b).calls =
      if Exceeds edge b then [.resize b.size ⟨⟨edge, edge⟩, .fit⟩] else [] := by
  by_cases large : Exceeds edge b
  · rw [sample_of_exceeds square large, if_pos large, Codec.calls_tracedResize]
  · rw [sample_of_not_exceeds large, if_neg large, Traced.calls_pure]

theorem sample_ok (fits : codec.Fits) (square : 1 ≤ edge) (b : Buffer) :
    ∃ sampled, (sample codec edge b).result = .ok sampled ∧
      sampled.size = sampleSize edge b ∧ sampled.channels = b.channels := by
  unfold sampleSize
  by_cases large : Exceeds edge b
  · rw [sample_of_exceeds square large, if_pos large]
    exact fits b _ large.1
  · rw [sample_of_not_exceeds large, if_neg large]
    exact ⟨b, rfl, rfl, rfl⟩

theorem sampleSize_hasPixels_iff (edge : Nat) (b : Buffer) :
    (sampleSize edge b).HasPixels ↔ b.size.HasPixels := by
  unfold sampleSize
  split
  case isTrue large => exact iff_of_true (Size.fit_hasPixels large.1 _) large.1
  case isFalse => exact Iff.rfl

theorem sampleSize_le (square : 1 ≤ edge) (present : b.size.HasPixels) :
    (sampleSize edge b).width ≤ edge ∧ (sampleSize edge b).height ≤ edge := by
  unfold sampleSize
  split
  case isTrue =>
    have box : Size.HasPixels ⟨edge, edge⟩ := ⟨square, square⟩
    exact (Size.within_iff _ _).mp (Size.fit_within b.size box)
  case isFalse small =>
    have inside : ¬ (edge < b.size.width ∨ edge < b.size.height) := fun beyond =>
      small ⟨present, beyond⟩
    exact ⟨Nat.le_of_not_lt (inside ∘ .inl), Nat.le_of_not_lt (inside ∘ .inr)⟩

theorem sample_not_exceeds {sampled : Buffer} (square : 1 ≤ edge)
    (size : sampled.size = sampleSize edge b) : ¬ Exceeds edge sampled := by
  rintro ⟨present, beyond⟩
  rw [size] at present beyond
  have within := sampleSize_le square ((sampleSize_hasPixels_iff edge b).mp present)
  omega

theorem sample_error_iff (codec : Codec) (edge : Nat) (b : Buffer) (e : CodecError) :
    (sample codec edge b).result = .error e ↔
      (sample codec edge b).calls ≠ [] ∧ codec.resize b ⟨⟨edge, edge⟩, .fit⟩ = .error e := by
  unfold sample
  split
  case isTrue =>
    rw [Traced.result_pure, Traced.calls_pure]
    exact iff_of_false nofun fun failed => failed.1 rfl
  case isFalse =>
    rw [Codec.result_tracedResize, Codec.calls_tracedResize, and_iff_right (List.cons_ne_nil _ _)]

/-- An image costs a call exactly if it has pixels and an edge beyond the square, and is its own
sample otherwise. A sample fits the square, keeps the channels and is its own sample. What fails is
the call, with the error of the codec. -/
theorem sample_fits_square (codec : Codec) (edge : Nat) (b : Buffer) :
    (codec.Fits → 1 ≤ edge →
      (sample codec edge b).calls =
        (if b.size.HasPixels ∧ (edge < b.size.width ∨ edge < b.size.height) then
          [.resize b.size ⟨⟨edge, edge⟩, .fit⟩] else []) ∧
      (¬ (b.size.HasPixels ∧ (edge < b.size.width ∨ edge < b.size.height)) →
        (sample codec edge b).result = .ok b) ∧
      ∃ sampled, (sample codec edge b).result = .ok sampled ∧ sampled.channels = b.channels ∧
        (b.size.HasPixels →
          (1 ≤ sampled.size.width ∧ sampled.size.width ≤ edge) ∧
          (1 ≤ sampled.size.height ∧ sampled.size.height ≤ edge)) ∧
        (sample codec edge sampled).result = .ok sampled ∧
        (sample codec edge sampled).calls = []) ∧
    (∀ e, (sample codec edge b).result = .error e ↔
      (sample codec edge b).calls ≠ [] ∧ codec.resize b ⟨⟨edge, edge⟩, .fit⟩ = .error e) := by
  refine ⟨fun fits square => ⟨sample_calls codec square b, ?_, ?_⟩, sample_error_iff codec edge b⟩
  · intro small
    rw [sample_of_not_exceeds small, Traced.result_pure]
  · obtain ⟨sampled, done, size, channels⟩ := sample_ok fits square b
    have again : sample codec edge sampled = pure sampled :=
      sample_of_not_exceeds (sample_not_exceeds square size)
    refine ⟨sampled, done, channels, ?_, by rw [again]; rfl, by rw [again]; rfl⟩
    intro present
    have full := (sampleSize_hasPixels_iff edge b).mpr present
    have within := sampleSize_le square present
    rw [size]
    exact ⟨⟨full.width, within.1⟩, full.height, within.2⟩

theorem sample_fits_square_flat :
    (∃ sampled, (sample .nearest 100 (.filled ⟨250, 1⟩ ⟨9, 9, 9⟩)).result = .ok sampled ∧
      (sample .nearest 100 sampled).calls = []) ∧
    (sample .nearest 100 (.filled ⟨250, 1⟩ ⟨9, 9, 9⟩)).calls =
      [.resize ⟨250, 1⟩ ⟨⟨100, 100⟩, .fit⟩] ∧
    (sample .nearest 100 (.filled ⟨200, 0⟩ ⟨9, 9, 9⟩)).result =
      .ok (.filled ⟨200, 0⟩ ⟨9, 9, 9⟩) := by
  have fits := Codec.nearest_regular.fits
  obtain ⟨calls, -, sampled, done, -, -, -, again⟩ :=
    (sample_fits_square .nearest 100 (.filled ⟨250, 1⟩ ⟨9, 9, 9⟩)).1 fits (by decide)
  obtain ⟨-, kept, -⟩ :=
    (sample_fits_square .nearest 100 (.filled ⟨200, 0⟩ ⟨9, 9, 9⟩)).1 fits (by decide)
  exact ⟨⟨sampled, done, again⟩, calls, kept (by decide)⟩

end ImageDigest.Image
