import ImageDigest.Proofs.Fingerprint.Duplicate
import ImageDigest.Proofs.Image.Fingerprint
import ImageDigest.Proofs.Report.Lines

namespace ImageDigest.Image

open Fingerprint Report

section Pair

variable {codec codec' : Codec} {algorithm : Algorithm} {a b : Buffer} {h h' : Fingerprint}

theorem compare_fingerprints (made : (fingerprint codec algorithm a).result = .ok h)
    (made' : (fingerprint codec' algorithm b).result = .ok h') :
    ∃ result, h.compare h' = .ok result := by
  rcases fingerprint_ok made with ⟨-, -, grid, -, -, -, made⟩
  rcases fingerprint_ok made' with ⟨-, -, grid', -, -, -, made'⟩
  exact compare_ofGrid made made'

theorem similarity_eq (made : (fingerprint codec algorithm a).result = .ok h)
    (made' : (fingerprint codec algorithm b).result = .ok h') :
    similarity codec algorithm a b = (h.compare h').mapError .fingerprint := by
  rw [similarity, made, made']
  rfl

theorem areSimilar_iff {settings : FingerprintSettings} {result : Similarity}
    (compared : similarity codec settings.algorithm a b = .ok result) :
    areSimilar codec settings a b = .ok true ↔
      settings.similarityThreshold ≤ result.similarity := by
  have value : areSimilar codec settings a b =
      .ok (decide (settings.similarityThreshold ≤ result.similarity)) := by
    rw [areSimilar, compared]
    rfl
  rw [value]
  constructor
  · intro same
    exact of_decide_eq_true (Except.ok.inj same)
  · intro reached
    rw [decide_eq_true reached]

end Pair

section Batch

variable {codec : Codec} {settings : FingerprintSettings} {images : List Buffer}

theorem duplicates_stages {groups : List DuplicateGroup}
    (done : duplicates codec settings images = .ok groups) :
    ∃ hashes, fingerprints codec settings.algorithm images = .ok hashes ∧
      Fingerprint.duplicates settings.similarityThreshold hashes = .ok groups := by
  rcases bind_ok done with ⟨hashes, taken, done⟩
  exact ⟨hashes, taken, mapError_ok done⟩

theorem failing_image {e : ImageError} (failed : duplicates codec settings images = .error e) :
    ∃ b ∈ images, (fingerprint codec settings.algorithm b).result = .error e := by
  rcases bind_error failed with failed | ⟨hashes, taken, failed⟩
  · exact mapM_error failed
  · rcases mapError_error failed with ⟨cause, failed, -⟩
    rcases duplicates_error failed with ⟨i, j, ⟨h, h', pair, failing⟩, -⟩
    rcases mapM_ok_source taken pair.left with ⟨a, -, made⟩
    rcases mapM_ok_source taken pair.right with ⟨b, -, made'⟩
    rcases compare_fingerprints made made' with ⟨result, compared⟩
    exact (ok_error_absurd compared failing).elim

theorem fingerprint_of_member {groups : List DuplicateGroup}
    (done : duplicates codec settings images = .ok groups) {b : Buffer} (member : b ∈ images) :
    ∃ h, (fingerprint codec settings.algorithm b).result = .ok h := by
  rcases duplicates_stages done with ⟨hashes, taken, -⟩
  rcases List.mem_iff_getElem?.mp member with ⟨i, found⟩
  rcases mapM_ok_at taken found with ⟨h, -, made⟩
  exact ⟨h, made⟩

theorem listed_iff_reached {groups : List DuplicateGroup}
    (done : duplicates codec settings images = .ok groups) {i j : Nat} {a b : Buffer}
    (order : i < j) (left : images[i]? = some a) (right : images[j]? = some b) :
    ∃ result, similarity codec settings.algorithm a b = .ok result ∧
      (Listed groups i j ↔ settings.similarityThreshold ≤ result.similarity) := by
  rcases duplicates_stages done with ⟨hashes, taken, grouped⟩
  rcases mapM_ok_at taken left with ⟨h, foundLeft, made⟩
  rcases mapM_ok_at taken right with ⟨h', foundRight, made'⟩
  obtain ⟨result, compared, listed⟩ :=
    (duplicates_ok grouped).compared i j h h' ⟨order, foundLeft, foundRight⟩
  rw [Nat.zero_add, Nat.zero_add] at listed
  refine ⟨result, ?_, listed⟩
  rw [similarity_eq made made', compared]
  rfl

end Batch

/-- The scan of a list of images fails exactly if an image of the list has no fingerprint. Otherwise
it lists a pair exactly if the test of the pair accepts it, which is if the report on their
similarity says so. Fingerprints of one algorithm can always be compared. -/
theorem duplicates_agree (codec : Codec) (settings : FingerprintSettings) (images : List Buffer) :
    ((∃ e, duplicates codec settings images = .error e) ↔
      ∃ b ∈ images, ∃ e, (fingerprint codec settings.algorithm b).result = .error e) ∧
    (∀ e, duplicates codec settings images = .error e →
      ∃ b ∈ images, (fingerprint codec settings.algorithm b).result = .error e) ∧
    (∀ groups, duplicates codec settings images = .ok groups →
      ∀ (i j : Nat) (a b : Buffer), i < j → images[i]? = some a → images[j]? = some b →
        (Listed groups i j ↔ areSimilar codec settings a b = .ok true) ∧
        ∃ result, similarity codec settings.algorithm a b = .ok result ∧
          ∀ left right : String,
            areSimilar codec settings a b = .ok true ↔
              SaysYes (comparisonLines left right result settings.similarityThreshold)) ∧
    (∀ (codec' : Codec) (algorithm : Algorithm) (a b : Buffer) (h h' : Fingerprint),
      (fingerprint codec algorithm a).result = .ok h →
      (fingerprint codec' algorithm b).result = .ok h' →
        ∃ result, h.compare h' = .ok result) := by
  refine ⟨⟨?_, ?_⟩, fun e => failing_image, ?_, ?_⟩
  · intro failure
    rcases failure with ⟨e, failed⟩
    rcases failing_image failed with ⟨b, member, failing⟩
    exact ⟨b, member, e, failing⟩
  · intro failure
    rcases failure with ⟨b, member, e, failing⟩
    cases outcome : duplicates codec settings images with
    | error e' => exact ⟨e', rfl⟩
    | ok groups =>
        rcases fingerprint_of_member outcome member with ⟨h, made⟩
        exact (ok_error_absurd made failing).elim
  · intro groups done i j a b order left right
    rcases listed_iff_reached done order left right with ⟨result, compared, listed⟩
    have similar := areSimilar_iff compared
    refine ⟨listed.trans similar.symm, result, compared, ?_⟩
    intro leftName rightName
    exact similar.trans (comparison_saysYes leftName rightName result _).symm
  · intro codec' algorithm a b h h' made made'
    exact compare_fingerprints made made'

theorem duplicates_agree_steps :
    areSimilar .nearest {} (.gray ⟨2, 1⟩ fun x _ => UInt8.ofNat x)
        (.gray ⟨4, 1⟩ fun x _ => UInt8.ofNat (x / 2)) = .ok true ∧
      areSimilar .nearest {} (.gray ⟨2, 1⟩ fun x _ => UInt8.ofNat x)
        (.gray ⟨1, 1⟩ fun _ _ => 0) ≠ .ok true := by
  have done : duplicates .nearest {}
      [.gray ⟨2, 1⟩ fun x _ => UInt8.ofNat x, .gray ⟨1, 1⟩ fun _ _ => 0,
        .gray ⟨4, 1⟩ fun x _ => UInt8.ofNat (x / 2)] = .ok [⟨0, [2]⟩] := by decide +kernel
  have agree := (duplicates_agree .nearest {} _).2.2.1 _ done
  constructor
  · apply (agree 0 2 _ _ (by decide) rfl rfl).1.mp
    exact ⟨_, List.mem_singleton_self _, rfl, List.mem_singleton_self 2⟩
  · intro similar
    rcases (agree 0 1 _ _ (by decide) rfl rfl).1.mpr similar with ⟨g, member, -, inside⟩
    rw [List.mem_singleton.mp member] at inside
    cases List.mem_singleton.mp inside

end ImageDigest.Image
