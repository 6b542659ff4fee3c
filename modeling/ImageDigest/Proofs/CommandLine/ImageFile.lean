import ImageDigest.CommandLine.ImageFile
import ImageDigest.Proofs.Image.Duplicate

namespace ImageDigest.CommandLine

/-- The file can be read and decoded, and its image has this fingerprint. -/
def Hashed (codec : Codec) (algorithm : Algorithm) (file : LabeledFile) (h : Fingerprint) : Prop :=
  ∃ content b, file.2 = some content ∧ codec.decode content = .ok b ∧
    (Image.fingerprint codec algorithm b).result = .ok h

def Intact (codec : Codec) (algorithm : Algorithm) (file : LabeledFile) : Prop :=
  ∃ h, Hashed codec algorithm file h

theorem fingerprintOf?_eq_some_iff {codec : Codec} {algorithm : Algorithm} {file : LabeledFile}
    {h : Fingerprint} :
    fingerprintOf? codec algorithm file.2 = some h ↔ Hashed codec algorithm file h := by
  have taken {ε α : Type} {x : Except ε α} {a : α} : x.toOption = some a ↔ x = .ok a := by
    cases x <;> simp [Except.toOption]
  simp only [fingerprintOf?, Option.bind_eq_bind, Option.bind_eq_some_iff, taken, Hashed]
  constructor
  · rintro ⟨content, read, b, decoded, made⟩
    exact ⟨content, b, read, decoded, made⟩
  · rintro ⟨content, b, read, decoded, made⟩
    exact ⟨content, read, b, decoded, made⟩

instance (codec : Codec) (algorithm : Algorithm) (file : LabeledFile) :
    Decidable (Intact codec algorithm file) :=
  decidable_of_iff ((fingerprintOf? codec algorithm file.2).isSome = true) <| by
    simp only [Option.isSome_iff_exists, fingerprintOf?_eq_some_iff, Intact]

/-- The files of a list that have a fingerprint, in its order. -/
def intactFiles (codec : Codec) (algorithm : Algorithm) (listed : List LabeledFile) :
    List LabeledFile :=
  listed.filter fun file => Intact codec algorithm file

theorem intactFiles_intactFiles (codec : Codec) (algorithm : Algorithm)
    (listed : List LabeledFile) :
    intactFiles codec algorithm (intactFiles codec algorithm listed) =
      intactFiles codec algorithm listed := by
  simp only [intactFiles, List.filter_filter, Bool.and_self]

section Alignment

variable {codec : Codec} {algorithm : Algorithm} {file : LabeledFile} {h : Fingerprint}
variable {listed rest : List LabeledFile}

theorem intactFiles_cons_of_hashed (hashed : Hashed codec algorithm file h) :
    intactFiles codec algorithm (file :: rest) = file :: intactFiles codec algorithm rest :=
  List.filter_cons_of_pos (decide_eq_true ⟨h, hashed⟩)

theorem intactFiles_cons_of_broken (broken : ¬ Intact codec algorithm file) :
    intactFiles codec algorithm (file :: rest) = intactFiles codec algorithm rest :=
  List.filter_cons_of_neg (by simpa using broken)

theorem hashFiles_cons_of_hashed (hashed : Hashed codec algorithm file h) :
    hashFiles codec algorithm (file :: rest) =
      (file.1 :: (hashFiles codec algorithm rest).1, h :: (hashFiles codec algorithm rest).2) := by
  have found := fingerprintOf?_eq_some_iff.mpr hashed
  cases file
  simp only [hashFiles, found]

theorem hashFiles_cons_of_broken (broken : ¬ Intact codec algorithm file) :
    hashFiles codec algorithm (file :: rest) = hashFiles codec algorithm rest := by
  have missing : fingerprintOf? codec algorithm file.2 = none := by
    rw [Option.eq_none_iff_forall_ne_some]
    intro h found
    exact broken ⟨h, fingerprintOf?_eq_some_iff.mp found⟩
  cases file
  simp only [hashFiles, missing]

structure Aligned (codec : Codec) (algorithm : Algorithm) (kept : List LabeledFile)
    (labels : List String) (hashes : List Fingerprint) : Prop where
  labels : labels = kept.map Prod.fst
  hashes : List.Forall₂ (Hashed codec algorithm) kept hashes

theorem hashFiles_aligned (codec : Codec) (algorithm : Algorithm) (listed : List LabeledFile) :
    Aligned codec algorithm (intactFiles codec algorithm listed)
      (hashFiles codec algorithm listed).1 (hashFiles codec algorithm listed).2 := by
  induction listed with
  | nil => exact ⟨rfl, .nil⟩
  | cons file rest ih =>
      by_cases intact : Intact codec algorithm file
      · rcases intact with ⟨h, hashed⟩
        rw [intactFiles_cons_of_hashed hashed, hashFiles_cons_of_hashed hashed]
        exact ⟨congrArg (file.1 :: ·) ih.labels, .cons hashed ih.hashes⟩
      · rw [intactFiles_cons_of_broken intact, hashFiles_cons_of_broken intact]
        exact ih

theorem hashFiles_intactFiles (codec : Codec) (algorithm : Algorithm)
    (listed : List LabeledFile) :
    hashFiles codec algorithm (intactFiles codec algorithm listed) =
      hashFiles codec algorithm listed := by
  induction listed with
  | nil => rfl
  | cons file rest ih =>
      by_cases intact : Intact codec algorithm file
      · rcases intact with ⟨h, hashed⟩
        rw [intactFiles_cons_of_hashed hashed, hashFiles_cons_of_hashed hashed,
          hashFiles_cons_of_hashed hashed, ih]
      · rw [intactFiles_cons_of_broken intact, hashFiles_cons_of_broken intact, ih]

namespace Aligned

variable {kept : List LabeledFile} {labels : List String} {hashes : List Fingerprint}

theorem length_eq (aligned : Aligned codec algorithm kept labels hashes) :
    labels.length = hashes.length := by
  rw [aligned.labels, List.length_map]
  exact aligned.hashes.length_eq

theorem comparable (aligned : Aligned codec algorithm kept labels hashes) {a b : Fingerprint}
    (left : a ∈ hashes) (right : b ∈ hashes) : ∃ result, a.compare b = .ok result := by
  have source {h : Fingerprint} (member : h ∈ hashes) :
      ∃ image, (Image.fingerprint codec algorithm image).result = .ok h := by
    rcases exists_left_of_mem aligned.hashes member with ⟨file, -, content, image, -, -, made⟩
    exact ⟨image, made⟩
  rcases source left with ⟨image, made⟩
  rcases source right with ⟨image', made'⟩
  exact Image.compare_fingerprints made made'

end Aligned

end Alignment

end ImageDigest.CommandLine
