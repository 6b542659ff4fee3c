import ImageDigest.CommandLine.Run
import ImageDigest.Proofs.CommandLine.ImageFile
import ImageDigest.Proofs.Report.Duplicate

namespace ImageDigest.CommandLine

open Report

section Report

variable {codec : Codec} {settings : Settings} {listed : List LabeledFile}

theorem duplicatesReport_congr {listed' : List LabeledFile} (json : Bool)
    (same : intactFiles codec settings.fingerprint.algorithm listed =
      intactFiles codec settings.fingerprint.algorithm listed') :
    duplicatesReport codec json settings listed =
      duplicatesReport codec json settings listed' := by
  have hashed : hashFiles codec settings.fingerprint.algorithm listed =
      hashFiles codec settings.fingerprint.algorithm listed' := by
    rw [← hashFiles_intactFiles, same, hashFiles_intactFiles]
  simp only [duplicatesReport, hashed]

theorem duplicatesReport_ok {labels : List String} {hashes : List Fingerprint}
    {groups : List DuplicateGroup} (json : Bool)
    (hashed : hashFiles codec settings.fingerprint.algorithm listed = (labels, hashes))
    (grouped : Fingerprint.duplicates settings.fingerprint.similarityThreshold hashes =
      .ok groups) :
    duplicatesReport codec json settings listed =
      .ok (shown json (duplicatesRecord labels groups) (duplicateLines labels groups)) := by
  simp only [duplicatesReport, hashed, grouped, mapError_of_ok, ok_bind]
  rfl

theorem runCommand_duplicates {files : Files} {json : Bool} {paths : List String} {text : String}
    (reported : duplicatesReport codec json settings (paths.flatMap (expand files)) = .ok text) :
    runCommand codec files json settings (.duplicates paths) = .success text := by
  rw [runCommand, reported]
  rfl

end Report

/-- What a scan of files comes to. Labels and fingerprints stand for the files that can be read,
decoded and hashed, in their order. The positions of the groups are all those of labels, so every
line shows a label, and a question mark only where the label has one. The report is that on the
intact files alone, and it counts the groups and the pairs that they list. -/
structure SkipsBroken (codec : Codec) (settings : Settings) (listed : List LabeledFile)
    (labels : List String) (hashes : List Fingerprint) (groups : List DuplicateGroup) : Prop where
  hashed : hashFiles codec settings.fingerprint.algorithm listed = (labels, hashes)
  length_eq : labels.length = hashes.length
  labels_eq : labels = (intactFiles codec settings.fingerprint.algorithm listed).map Prod.fst
  fingerprints : List.Forall₂ (Hashed codec settings.fingerprint.algorithm)
    (intactFiles codec settings.fingerprint.algorithm listed) hashes
  grouped : Fingerprint.duplicates settings.fingerprint.similarityThreshold hashes = .ok groups
  positions_lt : ∀ g ∈ groups, g.index < labels.length ∧ ∀ j ∈ g.duplicates, j < labels.length
  lines : ∃ shownGroups, List.Forall₂ (ShowsGroup labels) (groups.zipIdx 1) shownGroups ∧
    duplicateLines labels groups =
      shownGroups.flatten ++ (if groups = [] then [] else [""]) ++
        [counted groups.length "group" ++ ", " ++
          counted (Fingerprint.reportedPairs groups).length "duplicate"]
  unmarked : (∀ label ∈ labels, '?' ∉ label.toList) →
    ∀ line ∈ duplicateLines labels groups, '?' ∉ line.toList
  report : ∀ json, duplicatesReport codec json settings
      (intactFiles codec settings.fingerprint.algorithm listed) =
    duplicatesReport codec json settings listed
  command : ∀ json files paths,
    intactFiles codec settings.fingerprint.algorithm (paths.flatMap (expand files)) =
      intactFiles codec settings.fingerprint.algorithm listed →
    runCommand codec files json settings (.duplicates paths) = .success
      (shown json (duplicatesRecord labels groups) (duplicateLines labels groups))

theorem duplicates_skip_broken (codec : Codec) (settings : Settings) (listed : List LabeledFile) :
    ∃ labels hashes groups, SkipsBroken codec settings listed labels hashes groups := by
  have aligned := hashFiles_aligned codec settings.fingerprint.algorithm listed
  rcases hashed : hashFiles codec settings.fingerprint.algorithm listed with ⟨labels, hashes⟩
  rw [hashed] at aligned
  have total : ∃ groups,
      Fingerprint.duplicates settings.fingerprint.similarityThreshold hashes = .ok groups :=
    Fingerprint.duplicates_total fun a left b right => aligned.comparable left right
  rcases total with ⟨groups, grouped⟩
  have resolved : Resolved labels groups := by
    intro g member
    rw [aligned.length_eq]
    exact Fingerprint.positions_lt grouped member
  refine ⟨labels, hashes, groups, ?_⟩
  constructor
  case hashed => exact hashed
  case length_eq => exact aligned.length_eq
  case labels_eq => exact aligned.labels
  case fingerprints => exact aligned.hashes
  case grouped => exact grouped
  case positions_lt => exact resolved
  case lines =>
    refine ⟨groupBlocks labels groups, showsGroup_groupBlocks resolved, ?_⟩
    rw [duplicateLines_eq, summaryLine_eq]
  case unmarked => exact duplicateLines_unmarked resolved
  case report => exact fun json => duplicatesReport_congr json (intactFiles_intactFiles ..)
  case command =>
    intro json files paths same
    apply runCommand_duplicates
    rw [duplicatesReport_congr json same]
    exact duplicatesReport_ok json hashed grouped

/-- Four bytes are an image of two rows, no bytes are an image without pixels, and nothing else can
be decoded. -/
def fourByteCodec : Codec where
  decode
    | [a, b, c, d] => .ok (.gray ⟨2, 2⟩ fun x y => [a, b, c, d].getD (2 * y + x) 0)
    | [] => .ok (.gray ⟨0, 0⟩ fun _ _ => 0)
    | _ => .error (.undecodable "not four bytes")
  resize := Codec.nearest.resize
  grayscale := Codec.nearest.grayscale

/-- The first file cannot be read, the third not be decoded, and the fourth not be hashed. -/
def partlyBroken : List LabeledFile :=
  [("lost.png", none), ("a.png", some [0, 9, 3, 200]), ("bad.png", some [7]),
    ("none.png", some []), ("b.png", some [0, 9, 3, 200])]

theorem duplicates_skip_broken_five :
    runCommand fourByteCodec (fun path => (partlyBroken.lookup path).join.map .file) false {}
        (.duplicates ["lost.png", "a.png", "bad.png", "none.png", "b.png"]) =
      .success "001 a.png\n    b.png\n\n1 group, 1 duplicate\n" ∧
    ∀ line ∈ duplicateLines ["a.png", "b.png"] [⟨0, [1]⟩], '?' ∉ line.toList := by
  obtain ⟨labels, hashes, groups, skips⟩ := duplicates_skip_broken fourByteCodec {} partlyBroken
  have kept : hashFiles fourByteCodec .difference partlyBroken =
      (["a.png", "b.png"],
        [⟨"0808080808080808", .difference⟩, ⟨"0808080808080808", .difference⟩]) := by
    decide +kernel
  cases skips.hashed.symm.trans kept
  have found : Fingerprint.duplicates 0.9
      [⟨"0808080808080808", .difference⟩, ⟨"0808080808080808", .difference⟩] =
        .ok [⟨0, [1]⟩] := by decide +kernel
  cases skips.grouped.symm.trans found
  refine ⟨?_, skips.unmarked (by decide)⟩
  rw [skips.command false _ _ (congrArg _ ?_)]
  · rfl
  · decide +kernel

end ImageDigest.CommandLine
