import ImageDigest.Proofs.Fingerprint.Duplicate
import ImageDigest.Proofs.Number.Total
import ImageDigest.Report.Lines
import Mathlib.Data.List.Forall2

namespace ImageDigest.Report

open Fingerprint

def Names (labels : List String) (i : ℕ) (label : String) : Prop := labels[i]? = some label

/-- The lines of a group: the label at its index behind its number, and below it the labels at the
positions of its duplicates. -/
def ShowsGroup (labels : List String) (numbered : DuplicateGroup × ℕ) (lines : List String) :
    Prop :=
  ∃ first others, Names labels numbered.1.index first ∧
    List.Forall₂ (Names labels) numbered.1.duplicates others ∧
    lines = (position numbered.2 ++ " " ++ first) :: others.map (indent ++ ·)

section Labels

variable {labels : List String} {groups : List DuplicateGroup} {g : DuplicateGroup} {i : ℕ}

theorem names_labelAt (inside : i < labels.length) : Names labels i (labelAt labels i) := by
  rw [Names, labelAt, List.getElem?_eq_getElem inside]
  rfl

theorem showsGroup_groupLines (n : ℕ) (index : g.index < labels.length)
    (others : ∀ j ∈ g.duplicates, j < labels.length) :
    ShowsGroup labels (g, n) (groupLines labels n g) := by
  refine ⟨labelAt labels g.index, g.duplicates.map (labelAt labels), names_labelAt index, ?_, ?_⟩
  · rw [List.forall₂_map_right_iff, List.forall₂_same]
    exact fun j inside => names_labelAt (others j inside)
  · rw [List.map_map]
    rfl

def Resolved (labels : List String) (groups : List DuplicateGroup) : Prop :=
  ∀ g ∈ groups, g.index < labels.length ∧ ∀ j ∈ g.duplicates, j < labels.length

def groupBlocks (labels : List String) (groups : List DuplicateGroup) : List (List String) :=
  (groups.zipIdx 1).map fun (g, n) => groupLines labels n g

theorem showsGroup_groupBlocks (resolved : Resolved labels groups) :
    List.Forall₂ (ShowsGroup labels) (groups.zipIdx 1) (groupBlocks labels groups) := by
  rw [groupBlocks, List.forall₂_map_right_iff, List.forall₂_same]
  rintro ⟨g, n⟩ member
  have listed : g ∈ groups := List.fst_mem_of_mem_zipIdx member
  exact showsGroup_groupLines n (resolved g listed).1 (resolved g listed).2

theorem flatten_groupBlocks_eq_nil_iff :
    (groupBlocks labels groups).flatten = [] ↔ groups = [] := by
  cases groups <;> simp [groupBlocks, groupLines]

theorem duplicateLines_eq (labels : List String) (groups : List DuplicateGroup) :
    duplicateLines labels groups =
      (groupBlocks labels groups).flatten ++ (if groups = [] then [] else [""]) ++
        [summaryLine groups] := by
  have shown : (groups.zipIdx 1).flatMap (fun (g, n) => groupLines labels n g) =
      (groupBlocks labels groups).flatten := List.flatMap_def
  rw [duplicateLines, shown]
  by_cases none : groups = []
  · subst none
    rfl
  · have lines : (groupBlocks labels groups).flatten ≠ [] :=
      mt flatten_groupBlocks_eq_nil_iff.mp none
    simp only [List.isEmpty_iff, lines, none, if_false]

end Labels

theorem summaryLine_eq (groups : List DuplicateGroup) :
    summaryLine groups =
      counted groups.length "group" ++ ", " ++
        counted (reportedPairs groups).length "duplicate" := by
  have pairs : (reportedPairs groups).length =
      Number.total (groups.map fun g => g.duplicates.length) := by
    simp only [reportedPairs, List.length_flatMap, List.length_map, Number.total_eq_sum]
  rw [summaryLine, pairs]

section Characters

def Unmarked (text : String) : Prop := '?' ∉ text.toList

instance (text : String) : Decidable (Unmarked text) := inferInstanceAs (Decidable (¬ _))

theorem unmarked_append {left right : String} (before : Unmarked left)
    (behind : Unmarked right) : Unmarked (left ++ right) := by
  rw [Unmarked, String.toList_append, List.mem_append]
  exact not_or.mpr ⟨before, behind⟩

theorem digits_unmarked (n : ℕ) : '?' ∉ Nat.toDigits 10 n := by
  intro member
  have digit := Nat.isDigit_of_mem_toDigits (by decide) (by decide) member
  exact absurd digit (by decide)

theorem position_unmarked (n : ℕ) : Unmarked (position n) := by
  rw [Unmarked, position, String.toList_ofList, Number.Decimal.padLeft, List.mem_append]
  apply not_or.mpr
  constructor
  · intro member
    exact absurd (List.eq_of_mem_replicate member) (by decide)
  · exact digits_unmarked n

theorem counted_unmarked {word : String} (n : ℕ) (plain : Unmarked word) :
    Unmarked (counted n word) := by
  have number : Unmarked (toString n) := by
    rw [Unmarked, Nat.toString_eq_ofList_toDigits, String.toList_ofList]
    exact digits_unmarked n
  unfold counted
  split
  · exact unmarked_append (unmarked_append number (by decide)) plain
  · exact unmarked_append (unmarked_append (unmarked_append number (by decide)) plain)
      (by decide)

theorem summaryLine_unmarked (groups : List DuplicateGroup) :
    Unmarked (summaryLine groups) := by
  apply unmarked_append
  · exact unmarked_append (counted_unmarked _ (by decide)) (by decide)
  · exact counted_unmarked _ (by decide)

variable {labels : List String} {groups : List DuplicateGroup}

theorem showsGroup_unmarked {numbered : DuplicateGroup × ℕ} {lines : List String}
    (plain : ∀ label ∈ labels, Unmarked label) (shows : ShowsGroup labels numbered lines) :
    ∀ line ∈ lines, Unmarked line := by
  rcases shows with ⟨first, others, named, found, rfl⟩
  have label {i : ℕ} {text : String} (stands : Names labels i text) : Unmarked text :=
    plain text (List.mem_of_getElem? stands)
  intro line member
  rcases List.mem_cons.mp member with rfl | member
  · apply unmarked_append
    · exact unmarked_append (position_unmarked _) (by decide)
    · exact label named
  · rcases List.mem_map.mp member with ⟨text, listed, rfl⟩
    apply unmarked_append (by decide)
    rcases exists_left_of_mem found listed with ⟨i, -, stands⟩
    exact label stands

theorem duplicateLines_unmarked (resolved : Resolved labels groups)
    (plain : ∀ label ∈ labels, Unmarked label) :
    ∀ line ∈ duplicateLines labels groups, Unmarked line := by
  intro line member
  rw [duplicateLines_eq, List.mem_append, List.mem_append] at member
  rcases member with (shown | blank) | summary
  · rcases List.mem_flatten.mp shown with ⟨block, listed, inside⟩
    rcases exists_left_of_mem (showsGroup_groupBlocks resolved) listed with ⟨numbered, -, shows⟩
    exact showsGroup_unmarked plain shows line inside
  · split at blank
    case isTrue => cases blank
    case isFalse =>
      rw [List.mem_singleton.mp blank]
      decide
  · rw [List.mem_singleton.mp summary]
    exact summaryLine_unmarked groups

end Characters

end ImageDigest.Report
