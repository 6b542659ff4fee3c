import ImageDigest.Proofs.Fingerprint.Duplicate
import ImageDigest.Proofs.Fingerprint.Grid

/-! A cell takes part in the bits of two pairs of neighbours at most, so a change of few cells
changes few bits of a difference fingerprint. -/

namespace ImageDigest.Fingerprint

variable {g g' : Buffer}

def changedCells (g g' : Buffer) : Finset (ℕ × ℕ) :=
  (Finset.range 9 ×ˢ Finset.range 8).filter fun cell =>
    g.firstChannel cell.1 cell.2 ≠ g'.firstChannel cell.1 cell.2

def changedBits (g g' : Buffer) : Finset (ℕ × ℕ) :=
  square.filter fun cell => ¬ (Marked .difference g cell ↔ Marked .difference g' cell)

theorem mem_changedCells {x y : ℕ} :
    (x, y) ∈ changedCells g g' ↔
      (x < 9 ∧ y < 8) ∧ g.firstChannel x y ≠ g'.firstChannel x y := by
  simp only [changedCells, Finset.mem_filter, Finset.mem_product, Finset.mem_range]

theorem changed_of_bit {x y : ℕ} (changed : (x, y) ∈ changedBits g g') :
    ((x, y) ∈ changedCells g g' ∧ x < 8) ∨ (x + 1, y) ∈ changedCells g g' := by
  simp only [changedBits, square, Finset.mem_filter, Finset.mem_product, Finset.mem_range]
    at changed
  rcases changed with ⟨⟨column, row⟩, differ⟩
  by_cases own : g.firstChannel x y = g'.firstChannel x y
  · -- the own cell is as before, so the comparison can only have changed with the other one
    right
    refine mem_changedCells.mpr ⟨⟨Nat.succ_lt_succ column, row⟩, ?_⟩
    intro neighbour
    apply differ
    simp only [Marked, own, neighbour]
  · exact .inl ⟨mem_changedCells.mpr ⟨⟨Nat.lt_succ_of_lt column, row⟩, own⟩, column⟩

/-- A cell but for those of the last column has a bit of its own, and one but for those of the
first column is in the bit of its left neighbour. -/
theorem changedBits_card_le (g g' : Buffer) :
    (changedBits g g').card ≤
      ((changedCells g g').filter fun cell => cell.1 < 8).card +
        ((changedCells g g').filter fun cell => 0 < cell.1).card := by
  have covered : changedBits g g' ⊆
      ((changedCells g g').filter fun cell => cell.1 < 8) ∪
        ((changedCells g g').filter fun cell => 0 < cell.1).image
          fun cell => (cell.1 - 1, cell.2) := by
    rintro ⟨x, y⟩ changed
    rcases changed_of_bit changed with own | neighbour
    · exact Finset.mem_union_left _ (Finset.mem_filter.mpr own)
    · refine Finset.mem_union_right _ (Finset.mem_image.mpr ⟨(x + 1, y), ?_, rfl⟩)
      exact Finset.mem_filter.mpr ⟨neighbour, Nat.succ_pos x⟩
  calc
    (changedBits g g').card ≤ _ := Finset.card_le_card covered
    _ ≤ _ := Finset.card_union_le _ _
    _ ≤ _ := Nat.add_le_add_left Finset.card_image_le _

theorem changedBits_card_le_twice (g g' : Buffer) :
    (changedBits g g').card ≤ 2 * (changedCells g g').card := by
  have bound := changedBits_card_le g g'
  have own := Finset.card_filter_le (changedCells g g') fun cell => cell.1 < 8
  have neighbour := Finset.card_filter_le (changedCells g g') fun cell => 0 < cell.1
  omega

theorem changedBits_card_le_of_ends
    (ends : ∀ cell ∈ changedCells g g', cell.1 = 0 ∨ cell.1 = 8) :
    (changedBits g g').card ≤ (changedCells g g').card := by
  have last : ((changedCells g g').filter fun cell => 0 < cell.1) =
      (changedCells g g').filter fun cell => ¬ cell.1 < 8 := by
    apply Finset.filter_congr
    intro cell member
    have position := ends cell member
    omega
  calc
    (changedBits g g').card ≤ _ := changedBits_card_le g g'
    _ = (changedCells g g').card := by
      rw [last, Finset.card_filter_add_card_filter_not]

theorem similarityOf_reaches {distance : ℕ} (few : distance ≤ 6) :
    (0.90625 : Float) ≤ (similarityOf distance bitCount).similarity ∧
      ({} : FingerprintSettings).similarityThreshold ≤
        (similarityOf distance bitCount).similarity := by
  have table : ∀ d < 7,
      (0.90625 : Float) ≤ (similarityOf d bitCount).similarity ∧
        ({} : FingerprintSettings).similarityThreshold ≤
          (similarityOf d bitCount).similarity := by decide +kernel
  exact table distance (Nat.lt_succ_of_le few)

/-- Grids that differ in few cells have difference fingerprints at a distance of at most twice as
many bits, and of no more bits than cells if these are at the ends of the rows. Up to three cells
leave the fingerprints similar enough for the stock threshold. -/
theorem local_changes (g g' : Buffer) (grid : IsGrid .difference g)
    (grid' : IsGrid .difference g') (m : ℕ) (few : (changedCells g g').card ≤ m) :
    ∃ h h' result, ofGrid g .difference = .ok h ∧ ofGrid g' .difference = .ok h' ∧
      compare h h' = .ok result ∧ result.distance ≤ 2 * m ∧
      ((∀ cell ∈ changedCells g g', cell.1 = 0 ∨ cell.1 = 8) → result.distance ≤ m) ∧
      (m ≤ 3 →
        (0.90625 : Float) ≤ result.similarity ∧
        ({} : FingerprintSettings).similarityThreshold ≤ result.similarity ∧
        duplicates ({} : FingerprintSettings).similarityThreshold [h, h'] = .ok [⟨0, [1]⟩]) := by
  have compared := compare_grids grid grid'
  have distance : hamming (bits g .difference) (bits g' .difference) = (changedBits g g').card :=
    hamming_bits grid grid'
  have bound := changedBits_card_le_twice g g'
  rw [distance] at compared
  refine ⟨_, _, _, ofGrid_isGrid grid, ofGrid_isGrid grid', compared, ?_, ?_, ?_⟩
  · exact bound.trans (Nat.mul_le_mul_left 2 few)
  · intro ends
    exact (changedBits_card_le_of_ends ends).trans few
  · intro three
    have six : (changedBits g g').card ≤ 6 := by omega
    have reached := similarityOf_reaches six
    exact ⟨reached.1, reached.2, duplicates_of_two compared reached.2⟩

theorem local_changes_three :
    ∃ h h' result,
      ofGrid (.gray ⟨9, 8⟩ fun _ _ => 7) .difference = .ok h ∧
      ofGrid (.gray ⟨9, 8⟩ fun x y => if (x, y) ∈ [(1, 0), (4, 3), (8, 7)] then 90 else 7)
        .difference = .ok h' ∧
      compare h h' = .ok result ∧ result.distance ≤ 6 ∧
      duplicates 0.9 [h, h'] = .ok [⟨0, [1]⟩] := by
  have few : (changedCells (.gray ⟨9, 8⟩ fun _ _ => 7) (.gray ⟨9, 8⟩ fun x y =>
      if (x, y) ∈ [(1, 0), (4, 3), (8, 7)] then 90 else 7)).card ≤ 3 := by decide +kernel
  obtain ⟨h, h', result, made, made', compared, distance, -, matching⟩ :=
    local_changes _ _ ⟨rfl, rfl⟩ ⟨rfl, rfl⟩ 3 few
  exact ⟨h, h', result, made, made', compared, distance, (matching le_rfl).2.2⟩

end ImageDigest.Fingerprint
