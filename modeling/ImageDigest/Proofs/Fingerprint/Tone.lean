import ImageDigest.Proofs.Buffer
import ImageDigest.Proofs.Fingerprint.Grid
import Mathlib.Algebra.BigOperators.Ring.Finset

/-! What a change of tone leaves of a fingerprint, and which grids have fingerprints of equal bits.
Some cell is at least as bright as the mean, and all are only if they are equal. -/

namespace ImageDigest.Fingerprint

variable {algorithm : Algorithm} {g g' : Buffer}

section Digits

theorem ofGrid_congr (grid : IsGrid algorithm g) (grid' : IsGrid algorithm g')
    (same : ∀ x < 8, ∀ y < 8, (Marked algorithm g' (x, y) ↔ Marked algorithm g (x, y))) :
    ofGrid g' algorithm = ofGrid g algorithm := by
  have equal : bits g' algorithm = bits g algorithm := by
    rw [bits_eq grid, bits_eq grid']
    apply List.map_congr_left
    rintro ⟨x, y⟩ member
    obtain ⟨column, row⟩ := (mem_cells 8 8 x y).mp member
    rw [decide_eq_decide]
    exact same x column y row
  rw [ofGrid_isGrid grid, ofGrid_isGrid grid', equal]

theorem digits_eq_iff (grid : IsGrid algorithm g) (b : Bool) :
    hexOfBits (bits g algorithm) = hexOfBits (List.replicate bitCount b) ↔
      ∀ cell ∈ square, decide (Marked algorithm g cell) = b := by
  rw [hexOfBits_inj (bits_dvd grid) (by rw [List.length_replicate]; decide),
    bits_eq_replicate_iff grid]

theorem digits_zero_iff (grid : IsGrid algorithm g) :
    hexOfBits (bits g algorithm) = "0000000000000000" ↔
      ∀ cell ∈ square, ¬ Marked algorithm g cell := by
  have zero : hexOfBits (List.replicate bitCount false) = "0000000000000000" := by decide +kernel
  rw [← zero, digits_eq_iff grid]
  simp only [decide_eq_false_iff_not]

theorem digits_ones_iff (grid : IsGrid algorithm g) :
    hexOfBits (bits g algorithm) = "ffffffffffffffff" ↔
      ∀ cell ∈ square, Marked algorithm g cell := by
  have ones : hexOfBits (List.replicate bitCount true) = "ffffffffffffffff" := by decide +kernel
  rw [← ones, digits_eq_iff grid]
  simp only [decide_eq_true_eq]

end Digits

section Average

theorem sum_scaled (g : Buffer) :
    ∑ _c ∈ square, ∑ c ∈ square, (g.firstChannel c.1 c.2).toNat =
      ∑ c ∈ square, 64 * (g.firstChannel c.1 c.2).toNat := by
  rw [Finset.sum_const_nat fun _ _ => rfl, square_card, ← Finset.mul_sum]

theorem exists_marked (g : Buffer) : ∃ cell ∈ square, Marked .average g cell :=
  Finset.exists_le_of_sum_le ⟨(0, 0), by decide⟩ (sum_scaled g).le

theorem forall_marked_iff (g : Buffer) :
    (∀ cell ∈ square, Marked .average g cell) ↔
      ∃ v, ∀ x < 8, ∀ y < 8, g.firstChannel x y = v := by
  constructor
  · intro marked
    have level := forall_mem_square.mp
      ((Finset.sum_eq_sum_iff_of_le marked).mp (sum_scaled g))
    refine ⟨g.firstChannel 0 0, fun x column y row => ?_⟩
    have own := level x column y row
    have first := level 0 (by decide) 0 (by decide)
    exact UInt8.toNat_inj.mp (Nat.eq_of_mul_eq_mul_left (by decide) (own.symm.trans first))
  · rintro ⟨v, level⟩
    rw [forall_mem_square]
    intro x column y row
    rw [Marked, sum_of_level level, level x column y row]

theorem marked_average_shifted {k : ℤ}
    (shifted : ∀ x < 8, ∀ y < 8,
      ((g'.firstChannel x y).toNat : ℤ) = (g.firstChannel x y).toNat + k)
    {x y : ℕ} (column : x < 8) (row : y < 8) :
    Marked .average g' (x, y) ↔ Marked .average g (x, y) := by
  have sum : ((∑ c ∈ square, (g'.firstChannel c.1 c.2).toNat : ℕ) : ℤ) =
      (∑ c ∈ square, (g.firstChannel c.1 c.2).toNat : ℕ) + 64 * k := by
    rw [Nat.cast_sum, Nat.cast_sum]
    calc
      ∑ c ∈ square, ((g'.firstChannel c.1 c.2).toNat : ℤ)
          = ∑ c ∈ square, (((g.firstChannel c.1 c.2).toNat : ℤ) + k) := by
        apply Finset.sum_congr rfl
        exact forall_mem_square.mpr shifted
      _ = ∑ c ∈ square, ((g.firstChannel c.1 c.2).toNat : ℤ) + 64 * k := by
        rw [Finset.sum_add_distrib, Finset.sum_const, square_card, nsmul_eq_mul]
        rfl
  have cell := shifted x column y row
  show _ ≤ 64 * (g'.firstChannel x y).toNat ↔ _ ≤ 64 * (g.firstChannel x y).toNat
  omega

end Average

section Difference

section Rows

variable (r : UInt8 → UInt8 → Prop) (chain : ∀ u v w, r u v → r v w → r u w)

include chain

/-- What holds between neighbours, and can be chained, holds between any two cells of a row. -/
theorem forall_step_iff (f : ℕ → UInt8) :
    (∀ x < 8, r (f x) (f (x + 1))) ↔ ∀ x x', x < x' → x' < 9 → r (f x) (f x') := by
  constructor
  · intro step x x' before inside
    induction before with
    | refl => exact step x (Nat.lt_of_succ_lt_succ inside)
    | @step x' before ih =>
        have earlier : x' < 8 := Nat.lt_of_succ_lt_succ inside
        exact chain _ _ _ (ih (Nat.lt_succ_of_lt earlier)) (step x' earlier)
  · intro all x inside
    exact all x (x + 1) (Nat.lt_succ_self x) (Nat.succ_lt_succ inside)

theorem forall_rows_iff (g : Buffer) :
    (∀ cell ∈ square,
      r (g.firstChannel cell.1 cell.2) (g.firstChannel (cell.1 + 1) cell.2)) ↔
      ∀ y < 8, ∀ x x', x < x' → x' < 9 → r (g.firstChannel x y) (g.firstChannel x' y) := by
  rw [forall_mem_square]
  constructor
  · intro all y row
    apply (forall_step_iff r chain fun x => g.firstChannel x y).mp
    exact fun x column => all x column y row
  · intro all x column y row
    exact (forall_step_iff r chain fun x => g.firstChannel x y).mpr (all y row) x column

end Rows

theorem marked_difference_mapBytes (grid : IsGrid .difference g) {f : UInt8 → UInt8}
    (increasing : ∀ v ∈ g.data, ∀ w ∈ g.data, v < w → f v < f w) {x y : ℕ} (column : x < 8)
    (row : y < 8) :
    Marked .difference (g.mapBytes f) (x, y) ↔ Marked .difference g (x, y) := by
  have width : g.size.width = 9 := grid.width
  have own : x < g.size.width := by omega
  have next : x + 1 < g.size.width := by omega
  have inside : y < g.size.height := by rwa [grid.height]
  rw [Marked, Marked, Buffer.firstChannel_mapBytes f own inside,
    Buffer.firstChannel_mapBytes f next inside]
  have left := Buffer.firstChannel_mem own inside
  have right := Buffer.firstChannel_mem next inside
  constructor
  · intro less
    by_contra reversed
    rcases UInt8.lt_or_eq_of_le (UInt8.not_lt.mp reversed) with greater | same
    · exact UInt8.lt_asymm less (increasing _ right _ left greater)
    · rw [same] at less
      exact UInt8.lt_irrefl _ less
  · exact increasing _ left _ right

end Difference

theorem mapBytes_isGrid (grid : IsGrid algorithm g) (f : UInt8 → UInt8) :
    IsGrid algorithm (g.mapBytes f) :=
  ⟨grid.size, grid.channels⟩

/-- An average fingerprint has a bit that is set, has no other bits only if all cells are equal, and
does not change if a constant is added to the cells. A difference fingerprint changes with no map
that increases on the values of the cells. No bit of it is set exactly if no row becomes brighter
from the left to the right at any place, and all bits are set exactly if every row becomes brighter
throughout. -/
theorem tone_laws (g : Buffer) :
    (IsGrid .average g → ∃ h, ofGrid g .average = .ok h ∧
      h.digits ≠ "0000000000000000" ∧
      (h.digits = "ffffffffffffffff" ↔ ∃ v, ∀ x < 8, ∀ y < 8, g.firstChannel x y = v) ∧
      ∀ (k : ℤ) (f : UInt8 → UInt8), (∀ v ∈ g.data, ((f v).toNat : ℤ) = v.toNat + k) →
        ofGrid (g.mapBytes f) .average = .ok h) ∧
    (IsGrid .difference g → ∃ h, ofGrid g .difference = .ok h ∧
      (∀ f : UInt8 → UInt8, (∀ v ∈ g.data, ∀ w ∈ g.data, v < w → f v < f w) →
        ofGrid (g.mapBytes f) .difference = .ok h) ∧
      (h.digits = "0000000000000000" ↔
        ∀ y < 8, ∀ x x', x < x' → x' < 9 → g.firstChannel x' y ≤ g.firstChannel x y) ∧
      (h.digits = "ffffffffffffffff" ↔
        ∀ y < 8, ∀ x x', x < x' → x' < 9 → g.firstChannel x y < g.firstChannel x' y)) := by
  constructor
  · intro grid
    refine ⟨_, ofGrid_isGrid grid, ?_, ?_, ?_⟩
    · obtain ⟨cell, member, marked⟩ := exists_marked g
      exact fun zero => (digits_zero_iff grid).mp zero cell member marked
    · exact (digits_ones_iff grid).trans (forall_marked_iff g)
    · intro k f shifted
      rw [ofGrid_congr grid (mapBytes_isGrid grid f), ofGrid_isGrid grid]
      intro x column y row
      apply marked_average_shifted _ column row (k := k)
      intro x column y row
      have column' : x < g.size.width := grid.width ▸ column
      have row' : y < g.size.height := grid.height ▸ row
      rw [Buffer.firstChannel_mapBytes f column' row',
        shifted _ (Buffer.firstChannel_mem column' row')]
  · intro grid
    refine ⟨_, ofGrid_isGrid grid, ?_, ?_, ?_⟩
    · intro f increasing
      rw [ofGrid_congr grid (mapBytes_isGrid grid f), ofGrid_isGrid grid]
      exact fun x column y row => marked_difference_mapBytes grid increasing column row
    · rw [digits_zero_iff grid]
      simp only [Marked, UInt8.not_lt]
      exact forall_rows_iff (fun v w => w ≤ v)
        (fun _ _ _ first second => UInt8.le_trans second first) g
    · rw [digits_ones_iff grid]
      exact forall_rows_iff (· < ·) (fun _ _ _ => UInt8.lt_trans) g

def ramp (width : ℕ) : Buffer := .gray ⟨width, 8⟩ fun x y => .ofNat (20 * x + y)

theorem tone_laws_ramp :
    (∃ h, ofGrid (ramp 8) .average = .ok h ∧ h.digits ≠ "0000000000000000" ∧
      ofGrid ((ramp 8).mapBytes (· + 30)) .average = .ok h) ∧
    (∃ h, ofGrid (ramp 9) .difference = .ok h ∧ h.digits = "ffffffffffffffff" ∧
      ofGrid ((ramp 9).mapBytes fun v => if v < 100 then v else v + 50) .difference = .ok h) := by
  obtain ⟨h, made, present, -, shift⟩ := (tone_laws (ramp 8)).1 ⟨rfl, rfl⟩
  obtain ⟨h', made', tone, -, ones⟩ := (tone_laws (ramp 9)).2 ⟨rfl, rfl⟩
  have brighter := (forall_rows_iff (· < ·) (fun _ _ _ => UInt8.lt_trans) (ramp 9)).mp
    (by decide +kernel)
  exact ⟨⟨h, made, present, shift 30 _ (by decide +kernel)⟩,
    ⟨h', made', ones.mpr brighter, tone _ (by decide +kernel)⟩⟩

end ImageDigest.Fingerprint
