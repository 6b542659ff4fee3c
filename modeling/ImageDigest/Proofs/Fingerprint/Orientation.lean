import ImageDigest.Proofs.Buffer
import ImageDigest.Proofs.Fingerprint.Grid

/-! What becomes of a fingerprint when its grid is turned over. The two digits of a row stay
together; within a row only the average fingerprint is read backwards, because bits of the other one
tell about right neighbours, which are left ones in a mirror. -/

namespace ImageDigest.Fingerprint

variable {algorithm : Algorithm} {g : Buffer} {x y : ℕ}

section Rows

structure InRows {α : Type} (width : ℕ) (rows : List (List α)) (whole : List α) : Prop where
  count : rows.length = 8
  width : ∀ row ∈ rows, row.length = width
  written : whole = rows.flatten

/-- The bits and the rows of bits that the digits of a fingerprint are read as. -/
structure Reads (h : Fingerprint) (bits : List Bool) (rows : List (List Bool)) : Prop where
  read : bitsOf h.digits = .ok bits
  rows : InRows 8 rows bits

def rowOf (marked : ℕ → Bool) : List Bool := (List.range 8).map marked

def bitRows (algorithm : Algorithm) (g : Buffer) : List (List Bool) :=
  (List.range 8).map fun y => rowOf fun x => decide (Marked algorithm g (x, y))

theorem map_range_reverse {α : Type} (f : ℕ → α) (n : ℕ) :
    ((List.range n).map f).reverse = (List.range n).map fun i => f (n - 1 - i) := by
  rw [← List.map_reverse, List.range_eq_range', List.reverse_range', List.map_map,
    List.range_eq_range']
  simp only [Function.comp_def, Nat.zero_add]

theorem rowOf_inj {marked marked' : ℕ → Bool} :
    rowOf marked = rowOf marked' ↔ ∀ x < 8, marked x = marked' x := by
  simp only [rowOf, List.map_inj_left, List.mem_range]

theorem bits_inRows (grid : IsGrid algorithm g) :
    InRows 8 (bitRows algorithm g) (bits g algorithm) where
  count := by rw [bitRows, List.length_map, List.length_range]
  width := by
    intro row member
    rcases List.mem_map.mp member with ⟨y, -, rfl⟩
    rw [rowOf, List.length_map, List.length_range]
  written := by
    rw [bits_eq grid, cells, List.map_flatMap, List.flatMap_def, bitRows]
    simp only [rowOf, List.map_map, Function.comp_def]

theorem reads_bitRows (grid : IsGrid algorithm g) :
    Reads ⟨hexOfBits (bits g algorithm), algorithm⟩ (bits g algorithm) (bitRows algorithm g) :=
  ⟨bitsOf_hexOfBits_of_dvd (bits_dvd grid), bits_inRows grid⟩

theorem digits_inRows (grid : IsGrid algorithm g) :
    InRows 2 ((bitRows algorithm g).map pack) (hexOfBits (bits g algorithm)).toList := by
  have inRows := bits_inRows grid
  constructor
  case count => rw [List.length_map, inRows.count]
  case width =>
    intro group member
    rcases List.mem_map.mp member with ⟨row, listed, rfl⟩
    rw [pack_length, inRows.width row listed]
  case written =>
    rw [hexOfBits, String.toList_ofList, inRows.written, pack_flatten]
    intro row listed
    rw [inRows.width row listed]
    decide

theorem bits_eq_iff_bitRows {g' : Buffer} (grid : IsGrid algorithm g)
    (grid' : IsGrid algorithm g') :
    bits g algorithm = bits g' algorithm ↔ bitRows algorithm g = bitRows algorithm g' := by
  have lengths {g : Buffer} (grid : IsGrid algorithm g) :
      (bitRows algorithm g).map List.length = List.replicate 8 8 := by
    rw [List.eq_replicate_iff, List.length_map]
    refine ⟨(bits_inRows grid).count, fun n listed => ?_⟩
    rcases List.mem_map.mp listed with ⟨row, member, rfl⟩
    exact (bits_inRows grid).width row member
  rw [List.eq_iff_flatten_eq, ← (bits_inRows grid).written, ← (bits_inRows grid').written,
    lengths grid, lengths grid', and_iff_left rfl]

end Rows

/-- Cells that trade places in pairs are as bright as before compared to their mean. -/
theorem marked_average_traded {g' : Buffer} {u v : ℕ → ℕ}
    (columns : ∀ x < 8, u x < 8 ∧ u (u x) = x) (rows : ∀ y < 8, v y < 8 ∧ v (v y) = y)
    (traded : ∀ x < 8, ∀ y < 8, g'.firstChannel x y = g.firstChannel (u x) (v y))
    (column : x < 8) (row : y < 8) :
    Marked .average g' (x, y) ↔ Marked .average g (u x, v y) := by
  have inside : ∀ c ∈ square, (u c.1, v c.2) ∈ square :=
    forall_mem_square.mpr fun x column y row =>
      mem_square.mpr ⟨(columns x column).1, (rows y row).1⟩
  have back : ∀ c ∈ square, (u (u c.1), v (v c.2)) = c :=
    forall_mem_square.mpr fun x column y row =>
      Prod.ext (columns x column).2 (rows y row).2
  have sum : ∑ c ∈ square, (g'.firstChannel c.1 c.2).toNat =
      ∑ c ∈ square, (g.firstChannel c.1 c.2).toNat := by
    apply Finset.sum_nbij' _ _ inside inside back back
    exact forall_mem_square.mpr fun x column y row =>
      congrArg UInt8.toNat (traded x column y row)
  rw [Marked, Marked, sum, traded x column y row]

section Flipped

theorem flipped_isGrid (grid : IsGrid algorithm g) : IsGrid algorithm g.flipped :=
  ⟨grid.size, grid.channels⟩

theorem flipped_at (grid : IsGrid algorithm g) (column : x < algorithm.grid.width) (row : y < 8) :
    g.flipped.firstChannel x y = g.firstChannel x (7 - y) := by
  rw [Buffer.firstChannel_flipped (grid.width ▸ column) (grid.height ▸ row), grid.height]

theorem marked_flipped (grid : IsGrid algorithm g) (column : x < 8) (row : y < 8) :
    Marked algorithm g.flipped (x, y) ↔ Marked algorithm g (x, 7 - y) := by
  cases algorithm with
  | difference =>
      have next : x + 1 < 9 := Nat.succ_lt_succ column
      rw [Marked, Marked, flipped_at grid (Nat.lt_succ_of_lt column) row, flipped_at grid next row]
  | average =>
      exact marked_average_traded (u := id) (v := (7 - ·)) (by decide) (by decide)
        (fun x column y row => flipped_at grid column row) column row

theorem bitRows_flipped (grid : IsGrid algorithm g) :
    bitRows algorithm g.flipped = (bitRows algorithm g).reverse := by
  rw [bitRows, bitRows, map_range_reverse, List.map_inj_left]
  intro y row
  rw [rowOf_inj]
  intro x column
  rw [decide_eq_decide]
  exact marked_flipped grid column (List.mem_range.mp row)

end Flipped

section Mirrored

theorem mirrored_isGrid (grid : IsGrid algorithm g) : IsGrid algorithm g.mirrored :=
  ⟨grid.size, grid.channels⟩

theorem mirrored_at (grid : IsGrid algorithm g) (column : x < algorithm.grid.width) (row : y < 8) :
    g.mirrored.firstChannel x y = g.firstChannel (algorithm.grid.width - 1 - x) y := by
  rw [Buffer.firstChannel_mirrored (grid.width ▸ column) (grid.height ▸ row), grid.width]

theorem marked_average_mirrored (grid : IsGrid .average g) (column : x < 8) (row : y < 8) :
    Marked .average g.mirrored (x, y) ↔ Marked .average g (7 - x, y) :=
  marked_average_traded (u := (7 - ·)) (v := id) (by decide) (by decide)
    (fun x column y row => mirrored_at grid column row) column row

theorem bitRows_average_mirrored (grid : IsGrid .average g) :
    bitRows .average g.mirrored = (bitRows .average g).map List.reverse := by
  rw [bitRows, bitRows, List.map_map, List.map_inj_left]
  intro y row
  rw [Function.comp_apply, rowOf, rowOf, map_range_reverse]
  apply rowOf_inj.mpr
  intro x column
  rw [decide_eq_decide]
  exact marked_average_mirrored grid column (List.mem_range.mp row)

theorem marked_difference_mirrored (grid : IsGrid .difference g) (column : x < 8) (row : y < 8) :
    Marked .difference g.mirrored (x, y) ↔
      g.firstChannel (8 - x) y < g.firstChannel (7 - x) y := by
  have next : x + 1 < 9 := Nat.succ_lt_succ column
  have left : Algorithm.difference.grid.width - 1 - (x + 1) = 7 - x := by
    show 8 - (x + 1) = 7 - x
    omega
  rw [Marked, mirrored_at grid (Nat.lt_succ_of_lt column) row, mirrored_at grid next row, left]
  rfl

/-- No two neighbours in a row are equally bright. -/
def Separated (g : Buffer) : Prop :=
  ∀ x < 8, ∀ y < 8, g.firstChannel x y ≠ g.firstChannel (x + 1) y

instance (g : Buffer) : Decidable (Separated g) :=
  inferInstanceAs (Decidable (∀ x < 8, ∀ y < 8, _))

/-- The bits of a row from the right, each of them inverted. -/
def reversedComplement (row : List Bool) : List Bool := (row.map not).reverse

theorem reversedComplement_rowOf (marked : ℕ → Bool) :
    reversedComplement (rowOf marked) = rowOf fun x => !marked (7 - x) := by
  rw [reversedComplement, rowOf, List.map_map, map_range_reverse]
  rfl

section Cell

variable (grid : IsGrid .difference g) (column : x < 8) (row : y < 8)

include grid column row

theorem marked_at_mirrored :
    Marked .difference g.mirrored (7 - x, y) ↔ g.firstChannel (x + 1) y < g.firstChannel x y := by
  have own : 7 - (7 - x) = x := by omega
  have next : 8 - (7 - x) = x + 1 := by omega
  rw [marked_difference_mirrored grid (by omega) row, own, next]

theorem not_marked_both :
    ¬ (Marked .difference g (x, y) ∧ Marked .difference g.mirrored (7 - x, y)) := by
  rw [marked_at_mirrored grid column row]
  intro both
  exact UInt8.lt_asymm both.1 both.2

theorem marked_mirrored_iff_not :
    (Marked .difference g.mirrored (7 - x, y) ↔ ¬ Marked .difference g (x, y)) ↔
      g.firstChannel x y ≠ g.firstChannel (x + 1) y := by
  rw [marked_at_mirrored grid column row, Marked, UInt8.not_lt]
  constructor
  · intro inverted same
    rw [same] at inverted
    exact UInt8.lt_irrefl _ (inverted.mpr (UInt8.le_refl _))
  · intro differ
    exact ⟨UInt8.le_of_lt, fun least => UInt8.lt_of_le_of_ne least differ.symm⟩

end Cell

theorem bitRows_mirrored_iff (grid : IsGrid .difference g) :
    bitRows .difference g.mirrored = (bitRows .difference g).map reversedComplement ↔
      Separated g := by
  simp only [bitRows, List.map_map, List.map_inj_left, Function.comp_apply,
    reversedComplement_rowOf, rowOf_inj, List.mem_range]
  constructor
  · intro inverted x column y row
    have bit := inverted y row (7 - x) (by omega)
    rw [← decide_not, decide_eq_decide, show 7 - (7 - x) = x by omega] at bit
    exact (marked_mirrored_iff_not grid column row).mp bit
  · intro separated y row x column
    have left : 7 - x < 8 := by omega
    have bit := (marked_mirrored_iff_not grid left row).mpr (separated _ left y row)
    rwa [show 7 - (7 - x) = x by omega, ← decide_eq_decide, decide_not] at bit

theorem bits_mirrored_iff (grid : IsGrid .difference g) (separated : Separated g) :
    bits g .difference = bits g.mirrored .difference ↔
      ∀ row ∈ bitRows .difference g, row = reversedComplement row := by
  rw [bits_eq_iff_bitRows grid (mirrored_isGrid grid), (bitRows_mirrored_iff grid).mpr separated]
  nth_rewrite 1 [← List.map_id (bitRows .difference g)]
  rw [List.map_inj_left]
  rfl

end Mirrored

/-- A grid that is turned upside down has the digits of its rows in the opposite order. In a mirror
each row of an average fingerprint is read backwards. In that of a difference fingerprint the cells
are compared the other way round: no bit is set both here and there, and the rows are read backwards
with every bit inverted exactly if no two neighbours are equal. In that case the two fingerprints
differ exactly if some row is not its own reversed complement. -/
theorem orientation_law (g : Buffer) :
    (∀ algorithm, IsGrid algorithm g → ∃ h h' groups,
      ofGrid g algorithm = .ok h ∧ ofGrid g.flipped algorithm = .ok h' ∧
      InRows 2 groups h.digits.toList ∧ InRows 2 groups.reverse h'.digits.toList) ∧
    (IsGrid .average g → ∃ h h' bits bits' rows,
      ofGrid g .average = .ok h ∧ ofGrid g.mirrored .average = .ok h' ∧
      Reads h bits rows ∧ Reads h' bits' (rows.map List.reverse)) ∧
    (IsGrid .difference g → ∃ h h' bits bits' rows rows',
      ofGrid g .difference = .ok h ∧ ofGrid g.mirrored .difference = .ok h' ∧
      Reads h bits rows ∧ Reads h' bits' rows' ∧
      (∀ x < 8, ∀ y < 8, bits'[8 * y + x]? =
        some (decide (g.firstChannel (8 - x) y < g.firstChannel (7 - x) y))) ∧
      (∀ x < 8, ∀ y < 8,
        ¬ (bits[8 * y + x]? = some true ∧ bits'[8 * y + (7 - x)]? = some true)) ∧
      (rows' = rows.map reversedComplement ↔ Separated g) ∧
      (Separated g → (h ≠ h' ↔ ∃ row ∈ rows, row ≠ reversedComplement row))) := by
  refine ⟨?_, ?_, ?_⟩
  · intro algorithm grid
    have turned := flipped_isGrid grid
    have digits := digits_inRows turned
    rw [bitRows_flipped grid, List.map_reverse] at digits
    exact ⟨_, _, _, ofGrid_isGrid grid, ofGrid_isGrid turned, digits_inRows grid, digits⟩
  · intro grid
    have turned := mirrored_isGrid grid
    have reads := reads_bitRows turned
    rw [bitRows_average_mirrored grid] at reads
    exact ⟨_, _, _, _, _, ofGrid_isGrid grid, ofGrid_isGrid turned, reads_bitRows grid, reads⟩
  · intro grid
    have turned := mirrored_isGrid grid
    refine ⟨_, _, _, _, _, _, ofGrid_isGrid grid, ofGrid_isGrid turned, reads_bitRows grid,
      reads_bitRows turned, ?_, ?_, bitRows_mirrored_iff grid, ?_⟩
    · intro x column y row
      rw [bits_getElem turned column row, Option.some_inj, decide_eq_decide]
      exact marked_difference_mirrored grid column row
    · intro x column y row
      rw [bits_getElem grid column row, bits_getElem turned (by omega) row]
      simpa using not_marked_both grid column row
    · intro separated
      rw [ne_eq, Fingerprint.mk.injEq, and_iff_left rfl,
        hexOfBits_inj (bits_dvd grid) (bits_dvd turned), bits_mirrored_iff grid separated]
      push Not
      rfl

/-- Four rows that become brighter above four that become darker. -/
def ramps (width : ℕ) : Buffer :=
  .gray ⟨width, 8⟩ fun x y => if y < 4 then .ofNat (20 * x) else .ofNat (200 - 20 * x)

theorem orientation_law_ramps :
    (∃ h h' groups,
      ofGrid (ramps 8) .average = .ok h ∧ ofGrid (ramps 8).flipped .average = .ok h' ∧
      InRows 2 groups h.digits.toList ∧ InRows 2 groups.reverse h'.digits.toList) ∧
    (∃ h h' bits bits' rows,
      ofGrid (ramps 8) .average = .ok h ∧ ofGrid (ramps 8).mirrored .average = .ok h' ∧
      Reads h bits rows ∧ Reads h' bits' (rows.map List.reverse)) ∧
    (∃ h h' bits bits' rows,
      ofGrid (ramps 9) .difference = .ok h ∧ ofGrid (ramps 9).mirrored .difference = .ok h' ∧
      Reads h bits rows ∧ Reads h' bits' (rows.map reversedComplement) ∧
      (h ≠ h' ↔ ∃ row ∈ rows, row ≠ reversedComplement row)) := by
  have separated : Separated (ramps 9) := by decide +kernel
  obtain ⟨flip, mirror, -⟩ := orientation_law (ramps 8)
  obtain ⟨h, h', bits, bits', rows, rows', made, made', reads, reads', -, -, inverted, differ⟩ :=
    (orientation_law (ramps 9)).2.2 ⟨rfl, rfl⟩
  rw [inverted.mpr separated] at reads'
  exact ⟨flip .average ⟨rfl, rfl⟩, mirror ⟨rfl, rfl⟩,
    h, h', bits, bits', rows, made, made', reads, reads', differ separated⟩

end ImageDigest.Fingerprint
