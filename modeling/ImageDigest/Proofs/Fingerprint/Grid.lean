import ImageDigest.Proofs.Fingerprint.Similarity
import ImageDigest.Proofs.Number.Total
import Mathlib.Algebra.BigOperators.Group.Finset.Basic
import Mathlib.Algebra.Order.BigOperators.Group.Finset
import Mathlib.Data.Finset.Prod

namespace ImageDigest.Fingerprint

open Text Number

theorem cells_eq (width height : Nat) :
    cells width height =
      (List.range (width * height)).map fun i => (i % width, i / width) := by
  induction height with
  | zero => simp [cells]
  | succ height ih =>
      have split : cells width (height + 1) =
          cells width height ++ (List.range width).map fun x => (x, height) := by
        simp [cells, List.range_succ]
      rw [split, ih, Nat.mul_succ, List.range_add, List.map_append, List.map_map]
      congr 1
      apply List.map_congr_left
      intro x member
      have inside : x < width := List.mem_range.mp member
      simp [Nat.mod_eq_of_lt inside, Nat.mul_add_div (Nat.zero_lt_of_lt inside),
        Nat.div_eq_of_lt inside]

theorem mem_cells (width height x y : Nat) :
    (x, y) ∈ cells width height ↔ x < width ∧ y < height := by
  simp [cells, and_comm]

theorem cells_length (width height : Nat) : (cells width height).length = width * height := by
  rw [cells_eq, List.length_map, List.length_range]

theorem cells_nodup (width height : Nat) : (cells width height).Nodup := by
  rw [cells_eq]
  apply List.Nodup.map_on _ List.nodup_range
  intro i _ j _ same
  have column : i % width = j % width := congrArg Prod.fst same
  have row : i / width = j / width := congrArg Prod.snd same
  rw [← Nat.div_add_mod i width, ← Nat.div_add_mod j width, column, row]

theorem cells_getElem {width height x y : Nat} (column : x < width) (row : y < height) :
    (cells width height)[width * y + x]? = some (x, y) := by
  have inside : width * y + x < width * height := by
    calc
      width * y + x < width * y + width := Nat.add_lt_add_left column _
      _ = width * (y + 1) := (Nat.mul_succ width y).symm
      _ ≤ width * height := Nat.mul_le_mul_left width row
  rw [cells_eq, List.getElem?_map, List.getElem?_range inside, Option.map_some]
  simp [Nat.mod_eq_of_lt column, Nat.mul_add_div (Nat.zero_lt_of_lt column),
    Nat.div_eq_of_lt column]

def square : Finset (ℕ × ℕ) := Finset.range 8 ×ˢ Finset.range 8

theorem mem_square {x y : ℕ} : (x, y) ∈ square ↔ x < 8 ∧ y < 8 := by
  rw [square, Finset.mem_product, Finset.mem_range, Finset.mem_range]

theorem forall_mem_square {p : ℕ × ℕ → Prop} :
    (∀ c ∈ square, p c) ↔ ∀ x < 8, ∀ y < 8, p (x, y) := by
  constructor
  · intro all x column y row
    exact all (x, y) (mem_square.mpr ⟨column, row⟩)
  · rintro all ⟨x, y⟩ member
    obtain ⟨column, row⟩ := mem_square.mp member
    exact all x column y row

theorem square_card : square.card = 64 := by decide

theorem cells_toFinset : (cells 8 8).toFinset = square := by
  ext ⟨x, y⟩
  rw [List.mem_toFinset, mem_cells, mem_square]

theorem mem_cells_iff {cell : ℕ × ℕ} : cell ∈ cells 8 8 ↔ cell ∈ square := by
  rw [← cells_toFinset, List.mem_toFinset]

theorem cells_countP (marked : ℕ × ℕ → Bool) :
    (cells 8 8).countP marked = (square.filter fun cell => marked cell).card := by
  rw [← cells_toFinset, ← List.toFinset_filter,
    List.toFinset_card_of_nodup ((cells_nodup 8 8).filter _), List.countP_eq_length_filter]

theorem total_cells (value : ℕ × ℕ → ℕ) :
    total ((cells 8 8).map value) = ∑ cell ∈ square, value cell := by
  rw [total_eq_sum, ← cells_toFinset, List.sum_toFinset value (cells_nodup 8 8)]

/-- A gray buffer of the size that an algorithm reads. -/
structure IsGrid (algorithm : Algorithm) (g : Buffer) : Prop where
  size : g.size = algorithm.grid
  channels : g.channels = 1

namespace IsGrid

variable {algorithm : Algorithm} {g : Buffer}

theorem width (grid : IsGrid algorithm g) : g.size.width = algorithm.grid.width :=
  congrArg Size.width grid.size

theorem height (grid : IsGrid algorithm g) : g.size.height = 8 := by
  rw [grid.size]
  cases algorithm <;> rfl

end IsGrid

/-- What the bit of a cell stands for: that the cell is darker than its right neighbour, or that
it is at least as bright as the mean of the cells. -/
def Marked (algorithm : Algorithm) (g : Buffer) (cell : ℕ × ℕ) : Prop :=
  match algorithm with
  | .difference => g.firstChannel cell.1 cell.2 < g.firstChannel (cell.1 + 1) cell.2
  | .average =>
    ∑ c ∈ square, (g.firstChannel c.1 c.2).toNat ≤ 64 * (g.firstChannel cell.1 cell.2).toNat

instance (algorithm : Algorithm) (g : Buffer) (cell : ℕ × ℕ) :
    Decidable (Marked algorithm g cell) :=
  match algorithm with
  | .difference => inferInstanceAs (Decidable (_ < _))
  | .average => inferInstanceAs (Decidable (_ ≤ _))

theorem sum_of_level {g : Buffer} {v : UInt8} (level : ∀ x < 8, ∀ y < 8, g.firstChannel x y = v) :
    ∑ c ∈ square, (g.firstChannel c.1 c.2).toNat = 64 * v.toNat := by
  rw [← square_card, ← Finset.sum_const_nat (f := fun _ => v.toNat) fun _ _ => rfl]
  apply Finset.sum_congr rfl
  exact forall_mem_square.mpr fun x column y row => congrArg UInt8.toNat (level x column y row)

theorem data_eq_cells {g : Buffer} (channels : g.channels = 1) :
    g.data.toList =
      (cells g.size.width g.size.height).map fun cell => g.firstChannel cell.1 cell.2 := by
  have size : g.data.size = g.size.width * g.size.height := by
    rw [g.data_size, channels, Nat.mul_one]
    rfl
  rw [cells_eq, List.map_map]
  apply List.ext_getElem
  · simp [size]
  · intro i inside _
    have bound : i < g.data.size := by simpa using inside
    simp [Buffer.firstChannel, Buffer.byteAt, channels, Nat.div_add_mod', Array.getD, bound]

theorem bits_eq {algorithm : Algorithm} {g : Buffer} (grid : IsGrid algorithm g) :
    bits g algorithm = (cells 8 8).map fun cell => decide (Marked algorithm g cell) := by
  cases algorithm with
  | difference => rfl
  | average =>
      have values : g.data.toList =
          (cells 8 8).map fun cell => g.firstChannel cell.1 cell.2 := by
        rw [data_eq_cells grid.channels, grid.size]
        rfl
      have size : g.data.size = 64 := by
        rw [← Array.length_toList, values, List.length_map, cells_length]
      have bright : brightness g = ∑ c ∈ square, (g.firstChannel c.1 c.2).toNat := by
        rw [brightness, values, List.map_map, total_cells]
        rfl
      simp only [bits, averageBits, bright, size, values, List.map_map]
      apply List.map_congr_left
      intro cell _
      simp only [Function.comp_apply]
      rw [decide_eq_decide, Marked, Nat.mul_comm]

theorem bits_length {algorithm : Algorithm} {g : Buffer} (grid : IsGrid algorithm g) :
    (bits g algorithm).length = bitCount := by
  rw [bits_eq grid, List.length_map, cells_length]
  rfl

theorem bits_eq_replicate_iff {algorithm : Algorithm} {g : Buffer} (grid : IsGrid algorithm g)
    (b : Bool) :
    bits g algorithm = List.replicate bitCount b ↔
      ∀ cell ∈ square, decide (Marked algorithm g cell) = b := by
  rw [List.eq_replicate_iff, and_iff_right (bits_length grid), bits_eq grid, List.forall_mem_map]
  simp only [mem_cells_iff]

theorem bits_dvd {algorithm : Algorithm} {g : Buffer} (grid : IsGrid algorithm g) :
    4 ∣ (bits g algorithm).length := by
  rw [bits_length grid]
  decide

theorem bits_getElem {algorithm : Algorithm} {g : Buffer} (grid : IsGrid algorithm g) {x y : ℕ}
    (column : x < 8) (row : y < 8) :
    (bits g algorithm)[8 * y + x]? = some (decide (Marked algorithm g (x, y))) := by
  rw [bits_eq grid, List.getElem?_map, cells_getElem column row, Option.map_some]

theorem ofGrid_isGrid {algorithm : Algorithm} {g : Buffer} (grid : IsGrid algorithm g) :
    ofGrid g algorithm = .ok ⟨hexOfBits (bits g algorithm), algorithm⟩ := by
  rw [ofGrid, if_pos ⟨grid.size, grid.channels⟩]

theorem isGrid_of_ofGrid {algorithm : Algorithm} {g : Buffer} {h : Fingerprint}
    (made : ofGrid g algorithm = .ok h) : IsGrid algorithm g := by
  unfold ofGrid at made
  split at made
  case isTrue shape => exact ⟨shape.1, shape.2⟩
  case isFalse => cases made

theorem hamming_bits {algorithm : Algorithm} {g g' : Buffer} (grid : IsGrid algorithm g)
    (grid' : IsGrid algorithm g') :
    hamming (bits g algorithm) (bits g' algorithm) =
      (square.filter fun cell =>
        ¬ (Marked algorithm g cell ↔ Marked algorithm g' cell)).card := by
  rw [bits_eq grid, bits_eq grid', hamming_map, cells_countP]
  congr 1
  apply Finset.filter_congr
  intro cell _
  by_cases marked : Marked algorithm g cell <;>
    by_cases marked' : Marked algorithm g' cell <;> simp [marked, marked']

theorem compare_grids {algorithm : Algorithm} {g g' : Buffer} (grid : IsGrid algorithm g)
    (grid' : IsGrid algorithm g') :
    compare ⟨hexOfBits (bits g algorithm), algorithm⟩ ⟨hexOfBits (bits g' algorithm), algorithm⟩ =
      .ok (similarityOf (hamming (bits g algorithm) (bits g' algorithm)) bitCount) := by
  have length := bits_length grid
  rw [compare, if_pos rfl, compareDigits_hexOfBits, length]
  · rw [length, bits_length grid']
  · exact bits_dvd grid
  · intro empty
    rw [empty] at length
    cases length

theorem compare_ofGrid {algorithm : Algorithm} {g g' : Buffer} {h h' : Fingerprint}
    (made : ofGrid g algorithm = .ok h) (made' : ofGrid g' algorithm = .ok h') :
    ∃ result, compare h h' = .ok result := by
  have grid := isGrid_of_ofGrid made
  have grid' := isGrid_of_ofGrid made'
  rw [ofGrid_isGrid grid] at made
  rw [ofGrid_isGrid grid'] at made'
  cases made
  cases made'
  exact ⟨_, compare_grids grid grid'⟩

/-- A fingerprint in 16 lowercase digits, which are read back as the bits of a grid, row by row
from the left. -/
structure Encodes (algorithm : Algorithm) (g : Buffer) (h : Fingerprint) : Prop where
  algorithm_eq : h.algorithm = algorithm
  length : h.digits.length = 16
  lower : ∀ c ∈ h.digits.toList, c ∈ Hex.lowerDigits
  rowMajor : ∃ bits, bitsOf h.digits = .ok bits ∧ bits.length = bitCount ∧
    ∀ x < 8, ∀ y < 8, bits[8 * y + x]? = some (decide (Marked algorithm g (x, y)))

theorem encodes_grid {algorithm : Algorithm} {g : Buffer} (grid : IsGrid algorithm g) :
    Encodes algorithm g ⟨hexOfBits (bits g algorithm), algorithm⟩ := by
  have length := bits_length grid
  constructor
  · rfl
  · rw [hexOfBits_length, length]
    rfl
  · exact hexOfBits_lower (bits g algorithm)
  · exact ⟨bits g algorithm, bitsOf_hexOfBits_of_dvd (bits_dvd grid), length,
      fun x column y row => bits_getElem grid column row⟩

/-- Two grids of one algorithm have fingerprints, the distance of these is the number of cells
that only one of the grids marks, and the similarity is exactly the part of the other cells. -/
theorem grid_distance (algorithm : Algorithm) (g g' : Buffer) (grid : IsGrid algorithm g)
    (grid' : IsGrid algorithm g') :
    ∃ h h' result,
      ofGrid g algorithm = .ok h ∧ Encodes algorithm g h ∧
      ofGrid g' algorithm = .ok h' ∧ Encodes algorithm g' h' ∧
      compare h h' = .ok result ∧
      result.distance =
        (square.filter fun cell =>
          ¬ (Marked algorithm g cell ↔ Marked algorithm g' cell)).card ∧
      FloatValue.rational? (.ofFloat result.similarity) =
        some (1 - (result.distance : ℚ) / 64) := by
  have bound : hamming (bits g algorithm) (bits g' algorithm) ≤ bitCount := by
    rw [← bits_length grid]
    exact hamming_le _ _
  exact ⟨_, _, _, ofGrid_isGrid grid, encodes_grid grid, ofGrid_isGrid grid', encodes_grid grid',
    compare_grids grid grid', hamming_bits grid grid', similarityOf_exact bound⟩

theorem grid_distance_three_rows :
    ∃ h h' result,
      ofGrid (.gray ⟨9, 8⟩ fun x y => if y < 3 then UInt8.ofNat (20 * x) else 7) .difference =
        .ok h ∧
      ofGrid (.gray ⟨9, 8⟩ fun _ _ => 7) .difference = .ok h' ∧
      compare h h' = .ok result ∧ result.distance = 24 := by
  obtain ⟨h, h', result, made, -, made', -, compared, distance, -⟩ :=
    grid_distance .difference
      (.gray ⟨9, 8⟩ fun x y => if y < 3 then UInt8.ofNat (20 * x) else 7)
      (.gray ⟨9, 8⟩ fun _ _ => 7) ⟨rfl, rfl⟩ ⟨rfl, rfl⟩
  refine ⟨h, h', result, made, made', compared, ?_⟩
  rw [distance]
  decide +kernel

end ImageDigest.Fingerprint
