import ImageDigest.Proofs.Sharpness
import Mathlib.Algebra.BigOperators.Group.Finset.Sigma
import Mathlib.Logic.Relation
import Mathlib.Tactic.Ring

/-! Changes of a buffer that its sharpness does not show: turning it over, inverting or shifting its
tone, and whatever happens to the other channels. -/

namespace ImageDigest

namespace Buffer

variable {a b : Buffer} {plane : ℕ → ℕ → ℤ} {x y w h : ℕ}

section Cross

theorem cross_mirrored (left : 1 ≤ x) (right : x + 1 < w) :
    cross (fun x y => plane (w - 1 - x) y) x y = cross plane (w - 1 - x) y := by
  have before : w - 1 - (x - 1) = w - 1 - x + 1 := by omega
  have behind : w - 1 - (x + 1) = w - 1 - x - 1 := by omega
  simp only [cross, before, behind]
  ring

theorem cross_flipped (top : 1 ≤ y) (bottom : y + 1 < h) :
    cross (fun x y => plane x (h - 1 - y)) x y = cross plane x (h - 1 - y) := by
  have above : h - 1 - (y - 1) = h - 1 - y + 1 := by omega
  have below : h - 1 - (y + 1) = h - 1 - y - 1 := by omega
  simp only [cross, above, below]
  ring

theorem cross_transposed (plane : ℕ → ℕ → ℤ) (x y : ℕ) :
    cross (fun x y => plane y x) x y = cross plane y x := by
  simp only [cross]
  ring

theorem cross_inverted (plane : ℕ → ℕ → ℤ) (k : ℤ) (x y : ℕ) :
    cross (fun x y => k - plane x y) x y = -cross plane x y := by
  simp only [cross]
  ring

theorem cross_shifted (plane : ℕ → ℕ → ℤ) (k : ℤ) (x y : ℕ) :
    cross (fun x y => plane x y + k) x y = cross plane x y := by
  simp only [cross]
  ring

end Cross

/-- One change of the buffer `a`: it is mirrored, turned upside down or over its diagonal, its first
channel is inverted, or a constant is added to it that leaves all values in range, or it is left
alone. The other channels do not matter, nor how many there are. -/
inductive IsVariant (a : Buffer) : Buffer → Prop where
  | mirrored {b : Buffer} (shows : b.Shows a.size fun x y => a.sample (a.size.width - 1 - x) y) :
      IsVariant a b
  | flipped {b : Buffer} (shows : b.Shows a.size fun x y => a.sample x (a.size.height - 1 - y)) :
      IsVariant a b
  | transposed {b : Buffer} (shows : b.Shows a.size.transpose fun x y => a.sample y x) :
      IsVariant a b
  | inverted {b : Buffer} (shows : b.Shows a.size fun x y => 255 - a.sample x y) : IsVariant a b
  | shifted {b : Buffer} (k : ℤ) (shows : b.Shows a.size fun x y => a.sample x y + k) :
      IsVariant a b
  | kept {b : Buffer} (shows : b.Shows a.size a.sample) : IsVariant a b

section Sum

/-- Inner pixels that trade places in pairs, with Laplacians of the same size. -/
theorem squaredLaplacianSum_eq_of_turn (turn : ℕ × ℕ → ℕ × ℕ)
    (there : ∀ c ∈ b.interior, turn c ∈ a.interior ∧ turn (turn c) = c)
    (back : ∀ c ∈ a.interior, turn c ∈ b.interior ∧ turn (turn c) = c)
    (same : ∀ c ∈ b.interior,
      (b.laplacian c.1 c.2).natAbs = (a.laplacian (turn c).1 (turn c).2).natAbs) :
    b.squaredLaplacianSum = a.squaredLaplacianSum := by
  rw [squaredLaplacianSum_eq_sum, squaredLaplacianSum_eq_sum]
  simp only [← List.mem_toFinset] at there back same
  apply Finset.sum_nbij' turn turn (fun c member => (there c member).1)
    (fun c member => (back c member).1) (fun c member => (there c member).2)
    fun c member => (back c member).2
  intro c member
  simp only [squaredLaplacian, same c member]

theorem squaredLaplacianSum_eq_of_size (turn : ℕ × ℕ → ℕ × ℕ) (size : b.size = a.size)
    (turned : ∀ c ∈ a.interior, turn c ∈ a.interior ∧ turn (turn c) = c)
    (same : ∀ c ∈ b.interior,
      (b.laplacian c.1 c.2).natAbs = (a.laplacian (turn c).1 (turn c).2).natAbs) :
    b.squaredLaplacianSum = a.squaredLaplacianSum := by
  have inside := interior_congr size
  exact squaredLaplacianSum_eq_of_turn turn (inside ▸ turned) (inside ▸ turned) same

theorem squaredLaplacianSum_mirrored
    (shows : b.Shows a.size fun x y => a.sample (a.size.width - 1 - x) y) :
    b.squaredLaplacianSum = a.squaredLaplacianSum := by
  refine squaredLaplacianSum_eq_of_size (fun c => (a.size.width - 1 - c.1, c.2)) shows.size_eq
    ?turned ?same
  case turned =>
    intro c member
    have inside := (a.mem_interior c.1 c.2).mp member
    rw [mem_interior]
    exact ⟨by omega, Prod.ext (by omega) rfl⟩
  case same =>
    intro c member
    rw [shows.laplacian member]
    rw [mem_interior, shows.size_eq] at member
    rw [cross_mirrored member.1.1 member.1.2, laplacian_eq_cross]

theorem squaredLaplacianSum_flipped
    (shows : b.Shows a.size fun x y => a.sample x (a.size.height - 1 - y)) :
    b.squaredLaplacianSum = a.squaredLaplacianSum := by
  refine squaredLaplacianSum_eq_of_size (fun c => (c.1, a.size.height - 1 - c.2)) shows.size_eq
    ?turned ?same
  case turned =>
    intro c member
    have inside := (a.mem_interior c.1 c.2).mp member
    rw [mem_interior]
    exact ⟨by omega, Prod.ext rfl (by omega)⟩
  case same =>
    intro c member
    rw [shows.laplacian member]
    rw [mem_interior, shows.size_eq] at member
    rw [cross_flipped member.2.1 member.2.2, laplacian_eq_cross]

theorem squaredLaplacianSum_toned (shows : b.Shows a.size plane)
    (same : ∀ x y, (cross plane x y).natAbs = (cross a.sample x y).natAbs) :
    b.squaredLaplacianSum = a.squaredLaplacianSum := by
  refine squaredLaplacianSum_eq_of_size id shows.size_eq (fun c member => ⟨member, rfl⟩) ?_
  intro c member
  rw [shows.laplacian member]
  exact same c.1 c.2

theorem squaredLaplacianSum_transposed
    (shows : b.Shows a.size.transpose fun x y => a.sample y x) :
    b.squaredLaplacianSum = a.squaredLaplacianSum := by
  have swapped (x y : ℕ) : (x, y) ∈ b.interior ↔ (y, x) ∈ a.interior := by
    rw [mem_interior, mem_interior, shows.size_eq]
    exact and_comm
  refine squaredLaplacianSum_eq_of_turn Prod.swap
    (fun c member => ⟨(swapped c.1 c.2).mp member, c.swap_swap⟩)
    (fun c member => ⟨(swapped c.2 c.1).mpr member, c.swap_swap⟩) fun c member => ?_
  rw [shows.laplacian member, cross_transposed, laplacian_eq_cross]
  rfl

end Sum

theorem IsVariant.squaredLaplacianSum (variant : IsVariant a b) :
    b.squaredLaplacianSum = a.squaredLaplacianSum := by
  cases variant with
  | mirrored shows => exact squaredLaplacianSum_mirrored shows
  | flipped shows => exact squaredLaplacianSum_flipped shows
  | transposed shows => exact squaredLaplacianSum_transposed shows
  | inverted shows =>
      refine squaredLaplacianSum_toned shows fun x y => ?_
      rw [cross_inverted, Int.natAbs_neg]
  | shifted k shows =>
      refine squaredLaplacianSum_toned shows fun x y => ?_
      rw [cross_shifted]
  | kept shows => exact squaredLaplacianSum_toned shows fun x y => rfl

theorem IsVariant.size_cases (variant : IsVariant a b) :
    b.size = a.size ∨ b.size = a.size.transpose := by
  cases variant with
  | transposed shows => exact .inr shows.size_eq
  | mirrored shows => exact .inl shows.size_eq
  | flipped shows => exact .inl shows.size_eq
  | inverted shows => exact .inl shows.size_eq
  | shifted k shows => exact .inl shows.size_eq
  | kept shows => exact .inl shows.size_eq

theorem IsVariant.pixelCount (variant : IsVariant a b) : b.pixelCount = a.pixelCount := by
  rw [Buffer.pixelCount, Buffer.pixelCount]
  rcases variant.size_cases with same | turned
  · rw [same]
  · rw [turned]
    exact Nat.mul_comm _ _

theorem IsVariant.laplacianVariance (variant : IsVariant a b) :
    b.laplacianVariance = a.laplacianVariance := by
  rw [Buffer.laplacianVariance, Buffer.laplacianVariance, variant.squaredLaplacianSum]
  rcases variant.size_cases with same | turned
  · rw [same]
  · simp only [turned, Size.transpose, or_comm, Nat.mul_comm]

section Copies

theorem rearranged_shows (b : Buffer) (size : Size) (source : ℕ → ℕ → ℕ × ℕ) :
    (b.rearranged size source).Shows size fun x y => b.sample (source x y).1 (source x y).2 :=
  ⟨rfl, fun _ column _ row => sample_cast (b.firstChannel_rearranged source column row)⟩

def transposed (b : Buffer) : Buffer := b.rearranged b.size.transpose fun x y => (y, x)

theorem mirrored_isVariant (b : Buffer) : b.IsVariant b.mirrored :=
  .mirrored (b.rearranged_shows _ _)

theorem flipped_isVariant (b : Buffer) : b.IsVariant b.flipped :=
  .flipped (b.rearranged_shows _ _)

theorem transposed_isVariant (b : Buffer) : b.IsVariant b.transposed :=
  .transposed (b.rearranged_shows _ _)

theorem mapBytes_shows {f : UInt8 → UInt8} (tone : ℤ → ℤ)
    (toned : ∀ v ∈ b.data, ((f v).toNat : ℤ) = tone v.toNat) :
    (b.mapBytes f).Shows b.size fun x y => tone (b.sample x y) :=
  ⟨rfl, fun _ column _ row =>
    (sample_cast (firstChannel_mapBytes f column row)).trans
      (toned _ (firstChannel_mem column row))⟩

theorem inverted_isVariant (b : Buffer) : b.IsVariant (b.mapBytes fun v => 255 - v) := by
  refine .inverted (mapBytes_shows (255 - ·) fun v _ => ?_)
  have bound : v.toNat ≤ 255 := Nat.le_of_lt_succ v.toNat_lt
  rw [UInt8.toNat_sub_of_le _ _ (UInt8.le_iff_toNat_le.mpr bound)]
  exact Nat.cast_sub bound

theorem shifted_isVariant {f : UInt8 → UInt8} {k : ℤ}
    (shifted : ∀ v ∈ b.data, ((f v).toNat : ℤ) = v.toNat + k) : b.IsVariant (b.mapBytes f) :=
  .shifted k (mapBytes_shows (· + k) shifted)

theorem gray_isVariant (b : Buffer) : b.IsVariant (.gray b.size b.firstChannel) :=
  .kept ⟨rfl, fun _ column _ row => sample_cast (firstChannel_tabulate _ _ _ column row)⟩

end Copies

end Buffer

/-- Neither the variance nor the score under any settings changes in any number of steps. -/
theorem Score.ofBuffer_of_variants {a b : Buffer}
    (variants : Relation.ReflTransGen Buffer.IsVariant a b) :
    b.laplacianVariance = a.laplacianVariance ∧
      ∀ settings, ofBuffer settings b = ofBuffer settings a := by
  induction variants with
  | refl => exact ⟨rfl, fun _ => rfl⟩
  | tail _ variant ih =>
      refine ⟨variant.laplacianVariance.trans ih.1, fun settings => ?_⟩
      rw [← ih.2, ofBuffer, ofBuffer, ofSamples, ofSamples, variant.pixelCount,
        variant.laplacianVariance]

def cubes : Buffer :=
  .tabulate ⟨4, 3⟩ 2 (fun x y k => if k = 0 then .ofNat (x * x * x + 3 * y) else 9) (by decide)
    (by decide)

theorem Score.ofBuffer_of_variants_cubes :
    cubes.transposed.mirrored.laplacianVariance = cubes.laplacianVariance ∧
    (Buffer.gray cubes.size cubes.firstChannel).flipped.laplacianVariance =
      cubes.laplacianVariance ∧
    ((cubes.mapBytes (· + 100)).mapBytes fun v => 255 - v).laplacianVariance =
      cubes.laplacianVariance ∧
    cubes.laplacianVariance = some 90 := by
  have turned := Relation.ReflTransGen.single cubes.transposed_isVariant
  have dropped := Relation.ReflTransGen.single cubes.gray_isVariant
  have brighter : cubes.IsVariant (cubes.mapBytes (· + 100)) :=
    Buffer.shifted_isVariant (k := 100) (by decide +kernel)
  exact ⟨(ofBuffer_of_variants (turned.tail (Buffer.mirrored_isVariant _))).1,
    (ofBuffer_of_variants (dropped.tail (Buffer.flipped_isVariant _))).1,
    (ofBuffer_of_variants ((Relation.ReflTransGen.single brighter).tail
      (Buffer.inverted_isVariant _))).1, rfl⟩

end ImageDigest
