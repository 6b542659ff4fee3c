import ImageDigest.Proofs.Number.FloatQuotient
import ImageDigest.Proofs.Palette.Cluster

/-! No pass of the clustering makes it worse: pixels go to their nearest centroids, and no color is
closer to the pixels of a cluster than their rounded mean. -/

namespace ImageDigest.Palette

open Number

variable {pixels current : List Rgb}

section Mean

/-- A value that is the mean of a channel of the pixels, a half rounded up. As long as the pixels
can be counted in 32 bits, dividing and rounding floating-point numbers gives the same. -/
structure IsRoundedMean (channel : Rgb → UInt8) (pixels : List Rgb) (value : UInt8) : Prop where
  lower : (value.toNat : ℚ) - 1 / 2 ≤ (channelSum channel pixels : ℚ) / pixels.length
  upper : (channelSum channel pixels : ℚ) / pixels.length < value.toNat + 1 / 2
  float : pixels.length < 2 ^ 32 →
    (FloatValue.ofFloat
      (Float.ofNat (channelSum channel pixels) / Float.ofNat pixels.length)).clampedRound 255 =
        value.toNat

structure IsRoundedCenter (pixels : List Rgb) (c : Rgb) : Prop where
  red : IsRoundedMean Rgb.red pixels c.red
  green : IsRoundedMean Rgb.green pixels c.green
  blue : IsRoundedMean Rgb.blue pixels c.blue

theorem channelSum_le (channel : Rgb → UInt8) (pixels : List Rgb) :
    channelSum channel pixels ≤ 255 * pixels.length := by
  unfold channelSum
  induction pixels with
  | nil => exact Nat.le_refl 0
  | cons p rest ih =>
      have bound := (channel p).toNat_lt
      rw [List.map_cons, total_cons, List.length_cons]
      omega

/-- As long as the pixels can be counted in 32 bits, no rounding of floating-point numbers shows in
their mean. -/
theorem meanChannel_toNat (small : pixels.length < 2 ^ 32) (channel : Rgb → UInt8)
    (present : pixels ≠ []) :
    (meanChannel channel pixels.length pixels).toNat =
      halfUp (channelSum channel pixels) pixels.length := by
  have positive := List.length_pos_iff.mpr present
  have sum := channelSum_le channel pixels
  have word : (UInt64.ofNat (channelSum channel pixels)).toNat = channelSum channel pixels :=
    UInt64.toNat_ofNat_of_lt' (Nat.lt_of_le_of_lt sum (by norm_num; omega))
  have bound := halfUp_le positive sum
  rw [meanChannel, word, clampedRound_quotient positive small sum]
  exact UInt8.toNat_ofNat_of_lt' (Nat.lt_succ_of_le bound)

theorem meanChannel_isRoundedMean (small : pixels.length < 2 ^ 32) (channel : Rgb → UInt8)
    (present : pixels ≠ []) :
    IsRoundedMean channel pixels (meanChannel channel pixels.length pixels) := by
  have positive := List.length_pos_iff.mpr present
  have value := meanChannel_toNat small channel present
  obtain ⟨lower, upper⟩ := (halfUp_eq_iff_near positive).mp value.symm
  refine ⟨lower, upper, fun _ => ?_⟩
  rw [clampedRound_quotient positive small (channelSum_le channel pixels), value]

theorem mean_isRoundedCenter (small : pixels.length < 2 ^ 32) (present : pixels ≠ []) :
    IsRoundedCenter pixels (mean pixels) where
  red := meanChannel_isRoundedMean small Rgb.red present
  green := meanChannel_isRoundedMean small Rgb.green present
  blue := meanChannel_isRoundedMean small Rgb.blue present

def spread (channel : Rgb → UInt8) (value : UInt8) (pixels : List Rgb) : Nat :=
  total (pixels.map fun p => squaredGap value (channel p))

theorem squaredGap_cast (v w : UInt8) :
    (squaredGap v w : ℤ) = ((v.toNat : ℤ) - w.toNat) ^ 2 := by
  rw [squaredGap, Nat.cast_mul, Int.natCast_natAbs, abs_mul_abs_self, sq]

/-- The part of a spread that the value has a say in, and the part that it has not. -/
theorem spread_cast (channel : Rgb → UInt8) (value : UInt8) (pixels : List Rgb) :
    (spread channel value pixels : ℤ) =
      value.toNat * (value.toNat * pixels.length - 2 * channelSum channel pixels) +
        total (pixels.map fun p => (channel p).toNat ^ 2) := by
  unfold spread channelSum
  induction pixels with
  | nil => simp [total_nil]
  | cons p rest ih =>
      simp only [List.map_cons, total_cons, List.length_cons, Nat.cast_add, ih, squaredGap_cast]
      push_cast
      ring

theorem spread_mean_le (small : pixels.length < 2 ^ 32) (channel : Rgb → UInt8)
    (present : pixels ≠ []) (value : UInt8) :
    spread channel (meanChannel channel pixels.length pixels) pixels ≤
      spread channel value pixels := by
  have positive := List.length_pos_iff.mpr present
  obtain ⟨lower, upper⟩ :=
    (halfUp_eq_iff positive).mp (meanChannel_toNat small channel present).symm
  rw [← Nat.cast_le (α := ℤ), spread_cast, spread_cast]
  generalize (meanChannel channel pixels.length pixels).toNat = m at lower upper ⊢
  generalize value.toNat = v
  generalize channelSum channel pixels = S at lower upper ⊢
  generalize pixels.length = n at lower upper ⊢
  have lower : (2 * m * n : ℤ) ≤ 2 * S + n := by exact_mod_cast lower
  have upper : (2 * S + n : ℤ) ≤ 2 * (m + 1) * n := by exact_mod_cast upper.le
  have gain : (0 : ℤ) ≤ (v - m) * ((v + m) * n - 2 * S) := by
    rcases lt_trichotomy v m with below | rfl | above
    · have : (v : ℤ) + 1 ≤ m := by exact_mod_cast below
      exact mul_nonneg_of_nonpos_of_nonpos (by linarith) (by nlinarith)
    · rw [sub_self, zero_mul]
    · have : (m : ℤ) + 1 ≤ v := by exact_mod_cast above
      exact mul_nonneg (by linarith) (by nlinarith)
  linarith

def spreadAround (c : Rgb) (pixels : List Rgb) : Nat := total (pixels.map (distance c))

theorem spreadAround_eq (c : Rgb) (pixels : List Rgb) :
    spreadAround c pixels =
      spread Rgb.red c.red pixels + spread Rgb.green c.green pixels +
        spread Rgb.blue c.blue pixels := by
  unfold spreadAround spread
  induction pixels with
  | nil => rfl
  | cons p rest ih =>
      simp only [List.map_cons, total_cons, ih, distance]
      omega

theorem spreadAround_moved_le (small : pixels.length < 2 ^ 32) (c : Rgb) :
    spreadAround (moved c pixels) pixels ≤ spreadAround c pixels := by
  by_cases present : pixels = []
  · rw [present]
    exact Nat.le_refl 0
  · rw [moved_of_present small c present, spreadAround_eq, spreadAround_eq]
    have red := spread_mean_le small Rgb.red present c.red
    have green := spread_mean_le small Rgb.green present c.green
    have blue := spread_mean_le small Rgb.blue present c.blue
    exact Nat.add_le_add (Nat.add_le_add red green) blue

end Mean

section Passes

/-- The squared distances from the pixels to the closest of the centroids, summed. -/
def cost (centroids pixels : List Rgb) : Nat := total (pixels.map (leastDistance centroids))

theorem distance_nearest (present : current ≠ []) (p : Rgb) :
    distance (current.getD (nearest current p) default) p = leastDistance current p := by
  have inside := nearest_lt present p
  rw [List.getD_eq_getElem _ _ inside]
  exact of_decide_eq_true (List.findIdx_getElem (w := inside))

theorem pass_getElem? (pixels current : List Rgb) (i : Nat) :
    (pass pixels current)[i]? =
      current[i]?.map fun c => moved c (members (assign current pixels) i) := by
  rw [pass, clusters_eq, List.map_map, List.getElem?_map, List.getElem?_zipIdx, Option.map_map]
  simp only [Function.comp_def, Nat.zero_add]

theorem pass_getD {i : Nat} (inside : i < current.length) :
    (pass pixels current).getD i default =
      moved (current.getD i default) (members (assign current pixels) i) := by
  rw [List.getD_eq_getElem?_getD, List.getD_eq_getElem?_getD, pass_getElem?,
    List.getElem?_eq_getElem inside]
  rfl

theorem sum_spreadAround (present : current ≠ []) (pixels centroids : List Rgb) :
    ∑ i ∈ Finset.range current.length,
        spreadAround (centroids.getD i default) (members (assign current pixels) i) =
      total (pixels.map fun p => distance (centroids.getD (nearest current p) default) p) := by
  have shared := total_members (fun i => distance (centroids.getD i default))
    (assign current pixels) current.length (assign_lt present)
  rw [assign, List.map_map] at shared
  exact shared

theorem cost_eq_sum (present : current ≠ []) (pixels : List Rgb) :
    cost current pixels =
      ∑ i ∈ Finset.range current.length,
        spreadAround (current.getD i default) (members (assign current pixels) i) := by
  rw [sum_spreadAround present, cost, funext (distance_nearest present)]

/-- Once the centroids have moved, the closest of them is no farther than the one that the pixel was
assigned to before. -/
theorem cost_pass_le_sum (present : current ≠ []) (pixels : List Rgb) :
    cost (pass pixels current) pixels ≤
      ∑ i ∈ Finset.range current.length,
        spreadAround ((pass pixels current).getD i default)
          (members (assign current pixels) i) := by
  rw [sum_spreadAround present]
  apply total_map_le
  intro p _
  have inside : nearest current p < (pass pixels current).length := by
    rw [pass_length]
    exact nearest_lt present p
  rw [List.getD_eq_getElem _ _ inside]
  exact leastDistance_le (List.getElem_mem inside) p

theorem spreadAround_pass_le (small : pixels.length < 2 ^ 32) {i : Nat}
    (inside : i < current.length) :
    spreadAround ((pass pixels current).getD i default) (members (assign current pixels) i) ≤
      spreadAround (current.getD i default) (members (assign current pixels) i) := by
  rw [pass_getD inside]
  exact spreadAround_moved_le (members_assign_lt small i) _

/-- One pass first moves the centroids that the pixels are assigned to, and then assigns the pixels
anew. Neither makes a sum of distances larger. -/
theorem cost_pass_le (small : pixels.length < 2 ^ 32) (current : List Rgb) :
    cost (pass pixels current) pixels ≤ cost current pixels := by
  by_cases present : current = []
  · rw [present]
    exact Nat.le_refl _
  calc
    cost (pass pixels current) pixels
        ≤ ∑ i ∈ Finset.range current.length,
            spreadAround ((pass pixels current).getD i default)
              (members (assign current pixels) i) := cost_pass_le_sum present pixels
    _ ≤ ∑ i ∈ Finset.range current.length,
          spreadAround (current.getD i default) (members (assign current pixels) i) :=
      Finset.sum_le_sum fun i member => spreadAround_pass_le small (Finset.mem_range.mp member)
    _ = cost current pixels := (cost_eq_sum present pixels).symm

theorem cost_centroids_le (small : pixels.length < 2 ^ 32) (k : Nat) {i j : Nat} (later : i ≤ j) :
    cost (centroids pixels k j) pixels ≤ cost (centroids pixels k i) pixels := by
  induction later with
  | refl => exact Nat.le_refl _
  | @step j _ ih =>
      rw [centroids_succ]
      exact (cost_pass_le small _).trans ih

/-- No pass over pixels that 32 bits can count makes the sum of the squared distances larger, so
more passes never leave it larger than fewer do. A pass moves a centroid to the mean of its pixels,
a half rounded up, and keeps one that has no pixels where it is. -/
theorem passes_descend {pixels : List Rgb} (small : pixels.length < 2 ^ 32) :
    (∀ current, cost (pass pixels current) pixels ≤ cost current pixels) ∧
    (∀ k i, (centroids pixels k i).length = min k pixels.length ∧
      ∀ j, i ≤ j → cost (centroids pixels k j) pixels ≤ cost (centroids pixels k i) pixels) ∧
    (∀ current i c, current[i]? = some c →
      (members (assign current pixels) i = [] → (pass pixels current)[i]? = some c) ∧
      (members (assign current pixels) i ≠ [] →
        ∃ next, (pass pixels current)[i]? = some next ∧
          IsRoundedCenter (members (assign current pixels) i) next)) := by
  refine ⟨cost_pass_le small, ?_, ?_⟩
  · intro k i
    exact ⟨centroids_length pixels k i, fun j later => cost_centroids_le small k later⟩
  · intro current i c found
    rw [pass_getElem?, found, Option.map_some]
    constructor
    · intro none
      rw [none, moved_nil]
    · intro own
      have few : (members (assign current pixels) i).length < 2 ^ 32 := members_assign_lt small i
      rw [moved_of_present few c own]
      exact ⟨_, rfl, mean_isRoundedCenter few own⟩

theorem passes_descend_four :
    cost (centroids [⟨0, 0, 0⟩, ⟨10, 0, 0⟩, ⟨30, 0, 0⟩, ⟨31, 0, 0⟩] 2 3)
        [⟨0, 0, 0⟩, ⟨10, 0, 0⟩, ⟨30, 0, 0⟩, ⟨31, 0, 0⟩] ≤
      cost [⟨0, 0, 0⟩, ⟨30, 0, 0⟩] [⟨0, 0, 0⟩, ⟨10, 0, 0⟩, ⟨30, 0, 0⟩, ⟨31, 0, 0⟩] ∧
    IsRoundedCenter [⟨30, 0, 0⟩, ⟨31, 0, 0⟩] ⟨31, 0, 0⟩ := by
  have small : [(⟨0, 0, 0⟩ : Rgb), ⟨10, 0, 0⟩, ⟨30, 0, 0⟩, ⟨31, 0, 0⟩].length < 2 ^ 32 := by decide
  obtain ⟨-, passes, moves⟩ := passes_descend small
  refine ⟨(passes 2 0).2 3 (by decide), ?_⟩
  obtain ⟨next, found, center⟩ := (moves [⟨0, 0, 0⟩, ⟨30, 0, 0⟩] 1 ⟨30, 0, 0⟩ rfl).2 (by decide)
  have same : (pass [⟨0, 0, 0⟩, ⟨10, 0, 0⟩, ⟨30, 0, 0⟩, ⟨31, 0, 0⟩]
      [⟨0, 0, 0⟩, ⟨30, 0, 0⟩])[1]? = some ⟨31, 0, 0⟩ := by decide +kernel
  cases found.symm.trans same
  exact center

/-- One pixel more than 32 bits can count. -/
def uncountable : List Rgb := List.replicate (2 ^ 32 + 1) ⟨1, 1, 1⟩

theorem meanChannel_uncountable (channel : Rgb → UInt8) (one : channel ⟨1, 1, 1⟩ = 1) :
    meanChannel channel 1 uncountable = 255 := by
  have sum : channelSum channel uncountable = 2 ^ 32 + 1 := by
    rw [channelSum, uncountable, List.map_replicate, total_replicate, one]
    rfl
  rw [meanChannel, sum]
  decide +kernel

theorem cost_replicate (c : Rgb) (centroids : List Rgb) (n : Nat) :
    cost centroids (List.replicate n c) = n * leastDistance centroids c := by
  rw [cost, List.map_replicate, total_replicate]

/-- Counted as one, the pixels are divided by one, and the pass moves their centroid from their own
color to white. -/
theorem passes_ascend :
    cost (centroids uncountable 1 0) uncountable = 0 ∧
    centroids uncountable 1 1 = [⟨255, 255, 255⟩] ∧
    cost (centroids uncountable 1 0) uncountable <
      cost (centroids uncountable 1 1) uncountable := by
  have start : centroids uncountable 1 0 = [⟨1, 1, 1⟩] := seeds_replicate _ _ _
  have count : counter uncountable.length = 1 := by
    rw [uncountable, List.length_replicate]
    decide
  have next : centroids uncountable 1 1 = [⟨255, 255, 255⟩] := by
    rw [centroids_succ, start, pass_singleton, moved_of_counted count Nat.one_pos, meanOver,
      meanChannel_uncountable _ rfl, meanChannel_uncountable _ rfl, meanChannel_uncountable _ rfl]
  have own : leastDistance [⟨1, 1, 1⟩] ⟨1, 1, 1⟩ = 0 := by decide
  have white : leastDistance [⟨255, 255, 255⟩] ⟨1, 1, 1⟩ = 193548 := by decide
  rw [start, next, uncountable, cost_replicate, cost_replicate, own, white]
  exact ⟨Nat.mul_zero _, rfl, by decide⟩

end Passes

end ImageDigest.Palette
