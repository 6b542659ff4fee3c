import ImageDigest.Palette.Cluster
import ImageDigest.Proofs.Palette.Tally
import Mathlib.Algebra.BigOperators.Group.Finset.Piecewise

namespace ImageDigest.Palette

open Number

variable {pixels current : List Rgb} {k : Nat}

theorem leastDistance_le {centroids : List Rgb} {c : Rgb} (member : c ∈ centroids) (p : Rgb) :
    leastDistance centroids p ≤ distance c p := by
  have listed : distance c p ∈ centroids.map fun c => distance c p := List.mem_map_of_mem member
  cases least : (centroids.map fun c => distance c p).min? with
  | none =>
      rw [List.min?_eq_none_iff] at least
      exact absurd (least ▸ listed) List.not_mem_nil
  | some d =>
      rw [leastDistance, least, Option.getD_some]
      exact (List.min?_eq_some_iff.mp least).2 _ listed

theorem nearest_lt (present : current ≠ []) (pixel : Rgb) :
    nearest current pixel < current.length := by
  apply List.findIdx_lt_length_of_exists
  cases least : (current.map fun c => distance c pixel).min? with
  | none =>
      rw [List.min?_eq_none_iff, List.map_eq_nil_iff] at least
      exact absurd least present
  | some d =>
      -- one of the centroids is at the least distance, so the search stops inside the list
      rcases List.mem_map.mp (List.min?_mem least) with ⟨c, member, reached⟩
      refine ⟨c, member, decide_eq_true ?_⟩
      rw [leastDistance, least, Option.getD_some, reached]

theorem total_members_cons (weight : Rgb → Nat) (a : Nat × Rgb) (rest : List (Nat × Rgb))
    (i : Nat) :
    total ((members (a :: rest) i).map weight) =
      (if a.1 = i then weight a.2 else 0) + total ((members rest i).map weight) := by
  by_cases own : a.1 = i
  · simp only [members, List.filter_cons, own, decide_true, if_true, List.map_cons, total_cons]
  · simp only [members, List.filter_cons, own, decide_false, Bool.false_eq_true, if_false,
      Nat.zero_add]

/-- The clusters share out what is assigned to positions below their number. -/
theorem total_members (weight : Nat → Rgb → Nat) (assigned : List (Nat × Rgb)) (count : Nat)
    (below : ∀ a ∈ assigned, a.1 < count) :
    ∑ i ∈ Finset.range count, total ((members assigned i).map (weight i)) =
      total (assigned.map fun a => weight a.1 a.2) := by
  induction assigned with
  | nil => exact Finset.sum_const_zero
  | cons a rest ih =>
      have inside : a.1 ∈ Finset.range count :=
        Finset.mem_range.mpr (below a List.mem_cons_self)
      have behind := ih fun b member => below b (List.mem_cons_of_mem a member)
      calc
        ∑ i ∈ Finset.range count, total ((members (a :: rest) i).map (weight i))
            = ∑ i ∈ Finset.range count,
                ((if a.1 = i then weight i a.2 else 0) +
                  total ((members rest i).map (weight i))) :=
          Finset.sum_congr rfl fun i _ => total_members_cons (weight i) a rest i
        _ = (∑ i ∈ Finset.range count, if a.1 = i then weight i a.2 else 0) +
              total (rest.map fun a => weight a.1 a.2) := by
          rw [Finset.sum_add_distrib, behind]
        _ = weight a.1 a.2 + total (rest.map fun a => weight a.1 a.2) := by
          rw [Finset.sum_ite_eq, if_pos inside]
        _ = total ((a :: rest).map fun a => weight a.1 a.2) := by
          rw [List.map_cons, total_cons]

theorem sum_members (assigned : List (Nat × Rgb)) (count : Nat)
    (below : ∀ a ∈ assigned, a.1 < count) :
    ∑ i ∈ Finset.range count, (members assigned i).length = assigned.length := by
  have counted := total_members (fun _ _ => 1) assigned count below
  simpa only [List.map_const', total_replicate, Nat.mul_one] using counted

theorem assign_lt (present : current ≠ []) : ∀ a ∈ assign current pixels, a.1 < current.length := by
  intro a member
  rcases List.mem_map.mp member with ⟨pixel, -, rfl⟩
  exact nearest_lt present pixel

theorem members_assign_length_le (pixels current : List Rgb) (i : Nat) :
    (members (assign current pixels) i).length ≤ pixels.length := by
  calc
    (members (assign current pixels) i).length ≤ (assign current pixels).length := by
      rw [members, List.length_map]
      exact List.length_filter_le _ _
    _ = pixels.length := List.length_map _

theorem members_assign_lt (small : pixels.length < 2 ^ 32) (i : Nat) :
    (members (assign current pixels) i).length < 2 ^ 32 :=
  (members_assign_length_le pixels current i).trans_lt small

theorem moved_nil (c : Rgb) : moved c [] = c := rfl

/-- A count that starts anew at 0 leaves a centroid where it is, like one that has no pixels. -/
theorem moved_of_uncounted (none : counter pixels.length = 0) (c : Rgb) : moved c pixels = c :=
  if_pos none

theorem moved_of_counted {n : Nat} (count : counter pixels.length = n) (positive : 0 < n)
    (c : Rgb) : moved c pixels = meanOver n pixels := by
  rw [moved, count]
  exact if_neg positive.ne'

theorem moved_of_present (small : pixels.length < 2 ^ 32) (c : Rgb) (present : pixels ≠ []) :
    moved c pixels = mean pixels :=
  moved_of_counted (counter_of_lt small) (List.length_pos_iff.mpr present) c

theorem clusters_eq (pixels current : List Rgb) :
    clusters pixels current =
      current.zipIdx.map fun t =>
        (moved t.1 (members (assign current pixels) t.2),
          counter (members (assign current pixels) t.2).length) := rfl

theorem clusters_length (pixels current : List Rgb) :
    (clusters pixels current).length = current.length := by
  rw [clusters, List.length_map, List.length_zipIdx]

theorem clusters_counts (pixels current : List Rgb) :
    (clusters pixels current).map Prod.snd =
      (List.range current.length).map fun i =>
        counter (members (assign current pixels) i).length := by
  have positions : current.zipIdx.map Prod.snd = List.range current.length := by
    rw [List.zipIdx_map_snd, List.range_eq_range']
  rw [← positions, clusters, List.map_map, List.map_map]
  rfl

theorem total_members_assign (present : current ≠ []) (pixels : List Rgb) :
    total ((List.range current.length).map fun i =>
      (members (assign current pixels) i).length) = pixels.length := by
  have positions : (List.range current.length).toFinset = Finset.range current.length := by
    ext i
    rw [List.mem_toFinset, List.mem_range, Finset.mem_range]
  rw [total_eq_sum, ← List.sum_toFinset _ List.nodup_range, positions,
    sum_members _ _ (assign_lt present), assign, List.length_map]

theorem total_clusters_le (present : current ≠ []) (pixels : List Rgb) :
    total ((clusters pixels current).map Prod.snd) ≤ pixels.length := by
  rw [clusters_counts, ← total_members_assign present pixels]
  exact total_map_le fun i _ => counter_le _

theorem total_clusters (small : pixels.length < 2 ^ 32) (present : current ≠ []) :
    total ((clusters pixels current).map Prod.snd) = pixels.length := by
  have exactly (i : Nat) : counter (members (assign current pixels) i).length =
      (members (assign current pixels) i).length := counter_of_lt (members_assign_lt small i)
  simp only [clusters_counts, exactly]
  exact total_members_assign present pixels

theorem pass_length (pixels current : List Rgb) :
    (pass pixels current).length = current.length := by
  rw [pass, List.length_map, clusters_length]

theorem seedPositions_lt {n i : Nat} (listed : i ∈ seedPositions n k) : i < n := by
  rcases List.mem_map.mp listed with ⟨j, member, rfl⟩
  have inside : j < min k n := List.mem_range.mp member
  apply Nat.div_lt_of_lt_mul
  calc
    (UInt64.ofNat (j * n)).toNat ≤ j * n := by
      rw [UInt64.toNat_ofNat']
      exact Nat.mod_le _ _
    _ < min k n * n := Nat.mul_lt_mul_of_pos_right inside (by omega)

theorem seedPositions_eq {n : Nat} (small : n < 2 ^ 32) (k : Nat) :
    seedPositions n k = (List.range (min k n)).map fun i => i * n / min k n := by
  apply List.map_congr_left
  intro i member
  have inside : i < min k n := List.mem_range.mp member
  have short : i < 2 ^ 32 := by omega
  have fits : i * n < 2 ^ 32 * 2 ^ 32 := Nat.mul_lt_mul'' short small
  rw [UInt64.toNat_ofNat_of_lt' fits]

theorem seedPosition_lt {i : Nat} (inside : i < min k pixels.length) :
    i * pixels.length / min k pixels.length < pixels.length := by
  apply Nat.div_lt_of_lt_mul
  exact Nat.mul_lt_mul_of_pos_right inside (by omega)

theorem seeds_length (pixels : List Rgb) (k : Nat) :
    (seeds pixels k).length = min k pixels.length := by
  simp only [seeds, seedPositions, List.length_map, List.length_range, List.size_toArray]

theorem seeds_sampled (pixels : List Rgb) (k : Nat) : ∀ c ∈ seeds pixels k, c ∈ pixels := by
  intro c seeded
  rcases List.mem_map.mp seeded with ⟨i, position, rfl⟩
  have inside := seedPositions_lt position
  rw [List.size_toArray] at inside
  simp [Array.getD, inside]

theorem seeds_replicate (c : Rgb) (n k : Nat) :
    seeds (List.replicate n c) k = List.replicate (min k n) c := by
  rw [List.eq_replicate_iff]
  constructor
  · rw [seeds_length, List.length_replicate]
  · intro d seeded
    exact List.eq_of_mem_replicate (seeds_sampled _ k d seeded)

/-- No pass adds or drops a centroid, empty clusters included. -/
theorem centroids_length (pixels : List Rgb) (k passes : Nat) :
    (centroids pixels k passes).length = min k pixels.length := by
  induction passes with
  | zero => rw [centroids_zero, seeds_length]
  | succ passes ih => rw [centroids_succ, pass_length, ih]

theorem byClusters_nil (k iterations : Nat) : byClusters [] k iterations = [] := by
  cases iterations with
  | zero => rfl
  | succ passes =>
      have none : centroids [] k passes = [] := by
        apply List.eq_nil_of_length_eq_zero
        rw [centroids_length, List.length_nil, Nat.min_zero]
      rw [byClusters, none]
      exact rank_nil _

theorem byClusters_ranked (pixels : List Rgb) (k iterations : Nat) :
    Ranked (byClusters pixels k iterations) := by
  cases iterations with
  | zero => exact ⟨fun c member => absurd member List.not_mem_nil, .nil⟩
  | succ passes => exact rank_ranked _ _

theorem byClusters_length_le (pixels : List Rgb) (k iterations : Nat) :
    (byClusters pixels k iterations).length ≤ k := by
  cases iterations with
  | zero => exact Nat.zero_le k
  | succ passes =>
      calc
        (byClusters pixels k (passes + 1)).length
            = (ranked (clusters pixels (centroids pixels k passes))).length := rank_length _ _
        _ ≤ (clusters pixels (centroids pixels k passes)).length := ranked_length_le _
        _ = min k pixels.length := by rw [clusters_length, centroids_length]
        _ ≤ k := Nat.min_le_left _ _

theorem byClusters_total_le (pixels : List Rgb) (k iterations : Nat) :
    total ((byClusters pixels k iterations).map Color.count) ≤ pixels.length := by
  cases iterations with
  | zero => exact Nat.zero_le _
  | succ passes =>
      rw [byClusters, rank_counts, total_ranked]
      by_cases present : centroids pixels k passes = []
      · rw [present]
        exact Nat.zero_le _
      · exact total_clusters_le present pixels

theorem byClusters_total (small : pixels.length < 2 ^ 32) (positive : 1 ≤ k) {iterations : Nat}
    (some : 1 ≤ iterations) :
    total ((byClusters pixels k iterations).map Color.count) = pixels.length := by
  obtain ⟨passes, rfl⟩ := Nat.exists_eq_add_of_le' some
  rw [byClusters, rank_counts, total_ranked]
  -- passes keep the number of seeds, so centroids are missing only where pixels are
  by_cases present : centroids pixels k passes = []
  · have none := centroids_length pixels k passes
    rw [present, List.length_nil] at none
    have empty : pixels.length = 0 := by omega
    rw [present, empty]
    rfl
  · exact total_clusters small present

theorem byClusters_ne_nil (small : pixels.length < 2 ^ 32) (positive : 1 ≤ k) {iterations : Nat}
    (some : 1 ≤ iterations) (present : pixels ≠ []) : byClusters pixels k iterations ≠ [] := by
  intro none
  have counted := byClusters_total small positive some
  rw [none] at counted
  exact present (List.length_eq_zero_iff.mp counted.symm)

section Single

theorem nearest_singleton (c p : Rgb) : nearest [c] p = 0 :=
  Nat.lt_one_iff.mp (nearest_lt (List.cons_ne_nil c []) p)

theorem assign_singleton (c : Rgb) (pixels : List Rgb) :
    assign [c] pixels = pixels.map fun p => (0, p) := by
  simp only [assign, nearest_singleton]

theorem members_zero (pixels : List Rgb) : members (pixels.map fun p => (0, p)) 0 = pixels := by
  induction pixels with
  | nil => rfl
  | cons p rest ih => simpa [members] using ih

theorem clusters_singleton (c : Rgb) (pixels : List Rgb) :
    clusters pixels [c] = [(moved c pixels, counter pixels.length)] := by
  simp [clusters_eq, assign_singleton, members_zero]

theorem pass_singleton (c : Rgb) (pixels : List Rgb) : pass pixels [c] = [moved c pixels] := by
  rw [pass, clusters_singleton]
  rfl

end Single

end ImageDigest.Palette
