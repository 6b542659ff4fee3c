import ImageDigest.Proofs.Palette.Census

/-! How many clusters there are: no more than distinct pixels, since equal pixels are nearest to one
centroid, and after one pass as many as distinct seeds, since each seed is nearest to itself. -/

namespace ImageDigest.Palette

variable {pixels current : List Rgb} {c : Rgb} {k : Nat}

section Pixels

theorem byClusters_length (pixels : List Rgb) (k passes : Nat) :
    (byClusters pixels k (passes + 1)).length =
      (listing pixels (centroids pixels k passes)).length := by
  rw [byClusters_eq_map, List.length_map]

theorem listing_subset (pixels current : List Rgb) :
    (listing pixels current).toFinset ⊆ pixels.toFinset.image (nearest current) := by
  intro i listed
  obtain ⟨p, member⟩ :=
    List.exists_mem_of_ne_nil _ (present_of_listed (List.mem_toFinset.mp listed))
  obtain ⟨sampled, own⟩ := mem_cluster.mp member
  have present : current ≠ [] := List.ne_nil_of_length_pos (Nat.zero_lt_of_lt own.inside)
  exact Finset.mem_image.mpr
    ⟨p, List.mem_toFinset.mpr sampled, (isNearest_iff present).mp own⟩

theorem listing_length_le (pixels current : List Rgb) :
    (listing pixels current).length ≤ pixels.toFinset.card := by
  calc
    (listing pixels current).length = (listing pixels current).toFinset.card :=
      (List.toFinset_card_of_nodup (listing_nodup pixels current)).symm
    _ ≤ (pixels.toFinset.image (nearest current)).card :=
      Finset.card_le_card (listing_subset pixels current)
    _ ≤ pixels.toFinset.card := Finset.card_image_le

theorem byClusters_length_le_distinct (pixels : List Rgb) (k iterations : Nat) :
    (byClusters pixels k iterations).length ≤ pixels.toFinset.card := by
  cases iterations with
  | zero => exact Nat.zero_le _
  | succ passes =>
      rw [byClusters_length]
      exact listing_length_le _ _

end Pixels

section Seeds

/-- Centroids that are pixels of the sample have one cluster for each of their colors. -/
theorem listing_length (small : pixels.length < 2 ^ 32) (sampled : ∀ c ∈ current, c ∈ pixels) :
    (listing pixels current).length = current.toFinset.card := by
  have same : (listedColors pixels current).toFinset = current.toFinset := by
    ext c
    rw [List.mem_toFinset, List.mem_toFinset]
    constructor
    · intro listed
      obtain ⟨i, member, rfl⟩ := List.mem_map.mp listed
      exact getD_mem (inside_of_cluster (present_of_listed member))
    · intro member
      exact mem_listedColors_of_mem small member (sampled c member)
  rw [← same, List.toFinset_card_of_nodup (listedColors_nodup pixels current), listedColors,
    List.length_map]

theorem seeds_eq_map (small : pixels.length < 2 ^ 32) (k : Nat) :
    seeds pixels k =
      (List.range (min k pixels.length)).map fun i =>
        pixels.getD (i * pixels.length / min k pixels.length) default := by
  simp [seeds, seedPositions_eq small]

theorem seeds_toFinset (small : pixels.length < 2 ^ 32) (k : Nat) :
    (seeds pixels k).toFinset =
      (Finset.range (min k pixels.length)).image fun i =>
        pixels.getD (i * pixels.length / min k pixels.length) default := by
  ext c
  rw [seeds_eq_map small, List.mem_toFinset, List.mem_map, Finset.mem_image]
  simp only [List.mem_range, Finset.mem_range]

/-- However many passes there are, the palette has no more colors than the sample, nor more than
`k`. After one pass over a sample that 32 bits can count it has as many as there are distinct pixels
at the positions of the seeds, which are positions of the sample and increase. -/
theorem clusters_count (pixels : List Rgb) (k : Nat) :
    (∀ iterations, (byClusters pixels k iterations).length ≤ pixels.toFinset.card ∧
      (byClusters pixels k iterations).length ≤ k) ∧
    (∀ i < min k pixels.length,
      i * pixels.length / min k pixels.length < pixels.length) ∧
    (∀ j < min k pixels.length, ∀ i < j,
      i * pixels.length / min k pixels.length < j * pixels.length / min k pixels.length) ∧
    (pixels.length < 2 ^ 32 →
      seedPositions pixels.length k =
          (List.range (min k pixels.length)).map (fun i =>
            i * pixels.length / min k pixels.length) ∧
        (byClusters pixels k 1).length =
          ((Finset.range (min k pixels.length)).image fun i =>
            pixels.getD (i * pixels.length / min k pixels.length) default).card) := by
  refine ⟨?_, fun i inside => seedPosition_lt inside, ?_, ?_⟩
  · intro iterations
    exact ⟨byClusters_length_le_distinct pixels k iterations,
      byClusters_length_le pixels k iterations⟩
  · intro j inside i before
    exact spaced_lt before inside (Nat.min_le_right _ _)
  · intro small
    refine ⟨seedPositions_eq small k, ?_⟩
    rw [byClusters_length, centroids_zero, listing_length small (seeds_sampled pixels k),
      seeds_toFinset small]

def sixPixels : List Rgb :=
  [⟨1, 1, 1⟩, ⟨7, 0, 0⟩, ⟨1, 1, 1⟩, ⟨0, 9, 0⟩, ⟨0, 0, 200⟩, ⟨7, 0, 0⟩]

theorem clusters_count_six :
    (byClusters sixPixels 3 1).length = 2 ∧ (byClusters sixPixels 5 7).length ≤ 4 ∧
    2 * 6 / 3 < 6 ∧ 1 * 6 / 3 < 2 * 6 / 3 := by
  obtain ⟨atMost, -, -, -⟩ := clusters_count sixPixels 5
  obtain ⟨-, inside, increasing, counted⟩ := clusters_count sixPixels 3
  refine ⟨?_, (atMost 7).1.trans (by decide), inside 2 (by decide),
    increasing 2 (by decide) 1 (by decide)⟩
  rw [(counted (by decide)).2]
  decide

/-- A cluster with so many pixels that its counter is back at 0 is dropped, though it has a seed. -/
theorem clusters_count_dropped :
    byClusters (List.replicate (2 ^ 32) ⟨0, 0, 0⟩) 1 1 = [] ∧
    seeds (List.replicate (2 ^ 32) ⟨0, 0, 0⟩) 1 = [⟨0, 0, 0⟩] ∧
    (seeds (List.replicate (2 ^ 32) ⟨0, 0, 0⟩) 1).toFinset.card = 1 := by
  have seeded : seeds (List.replicate (2 ^ 32) ⟨0, 0, 0⟩) 1 = [⟨0, 0, 0⟩] := seeds_replicate _ _ _
  have count : counter (List.replicate (2 ^ 32) (⟨0, 0, 0⟩ : Rgb)).length = 0 := by
    rw [List.length_replicate]
    decide
  refine ⟨?_, seeded, ?_⟩
  · rw [byClusters, centroids_zero, seeded, clusters_singleton, count]
    exact rank_zero _ _
  · rw [seeded]
    rfl

end Seeds

end ImageDigest.Palette
