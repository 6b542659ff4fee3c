import ImageDigest.Proofs.Palette.Descent

namespace ImageDigest.Palette

variable {pixels current : List Rgb} {p : Rgb} {i j : Nat}

section Positions

theorem eq_of_getElem?_eq {left right : List Rgb} (length : left.length = right.length)
    (each : ∀ i < left.length, left[i]? = right[i]?) : left = right := by
  apply List.ext_getElem?'
  intro i inside
  rw [← length, max_self] at inside
  exact each i inside

theorem getD_mem (inside : i < current.length) : current.getD i default ∈ current := by
  rw [List.getD_eq_getElem _ _ inside]
  exact List.getElem_mem inside

theorem getD_mem_take (before : i < j) (inside : i < current.length) :
    current.getD i default ∈ current.take j := by
  rw [List.getD_eq_getElem _ _ inside]
  exact List.mem_take_iff_getElem.mpr ⟨i, by omega, rfl⟩

end Positions

section Nearest

/-- No centroid is closer to the pixel than the one at position `i`, and no earlier one is as
close. -/
structure IsNearest (current : List Rgb) (p : Rgb) (i : Nat) : Prop where
  inside : i < current.length
  closest : ∀ c ∈ current, distance (current.getD i default) p ≤ distance c p
  first : ∀ c ∈ current.take i, distance (current.getD i default) p < distance c p

instance (current : List Rgb) (p : Rgb) (i : Nat) : Decidable (IsNearest current p i) :=
  decidable_of_iff
    (i < current.length ∧
      (∀ c ∈ current, distance (current.getD i default) p ≤ distance c p) ∧
      ∀ c ∈ current.take i, distance (current.getD i default) p < distance c p)
    ⟨fun h => ⟨h.1, h.2.1, h.2.2⟩, fun h => ⟨h.inside, h.closest, h.first⟩⟩

theorem IsNearest.not_lt (left : IsNearest current p i) (right : IsNearest current p j) :
    ¬ i < j := by
  intro before
  have farther := right.first _ (getD_mem_take before left.inside)
  have closer := left.closest _ (getD_mem right.inside)
  omega

theorem IsNearest.unique (left : IsNearest current p i) (right : IsNearest current p j) : i = j :=
  Nat.le_antisymm (Nat.not_lt.mp (right.not_lt left)) (Nat.not_lt.mp (left.not_lt right))

theorem nearest_isNearest (present : current ≠ []) (p : Rgb) :
    IsNearest current p (nearest current p) := by
  constructor
  case inside => exact nearest_lt present p
  case closest =>
    intro c member
    rw [distance_nearest present]
    exact leastDistance_le member p
  case first =>
    intro c member
    rw [distance_nearest present]
    obtain ⟨j, bound, rfl⟩ := List.mem_take_iff_getElem.mp member
    have before : j < nearest current p := (Nat.lt_min.mp bound).1
    have inside : j < current.length := (Nat.lt_min.mp bound).2
    have apart := of_decide_eq_false (List.not_of_lt_findIdx before)
    exact Nat.lt_of_le_of_ne (leastDistance_le (List.getElem_mem inside) p) (Ne.symm apart)

theorem isNearest_iff (present : current ≠ []) : IsNearest current p i ↔ nearest current p = i := by
  constructor
  · exact (nearest_isNearest present p).unique
  · rintro rfl
    exact nearest_isNearest present p

theorem existsUnique_isNearest (present : current ≠ []) (p : Rgb) :
    ∃! i, IsNearest current p i :=
  ⟨_, nearest_isNearest present p, fun _ other => other.unique (nearest_isNearest present p)⟩

end Nearest

section Clusters

def cluster (pixels current : List Rgb) (i : Nat) : List Rgb :=
  pixels.filter fun p => IsNearest current p i

theorem mem_cluster : p ∈ cluster pixels current i ↔ p ∈ pixels ∧ IsNearest current p i := by
  rw [cluster, List.mem_filter, decide_eq_true_eq]

theorem inside_of_cluster (present : cluster pixels current i ≠ []) : i < current.length := by
  obtain ⟨p, member⟩ := List.exists_mem_of_ne_nil _ present
  exact (mem_cluster.mp member).2.inside

theorem cluster_lt (small : pixels.length < 2 ^ 32) (current : List Rgb) (i : Nat) :
    (cluster pixels current i).length < 2 ^ 32 :=
  (List.length_filter_le _ _).trans_lt small

theorem members_assign (inside : i < current.length) :
    members (assign current pixels) i = cluster pixels current i := by
  have present : current ≠ [] := List.ne_nil_of_length_pos (Nat.zero_lt_of_lt inside)
  have same (p : Rgb) : decide (IsNearest current p i) = decide (nearest current p = i) :=
    decide_eq_decide.mpr (isNearest_iff present)
  rw [members, assign, List.filter_map, List.map_map, cluster, funext same]
  exact List.map_id _

theorem pass_at (inside : i < current.length) :
    (pass pixels current)[i]? =
      some (moved (current.getD i default) (cluster pixels current i)) := by
  rw [pass_getElem?, List.getElem?_eq_getElem inside, members_assign inside,
    List.getD_eq_getElem _ _ inside]
  rfl

theorem clusters_eq_map (pixels current : List Rgb) :
    clusters pixels current =
      (List.range current.length).map fun i =>
        (moved (current.getD i default) (cluster pixels current i),
          counter (cluster pixels current i).length) := by
  rw [clusters_eq]
  apply List.ext_getElem
  · rw [List.length_map, List.length_zipIdx, List.length_map, List.length_range]
  · intro i inside _
    rw [List.length_map, List.length_zipIdx] at inside
    simp only [List.getElem_map, List.getElem_zipIdx, List.getElem_range, Nat.zero_add,
      members_assign inside, List.getD_eq_getElem _ _ inside]

end Clusters

section Listing

/-- The positions of the clusters that are counted, the largest count first; clusters of one count
stay in the order of their centroids. -/
def listing (pixels current : List Rgb) : List Nat :=
  ((List.range current.length).filter fun i =>
    0 < counter (cluster pixels current i).length).mergeSort fun i j =>
      decide (counter (cluster pixels current j).length ≤
        counter (cluster pixels current i).length)

theorem mem_listing :
    i ∈ listing pixels current ↔ 0 < counter (cluster pixels current i).length := by
  rw [listing, List.mem_mergeSort, List.mem_filter, decide_eq_true_eq, List.mem_range]
  apply and_iff_right_of_imp
  intro counted
  exact inside_of_cluster (List.length_pos_iff.mp (pos_of_counter counted))

theorem present_of_listed (listed : i ∈ listing pixels current) : cluster pixels current i ≠ [] :=
  List.length_pos_iff.mp (pos_of_counter (mem_listing.mp listed))

theorem mem_listing_iff (small : pixels.length < 2 ^ 32) :
    i ∈ listing pixels current ↔ cluster pixels current i ≠ [] := by
  rw [mem_listing, counter_of_lt (cluster_lt small current i), List.length_pos_iff]

theorem listing_nodup (pixels current : List Rgb) : (listing pixels current).Nodup :=
  (List.mergeSort_perm _ _).nodup_iff.mpr (List.nodup_range.filter _)

/-- Of two equal centroids the later has no pixels, so the centroids of listed clusters differ. -/
theorem centroids_differ (first : i ∈ listing pixels current) (second : j ∈ listing pixels current)
    (differ : i ≠ j) : current.getD i default ≠ current.getD j default := by
  intro same
  obtain ⟨p, member⟩ := List.exists_mem_of_ne_nil _ (present_of_listed first)
  obtain ⟨q, member'⟩ := List.exists_mem_of_ne_nil _ (present_of_listed second)
  have own := (mem_cluster.mp member).2
  have own' := (mem_cluster.mp member').2
  rcases Nat.lt_or_gt_of_ne differ with before | before
  · have apart := own'.first _ (getD_mem_take before own.inside)
    rw [same] at apart
    exact Nat.lt_irrefl _ apart
  · have apart := own.first _ (getD_mem_take before own'.inside)
    rw [same] at apart
    exact Nat.lt_irrefl _ apart

def listedColors (pixels current : List Rgb) : List Rgb :=
  (listing pixels current).map fun i => current.getD i default

theorem listedColors_nodup (pixels current : List Rgb) : (listedColors pixels current).Nodup := by
  refine List.Nodup.map_on ?_ (listing_nodup pixels current)
  intro i first j second same
  by_contra differ
  exact centroids_differ first second differ same

def Precedes (pixels current : List Rgb) (i j : Nat) : Prop :=
  (cluster pixels current j).length < (cluster pixels current i).length ∨
    (cluster pixels current i).length = (cluster pixels current j).length ∧ i < j

theorem listing_precedes (small : pixels.length < 2 ^ 32) (current : List Rgb) :
    (listing pixels current).Pairwise (Precedes pixels current) := by
  have positions := (List.pairwise_lt_range (n := current.length)).filter fun i =>
    0 < counter (cluster pixels current i).length
  have sizes := pairwise_mergeSort_key (· ≥ ·)
    (fun i => counter (cluster pixels current i).length)
    ((List.range current.length).filter fun i => 0 < counter (cluster pixels current i).length)
  have ties := pairwise_mergeSort_ties (· ≥ ·)
    (fun i => counter (cluster pixels current i).length)
    (List.nodup_range.filter _) positions
  refine (sizes.and ties).imp ?_
  intro i j both
  rw [counter_of_lt (cluster_lt small current i),
    counter_of_lt (cluster_lt small current j)] at both
  rcases both with ⟨size, tie⟩
  rcases Nat.lt_or_eq_of_le size with smaller | same
  · exact .inl smaller
  · exact .inr ⟨same.symm, tie same.ge⟩

theorem ranked_clusters (pixels current : List Rgb) :
    ranked (clusters pixels current) =
      (listing pixels current).map fun i =>
        (moved (current.getD i default) (cluster pixels current i),
          counter (cluster pixels current i).length) := by
  rw [ranked, clusters_eq_map, List.filter_map, listing, List.map_mergeSort]
  · rfl
  · intro i _ j _
    rfl

/-- The palette shows each of the counted clusters of the last pass by the mean over its count. -/
theorem byClusters_eq_map (pixels : List Rgb) (k passes : Nat) :
    byClusters pixels k (passes + 1) =
      (listing pixels (centroids pixels k passes)).map fun i =>
        let own := cluster pixels (centroids pixels k passes) i
        Color.counted (meanOver (counter own.length) own) (counter own.length) pixels.length := by
  rw [byClusters, rank, ranked_clusters, List.map_map]
  apply List.map_congr_left
  intro i listed
  simp only [Function.comp_apply, moved, if_neg (mem_listing.mp listed).ne']

theorem byClusters_eq_means (small : pixels.length < 2 ^ 32) (k passes : Nat) :
    byClusters pixels k (passes + 1) =
      (listing pixels (centroids pixels k passes)).map fun i =>
        Color.counted (mean (cluster pixels (centroids pixels k passes) i))
          (cluster pixels (centroids pixels k passes) i).length pixels.length := by
  rw [byClusters_eq_map]
  apply List.map_congr_left
  intro i _
  simp only [counter_of_lt (cluster_lt small _ i), mean]

end Listing

end ImageDigest.Palette
