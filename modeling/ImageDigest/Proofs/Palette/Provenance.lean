import ImageDigest.Proofs.Palette.Partition

/-! Where the colors of a clustered palette come from: the means of the clusters around the
centroids that the passes before the last one have led to. -/

namespace ImageDigest.Palette

open Number

variable {pixels own current next : List Rgb} {k n : Nat}

section Mean

variable {channel : Rgb → UInt8} {value : UInt8}

theorem IsRoundedMean.eq_meanChannel (small : own.length < 2 ^ 32) (present : own ≠ [])
    (rounded : IsRoundedMean channel own value) : value = meanChannel channel own.length own := by
  have positive := List.length_pos_iff.mpr present
  apply UInt8.toNat_inj.mp
  rw [meanChannel_toNat small channel present]
  exact ((halfUp_eq_iff_near positive).mpr ⟨rounded.lower, rounded.upper⟩).symm

theorem IsRoundedCenter.eq_mean {c : Rgb} (small : own.length < 2 ^ 32) (present : own ≠ [])
    (center : IsRoundedCenter own c) : c = mean own := by
  cases c
  simp only [mean, meanOver, Rgb.mk.injEq]
  exact ⟨center.red.eq_meanChannel small present, center.green.eq_meanChannel small present,
    center.blue.eq_meanChannel small present⟩

theorem meanChannel_le (channel : Rgb → UInt8) {most : Nat} (small : own.length < 2 ^ 32)
    (present : own ≠ []) (atMost : ∀ p ∈ own, (channel p).toNat ≤ most) :
    (meanChannel channel own.length own).toNat ≤ most := by
  have bound : channelSum channel own ≤ most * own.length := by
    calc
      channelSum channel own ≤ total (own.map fun _ => most) := total_map_le atMost
      _ = most * own.length := by rw [List.map_const', total_replicate, Nat.mul_comm]
  rw [meanChannel_toNat small channel present]
  exact halfUp_le (List.length_pos_iff.mpr present) bound

theorem le_meanChannel (channel : Rgb → UInt8) {least : Nat} (small : own.length < 2 ^ 32)
    (present : own ≠ []) (atLeast : ∀ p ∈ own, least ≤ (channel p).toNat) :
    least ≤ (meanChannel channel own.length own).toNat := by
  have positive := List.length_pos_iff.mpr present
  have bound : least * own.length ≤ channelSum channel own := by
    calc
      least * own.length = total (own.map fun _ => least) := by
        rw [List.map_const', total_replicate, Nat.mul_comm]
      _ ≤ channelSum channel own := total_map_le atLeast
  have upper := ((halfUp_eq_iff positive).mp (meanChannel_toNat small channel present).symm).2
  by_contra below
  have next : (meanChannel channel own.length own).toNat + 1 ≤ least := Nat.not_le.mp below
  have scaled := Nat.mul_le_mul_right own.length next
  linarith

theorem meanChannel_between (small : own.length < 2 ^ 32) (channel : Rgb → UInt8)
    (present : own ≠ []) :
    (∃ p ∈ own, channel p ≤ meanChannel channel own.length own) ∧
      ∃ p ∈ own, meanChannel channel own.length own ≤ channel p := by
  constructor
  · by_contra none
    simp only [not_exists, not_and, UInt8.not_le, UInt8.lt_iff_toNat_lt] at none
    have above := le_meanChannel channel small present none
    omega
  · by_contra none
    simp only [not_exists, not_and, UInt8.not_le, UInt8.lt_iff_toNat_lt] at none
    rcases List.exists_mem_of_ne_nil own present with ⟨p, member⟩
    have positive := none p member
    have below := meanChannel_le channel small present fun p member =>
      Nat.le_sub_one_of_lt (none p member)
    omega

end Mean

section Passes

/-- What one pass makes of the centroids: one whose cluster is empty stays, and every other one
becomes the rounded mean of its cluster. -/
structure IsPass (pixels current next : List Rgb) : Prop where
  length : next.length = current.length
  kept : ∀ i < current.length, cluster pixels current i = [] → next[i]? = current[i]?
  moved : ∀ i < current.length, cluster pixels current i ≠ [] →
    ∃ c, next[i]? = some c ∧ IsRoundedCenter (cluster pixels current i) c

theorem pass_isPass (small : pixels.length < 2 ^ 32) (current : List Rgb) :
    IsPass pixels current (pass pixels current) where
  length := pass_length pixels current
  kept := by
    intro i inside none
    rw [pass_at inside, none, moved_nil, List.getD_eq_getElem _ _ inside,
      List.getElem?_eq_getElem inside]
  moved := by
    intro i inside present
    have few := cluster_lt small current i
    rw [pass_at inside, moved_of_present few _ present]
    exact ⟨_, rfl, mean_isRoundedCenter few present⟩

theorem IsPass.eq_pass (small : pixels.length < 2 ^ 32) (step : IsPass pixels current next) :
    next = pass pixels current := by
  apply eq_of_getElem?_eq (step.length.trans (pass_length pixels current).symm)
  intro i bound
  have inside : i < current.length := bound.trans_eq step.length
  have few := cluster_lt small current i
  by_cases none : cluster pixels current i = []
  · rw [step.kept i inside none, (pass_isPass small current).kept i inside none]
  · rcases step.moved i inside none with ⟨c, found, center⟩
    rw [found, pass_at inside, moved_of_present few _ none, center.eq_mean few none]

/-- The centroids that a number of passes lead to from the seeds, which are `min k n` pixels of a
sample of `n`, evenly spaced. -/
inductive Reached (pixels : List Rgb) (k : Nat) : Nat → List Rgb → Prop where
  | seeds {start : List Rgb} (length : start.length = min k pixels.length)
      (spaced : ∀ i < min k pixels.length,
        start[i]? = pixels[i * pixels.length / min k pixels.length]?) : Reached pixels k 0 start
  | pass {passes : Nat} {current next : List Rgb} (before : Reached pixels k passes current)
      (step : IsPass pixels current next) : Reached pixels k (passes + 1) next

theorem seeds_getElem? (small : pixels.length < 2 ^ 32) {i : Nat}
    (inside : i < min k pixels.length) :
    (seeds pixels k)[i]? = pixels[i * pixels.length / min k pixels.length]? := by
  have position := seedPosition_lt inside
  simp [seeds, seedPositions_eq small, inside, position]

theorem reached_iff (small : pixels.length < 2 ^ 32) {passes : Nat} :
    Reached pixels k passes current ↔ current = centroids pixels k passes := by
  constructor
  · intro reached
    induction reached with
    | @seeds start length spaced =>
        rw [centroids_zero]
        apply eq_of_getElem?_eq (length.trans (seeds_length pixels k).symm)
        intro i bound
        have inside : i < min k pixels.length := bound.trans_eq length
        rw [spaced i inside, seeds_getElem? small inside]
    | pass before step ih => rw [centroids_succ, ← ih, step.eq_pass small]
  · rintro rfl
    induction passes with
    | zero => exact .seeds (seeds_length pixels k) fun i inside => seeds_getElem? small inside
    | succ passes ih =>
        rw [centroids_succ]
        exact .pass ih (pass_isPass small _)

end Passes

section Listed

/-- A color of the palette that stands for a cluster: it counts its pixels, and in each channel it
is their rounded mean, which lies between their smallest and their largest value. -/
structure Represents (total : Nat) (own : List Rgb) (c : Color) : Prop where
  share : c.share = some (Share.of own.length total)
  center : IsRoundedCenter own c.rgb
  between : ∀ channel ∈ [Rgb.red, Rgb.green, Rgb.blue],
    (∃ p ∈ own, channel p ≤ channel c.rgb) ∧ ∃ p ∈ own, channel c.rgb ≤ channel p

theorem counted_mean_represents (total : Nat) (small : own.length < 2 ^ 32) (present : own ≠ []) :
    Represents total own (.counted (mean own) own.length total) where
  share := rfl
  center := mean_isRoundedCenter small present
  between := by
    intro channel member
    simp only [List.mem_cons, List.not_mem_nil, or_false] at member
    rcases member with rfl | rfl | rfl
    · exact meanChannel_between small Rgb.red present
    · exact meanChannel_between small Rgb.green present
    · exact meanChannel_between small Rgb.blue present

/-- The last pass assigns every pixel to one of the centroids that the passes before have led to
from the seeds, and the palette has one color for each cluster that is not empty, in the order of
their sizes, with clusters of one size in the order of their centroids. -/
theorem clusters_provenance (present : pixels ≠ []) (small : pixels.length < 2 ^ 32)
    (wanted : 1 ≤ k) {iterations : Nat} (repeated : 1 ≤ iterations) :
    ∃ last, (∀ current, Reached pixels k (iterations - 1) current ↔ current = last) ∧
      (∀ p, ∃! i, IsNearest last p i) ∧
      ∃ order : List Nat, order.Nodup ∧ (∀ i, i ∈ order ↔ cluster pixels last i ≠ []) ∧
        order.Pairwise (Precedes pixels last) ∧
        List.Forall₂ (fun i => Represents pixels.length (cluster pixels last i)) order
          (byClusters pixels k iterations) := by
  obtain ⟨passes, rfl⟩ := Nat.exists_eq_add_of_le' repeated
  have positive := List.length_pos_iff.mpr present
  have centered : centroids pixels k passes ≠ [] := by
    apply List.ne_nil_of_length_pos
    rw [centroids_length]
    omega
  refine ⟨centroids pixels k passes, fun _ => reached_iff small, existsUnique_isNearest centered,
    listing pixels (centroids pixels k passes), listing_nodup _ _,
    fun _ => mem_listing_iff small, listing_precedes small _, ?_⟩
  rw [byClusters_eq_means small, List.forall₂_map_right_iff, List.forall₂_same]
  intro i listed
  exact counted_mean_represents pixels.length (cluster_lt small _ i) (present_of_listed listed)

theorem clusters_provenance_tie :
    ∃ order : List Nat,
      (∀ i, i ∈ order ↔
        cluster [⟨0, 0, 0⟩, ⟨20, 20, 20⟩, ⟨10, 10, 10⟩] [⟨5, 5, 5⟩, ⟨20, 20, 20⟩] i ≠ []) ∧
      order.Pairwise
        (Precedes [⟨0, 0, 0⟩, ⟨20, 20, 20⟩, ⟨10, 10, 10⟩] [⟨5, 5, 5⟩, ⟨20, 20, 20⟩]) ∧
      List.Forall₂
        (fun i => Represents 3
          (cluster [⟨0, 0, 0⟩, ⟨20, 20, 20⟩, ⟨10, 10, 10⟩] [⟨5, 5, 5⟩, ⟨20, 20, 20⟩] i))
        order (byClusters [⟨0, 0, 0⟩, ⟨20, 20, 20⟩, ⟨10, 10, 10⟩] 2 2) ∧
      cluster [⟨0, 0, 0⟩, ⟨20, 20, 20⟩, ⟨10, 10, 10⟩] [⟨5, 5, 5⟩, ⟨20, 20, 20⟩] 0 =
        [⟨0, 0, 0⟩, ⟨10, 10, 10⟩] := by
  obtain ⟨last, reached, -, order, -, members, precedes, represents⟩ :=
    clusters_provenance (List.cons_ne_nil ⟨0, 0, 0⟩ [⟨20, 20, 20⟩, ⟨10, 10, 10⟩]) (by decide)
      (show 1 ≤ 2 by decide) (show 1 ≤ 2 by decide)
  have found : [⟨5, 5, 5⟩, ⟨20, 20, 20⟩] = last :=
    (reached _).mp ((reached_iff (by decide)).mpr (by decide +kernel))
  subst found
  exact ⟨order, members, precedes, represents, by decide⟩

end Listed

end ImageDigest.Palette
