import ImageDigest.Proofs.Palette.OneColor
import ImageDigest.Proofs.Palette.Provenance

/-! Seeds that hit every color of a sample are already the centroids that all passes lead to, and
the palette then counts how often each color occurs. -/

namespace ImageDigest.Palette

variable {pixels current : List Rgb} {c : Rgb} {i j k n : Nat}

section Covered

theorem squaredGap_eq_zero_iff {v w : UInt8} : squaredGap v w = 0 ↔ v = w := by
  rw [squaredGap, mul_self_eq_zero, Int.natAbs_eq_zero, Int.sub_eq_zero, Int.natCast_inj,
    UInt8.toNat_inj]

theorem distance_eq_zero_iff {d : Rgb} : distance c d = 0 ↔ c = d := by
  cases c
  cases d
  simp only [distance, Nat.add_eq_zero_iff, squaredGap_eq_zero_iff, Rgb.mk.injEq, and_assoc]

theorem IsNearest.getD_eq (nearest : IsNearest current c i) (member : c ∈ current) :
    current.getD i default = c := by
  have closest := nearest.closest c member
  rw [distance_self] at closest
  exact distance_eq_zero_iff.mp (Nat.le_zero.mp closest)

theorem IsNearest.not_mem_take (nearest : IsNearest current c i) (member : c ∈ current) :
    c ∉ current.take i := by
  intro earlier
  have apart := nearest.first c earlier
  rw [nearest.getD_eq member] at apart
  exact Nat.lt_irrefl _ apart

def Covers (current pixels : List Rgb) : Prop := ∀ p ∈ pixels, p ∈ current

theorem cluster_of_covers (covers : Covers current pixels)
    (present : cluster pixels current i ≠ []) :
    cluster pixels current i =
      List.replicate (pixels.count (current.getD i default)) (current.getD i default) := by
  obtain ⟨q, member⟩ := List.exists_mem_of_ne_nil _ present
  obtain ⟨sampled, nearest⟩ := mem_cluster.mp member
  rw [nearest.getD_eq (covers q sampled), cluster, ← List.filter_eq]
  apply List.filter_congr
  intro p sampled'
  apply decide_eq_decide.mpr
  constructor
  · intro nearest'
    rw [← nearest'.getD_eq (covers p sampled'), nearest.getD_eq (covers q sampled)]
  · rintro rfl
    exact nearest

theorem pass_of_covers (small : pixels.length < 2 ^ 32) (covers : Covers current pixels) :
    pass pixels current = current := by
  apply eq_of_getElem?_eq (pass_length pixels current)
  intro i bound
  have inside : i < current.length := bound.trans_eq (pass_length pixels current)
  rw [pass_at inside, List.getElem?_eq_getElem inside, List.getD_eq_getElem _ _ inside]
  by_cases present : cluster pixels current i = []
  · rw [present, moved_nil]
  · rw [cluster_of_covers covers present, List.getD_eq_getElem _ _ inside,
      moved_replicate _ (count_lt small _)]

theorem centroids_of_covers (small : pixels.length < 2 ^ 32)
    (covers : Covers (seeds pixels k) pixels) (passes : Nat) :
    centroids pixels k passes = seeds pixels k := by
  induction passes with
  | zero => rfl
  | succ passes ih => rw [centroids_succ, ih, pass_of_covers small covers]

theorem getD_of_listed (covers : Covers current pixels) (listed : i ∈ listing pixels current) :
    current.getD i default ∈ pixels ∧ IsNearest current (current.getD i default) i := by
  obtain ⟨q, member⟩ := List.exists_mem_of_ne_nil _ (present_of_listed listed)
  obtain ⟨sampled, nearest⟩ := mem_cluster.mp member
  rw [nearest.getD_eq (covers q sampled)]
  exact ⟨sampled, nearest⟩

theorem mem_listedColors_of_mem (small : pixels.length < 2 ^ 32) (member : c ∈ current)
    (sampled : c ∈ pixels) : c ∈ listedColors pixels current := by
  have own := nearest_isNearest (List.ne_nil_of_mem member) c
  have inside : c ∈ cluster pixels current (nearest current c) := mem_cluster.mpr ⟨sampled, own⟩
  exact List.mem_map.mpr
    ⟨_, (mem_listing_iff small).mpr (List.ne_nil_of_mem inside), own.getD_eq member⟩

theorem mem_listedColors (small : pixels.length < 2 ^ 32) (covers : Covers current pixels) :
    c ∈ listedColors pixels current ↔ c ∈ pixels := by
  rw [listedColors, List.mem_map]
  constructor
  · rintro ⟨i, listed, rfl⟩
    exact (getD_of_listed covers listed).1
  · intro sampled
    exact List.mem_map.mp (mem_listedColors_of_mem small (covers c sampled) sampled)

theorem byClusters_of_covers (small : pixels.length < 2 ^ 32)
    (covers : Covers (seeds pixels k) pixels) (passes : Nat) :
    byClusters pixels k (passes + 1) =
      (listedColors pixels (seeds pixels k)).map fun c =>
        Color.counted c (pixels.count c) pixels.length := by
  rw [byClusters_eq_means small, centroids_of_covers small covers, listedColors, List.map_map]
  apply List.map_congr_left
  intro i listed
  have sampled := (getD_of_listed covers listed).1
  rw [cluster_of_covers covers (present_of_listed listed), List.length_replicate,
    mean_replicate _ (List.count_pos_iff.mpr sampled) (count_lt small _)]
  rfl

end Covered

section Seeds

/-- A color at one of the `min k n` evenly spaced positions of a sample of `n`. -/
def SeededAt (pixels : List Rgb) (k : Nat) (c : Rgb) (i : Nat) : Prop :=
  (∃ j < min k pixels.length, i = j * pixels.length / min k pixels.length) ∧ pixels[i]? = some c

def SeedsHitAll (pixels : List Rgb) (k : Nat) : Prop := ∀ c ∈ pixels, ∃ i, SeededAt pixels k c i

theorem SeedsHitAll.covers (small : pixels.length < 2 ^ 32) (hit : SeedsHitAll pixels k) :
    Covers (seeds pixels k) pixels := by
  intro c sampled
  obtain ⟨i, ⟨j, inside, rfl⟩, found⟩ := hit c sampled
  rw [← seeds_getElem? small inside] at found
  exact List.mem_of_getElem? found

theorem seedsHitAll_of_length_le (enough : pixels.length ≤ k) : SeedsHitAll pixels k := by
  intro c sampled
  obtain ⟨i, inside, rfl⟩ := List.mem_iff_getElem.mp sampled
  refine ⟨i, ⟨i, by omega, ?_⟩, List.getElem?_eq_getElem inside⟩
  rw [Nat.min_eq_right enough, Nat.mul_div_cancel _ (Nat.zero_lt_of_lt inside)]

theorem spaced_lt {count : Nat} (before : i < j) (inside : j < count) (fits : count ≤ n) :
    i * n / count < j * n / count := by
  have positive : 0 < count := Nat.zero_lt_of_lt inside
  calc
    i * n / count < i * n / count + 1 := Nat.lt_succ_self _
    _ = (i * n + count) / count := (Nat.add_div_right _ positive).symm
    _ ≤ (i + 1) * n / count := by
      apply Nat.div_le_div_right
      rw [Nat.add_mul, Nat.one_mul]
      exact Nat.add_le_add_left fits _
    _ ≤ j * n / count := Nat.div_le_div_right (Nat.mul_le_mul_right n before)

/-- The centroid that a color is nearest to is the first of the seeds that hold it. -/
theorem isLeast_seededAt (small : pixels.length < 2 ^ 32) (own : IsNearest (seeds pixels k) c i)
    (member : c ∈ seeds pixels k) :
    IsLeast {position | SeededAt pixels k c position}
      (i * pixels.length / min k pixels.length) := by
  have inside : i < min k pixels.length := by
    rw [← seeds_length]
    exact own.inside
  have found : (seeds pixels k)[i]? = some c := by
    rw [List.getElem?_eq_getElem own.inside, ← List.getD_eq_getElem _ default, own.getD_eq member]
  constructor
  · exact ⟨⟨i, inside, rfl⟩, by rw [← seeds_getElem? small inside, found]⟩
  · rintro position ⟨⟨j, inside', rfl⟩, found'⟩
    rw [← seeds_getElem? small inside'] at found'
    apply Nat.div_le_div_right
    apply Nat.mul_le_mul_right
    by_contra before
    obtain ⟨bound, same⟩ := List.getElem?_eq_some_iff.mp found'
    apply own.not_mem_take member
    exact List.mem_take_iff_getElem.mpr ⟨j, by omega, same⟩

/-- One color is listed before another: it is more frequent, or as frequent with an earlier seed. -/
def Leads (pixels : List Rgb) (k : Nat) (c d : Rgb) : Prop :=
  pixels.count d < pixels.count c ∨
    pixels.count c = pixels.count d ∧
      ∃ i j, IsLeast {position | SeededAt pixels k c position} i ∧
        IsLeast {position | SeededAt pixels k d position} j ∧ i < j

theorem listedColors_leads (small : pixels.length < 2 ^ 32)
    (covers : Covers (seeds pixels k) pixels) :
    (listedColors pixels (seeds pixels k)).Pairwise (Leads pixels k) := by
  apply List.pairwise_map.mpr
  apply (listing_precedes small (seeds pixels k)).imp_of_mem
  intro i j first second precedes
  obtain ⟨sampled, own⟩ := getD_of_listed covers first
  obtain ⟨sampled', own'⟩ := getD_of_listed covers second
  rw [Precedes, cluster_of_covers covers (present_of_listed first),
    cluster_of_covers covers (present_of_listed second), List.length_replicate,
    List.length_replicate] at precedes
  refine precedes.imp_right fun tie => ⟨tie.1, _, _, isLeast_seededAt small own (covers _ sampled),
    isLeast_seededAt small own' (covers _ sampled'), ?_⟩
  have inside := own'.inside
  rw [seeds_length] at inside
  exact spaced_lt tie.2 inside (Nat.min_le_right k pixels.length)

end Seeds

section Buckets

theorem rounded_one (pixels : List Rgb) : rounded 1 pixels = pixels := by
  have channel (v : UInt8) : roundToStep 1 v = v := by
    have bound : v.toNat ≤ 255 := Nat.le_of_lt_succ v.toNat_lt
    have none : 1 / 2 = 0 := rfl
    rw [roundToStep, none, Nat.add_zero, Nat.div_one, Nat.mul_one, Nat.min_eq_right bound,
      UInt8.ofNat_toNat]
  have whole : Rgb.mapChannels (roundToStep 1) = id := by
    funext c
    simp only [Rgb.mapChannels, channel, id]
  rw [rounded, whole, List.map_id]

theorem byBuckets_one_perm (small : pixels.length < 2 ^ 32) {order : List Rgb}
    (distinct : order.Nodup) (all : ∀ c, c ∈ order ↔ c ∈ pixels) (room : pixels.toFinset.card ≤ k) :
    (byBuckets pixels k 1).Perm
      (order.map fun c => Color.counted c (pixels.count c) pixels.length) := by
  have counts : (frequencies pixels).Perm (order.map fun c => (c, pixels.count c)) := by
    rw [List.perm_ext_iff_of_nodup (frequencies_distinct pixels).of_map
      (distinct.map fun c d same => congrArg Prod.fst same)]
    intro t
    rw [mem_frequencies_iff small, List.mem_map]
    constructor
    · intro counted
      exact ⟨t.1, (all _).mpr counted.1, Prod.ext rfl counted.2.symm⟩
    · rintro ⟨c, listed, rfl⟩
      exact ⟨(all c).mp listed, rfl⟩
  have kept := ranked_frequencies_perm small
  have whole : byBuckets pixels k 1 = rank pixels.length (frequencies pixels) := by
    rw [byBuckets_eq Nat.one_pos, rounded_one, List.take_of_length_le]
    rwa [rank_length, kept.length_eq, frequencies_length]
  rw [whole, rank]
  refine ((kept.trans counts).map _).trans (List.Perm.of_eq ?_)
  rw [List.map_map]
  rfl

end Buckets

/-- Where the seeds hit every color of the sample, and so with as many seeds as pixels, clustering
lists each color once with the number of its pixels: the more frequent ones first, and of equally
frequent ones those first that the seeds hit first. Buckets of single colors, if there is room for
all, hold the same. -/
theorem clusters_census {pixels : List Rgb} (small : pixels.length < 2 ^ 32) (k : Nat) :
    (pixels.length ≤ k → SeedsHitAll pixels k) ∧
    (SeedsHitAll pixels k → ∀ iterations, 1 ≤ iterations →
      (∃ order : List Rgb, order.Nodup ∧ (∀ c, c ∈ order ↔ c ∈ pixels) ∧
        order.Pairwise (Leads pixels k) ∧
        byClusters pixels k iterations =
          order.map fun c => Color.counted c (pixels.count c) pixels.length) ∧
      ∀ room, pixels.toFinset.card ≤ room →
        (byClusters pixels k iterations).Perm (byBuckets pixels room 1)) := by
  refine ⟨seedsHitAll_of_length_le, ?_⟩
  intro hit iterations repeated
  obtain ⟨passes, rfl⟩ := Nat.exists_eq_add_of_le' repeated
  have covers := hit.covers small
  have distinct := listedColors_nodup pixels (seeds pixels k)
  have all : ∀ c, c ∈ listedColors pixels (seeds pixels k) ↔ c ∈ pixels :=
    fun c => mem_listedColors small covers
  refine ⟨⟨_, distinct, all, listedColors_leads small covers,
    byClusters_of_covers small covers passes⟩, ?_⟩
  intro room enough
  rw [byClusters_of_covers small covers passes]
  exact (byBuckets_one_perm small distinct all enough).symm

theorem clusters_census_two :
    SeedsHitAll [⟨1, 2, 3⟩, ⟨4, 5, 6⟩, ⟨1, 2, 3⟩] 2 ∧
    (byClusters [⟨1, 2, 3⟩, ⟨4, 5, 6⟩, ⟨1, 2, 3⟩] 2 4).Perm
      (byBuckets [⟨1, 2, 3⟩, ⟨4, 5, 6⟩, ⟨1, 2, 3⟩] 2 1) := by
  have hit : SeedsHitAll [⟨1, 2, 3⟩, ⟨4, 5, 6⟩, ⟨1, 2, 3⟩] 2 := by
    intro c sampled
    simp only [List.mem_cons, List.not_mem_nil, or_false] at sampled
    rcases sampled with rfl | rfl | rfl
    · exact ⟨0, ⟨0, by decide, by decide⟩, rfl⟩
    · exact ⟨1, ⟨1, by decide, by decide⟩, rfl⟩
    · exact ⟨0, ⟨0, by decide, by decide⟩, rfl⟩
  exact ⟨hit, ((clusters_census (by decide) 2).2 hit 4 (by decide)).2 2 (by decide)⟩

end ImageDigest.Palette
