import ImageDigest.Proofs.Palette.Analysis
import ImageDigest.Proofs.Palette.Descent
import ImageDigest.Proofs.Settings.Sound

namespace ImageDigest

open Number Palette

variable {c : Rgb} {n k : Nat}

namespace Palette

theorem replicate_ne_nil (c : Rgb) (present : 0 < n) : List.replicate n c ≠ [] := by
  simpa using present.ne'

theorem meanChannel_replicate (channel : Rgb → UInt8) (c : Rgb) (present : 0 < n)
    (small : n < 2 ^ 32) : meanChannel channel n (List.replicate n c) = channel c := by
  have exactly : halfUp (n * (channel c).toNat) n = (channel c).toNat := by
    rw [halfUp_eq_iff present]
    constructor <;> nlinarith
  have sum : channelSum channel (List.replicate n c) = n * (channel c).toNat := by
    rw [channelSum, List.map_replicate, total_replicate]
  have length : (List.replicate n c).length = n := List.length_replicate
  have few : (List.replicate n c).length < 2 ^ 32 := by rwa [length]
  have value := meanChannel_toNat few channel (replicate_ne_nil c present)
  rw [length, sum, exactly] at value
  exact UInt8.toNat_inj.mp value

theorem mean_replicate (c : Rgb) (present : 0 < n) (small : n < 2 ^ 32) :
    mean (List.replicate n c) = c := by
  simp only [mean, meanOver, List.length_replicate, meanChannel_replicate _ c present small]

theorem moved_replicate (c : Rgb) (small : n < 2 ^ 32) : moved c (List.replicate n c) = c := by
  rcases Nat.eq_zero_or_pos n with rfl | present
  · rfl
  · have few : (List.replicate n c).length < 2 ^ 32 := by rwa [List.length_replicate]
    rw [moved_of_present few c (replicate_ne_nil c present), mean_replicate c present small]

theorem distance_self (c : Rgb) : distance c c = 0 := by
  simp [distance, squaredGap]

theorem nearest_replicate (c : Rgb) (k : Nat) : nearest (List.replicate (k + 1) c) c = 0 := by
  have least : leastDistance (List.replicate (k + 1) c) c = 0 := by
    have own : c ∈ List.replicate (k + 1) c := List.mem_cons_self
    exact Nat.le_zero.mp ((leastDistance_le own c).trans_eq (distance_self c))
  rw [nearest, least, List.replicate_succ, List.findIdx_cons, distance_self]
  rfl

theorem assign_replicate (c : Rgb) (n k : Nat) :
    assign (List.replicate (k + 1) c) (List.replicate n c) = List.replicate n (0, c) := by
  rw [assign, List.map_replicate, nearest_replicate]

theorem members_replicate (c : Rgb) (n i : Nat) :
    members (List.replicate n (0, c)) i = if i = 0 then List.replicate n c else [] := by
  unfold members
  split
  case isTrue first => simp [first]
  case isFalse later => simp [Ne.symm later]

theorem clusters_replicate (c : Rgb) (n k : Nat) :
    clusters (List.replicate n c) (List.replicate (k + 1) c) =
      (moved c (List.replicate n c), counter n) :: List.replicate k (c, 0) := by
  have others : ((List.replicate k c).zipIdx 1).map (fun t =>
      (moved t.1 (members (List.replicate n (0, c)) t.2),
        counter (members (List.replicate n (0, c)) t.2).length)) = List.replicate k (c, 0) := by
    rw [List.eq_replicate_iff]
    constructor
    · rw [List.length_map, List.length_zipIdx, List.length_replicate]
    · intro tally listed
      rcases List.mem_map.mp listed with ⟨t, member, rfl⟩
      rcases List.mem_zipIdx member with ⟨later, -, same⟩
      rw [List.getElem_replicate] at same
      rw [same, members_replicate, if_neg (Nat.ne_of_gt later), moved_nil, List.length_nil,
        counter_zero]
  rw [clusters_eq, assign_replicate, List.replicate_succ, List.zipIdx_cons, List.map_cons, others,
    members_replicate, if_pos rfl, List.length_replicate]

section Resting

variable (resting : moved c (List.replicate n c) = c)

include resting

theorem pass_replicate (k : Nat) :
    pass (List.replicate n c) (List.replicate (k + 1) c) = List.replicate (k + 1) c := by
  rw [pass, clusters_replicate, List.map_cons, List.map_replicate, resting, List.replicate_succ]

theorem centroids_replicate (k passes : Nat) :
    centroids (List.replicate n c) k passes = List.replicate (min k n) c := by
  induction passes with
  | zero => rw [centroids_zero, seeds_replicate]
  | succ passes ih =>
      rw [centroids_succ, ih]
      cases min k n with
      | zero => rfl
      | succ count => exact pass_replicate resting count

/-- A color that its pixels do not move is the only one that is listed, under what they count. -/
theorem byClusters_replicate (wanted : 0 < k) (present : 0 < n) {iterations : Nat}
    (repeated : 0 < iterations) :
    byClusters (List.replicate n c) k iterations = rank n [(c, counter n)] := by
  obtain ⟨passes, rfl⟩ := Nat.exists_eq_add_of_le' repeated
  obtain ⟨m, count⟩ : ∃ m, min k n = m + 1 := ⟨min k n - 1, by omega⟩
  rw [byClusters, centroids_replicate resting, count, clusters_replicate, resting,
    List.length_replicate, rank_cons_replicate]

end Resting

theorem byClusters_one_color (c : Rgb) (wanted : 0 < k) {iterations : Nat}
    (repeated : 0 < iterations) (present : 0 < n) (small : n < 2 ^ 32) :
    byClusters (List.replicate n c) k iterations = [Color.counted c n n] := by
  rw [byClusters_replicate (moved_replicate c small) wanted present repeated, counter_of_lt small,
    rank_single n c present]

theorem isGrayscale_replicate (c : Rgb) (present : 0 < n) :
    isGrayscale (List.replicate n c) = isGray c := by
  rw [isGrayscale, List.length_replicate, List.countP_replicate]
  cases isGray c with
  | false => exact decide_eq_false (Nat.not_lt_zero (9 * n))
  | true => exact decide_eq_true (Nat.mul_lt_mul_of_pos_right (by decide) present)

end Palette

theorem Palette.isMonochromatic_of_whole {p : Palette}
    (only : p.dominant = some (.counted c n n)) (size : p.sampleSize = n) (present : 0 < n)
    (small : n < 2 ^ 32) {threshold : Float} (atMost : threshold ≤ 1) :
    p.isMonochromatic threshold = true := by
  have share : p.dominantShare = Float.ofNat n / Float.ofNat n := by
    simp only [dominantShare, only, size, if_neg present.ne']
    rfl
  have bound : n < 2 ^ 64 := small.trans (by decide)
  rw [isMonochromatic, only, share, ofNat_div_self present bound, Bool.and_eq_true]
  exact ⟨rfl, decide_eq_true atMost⟩

structure Analysis.OfOneColor (c : Rgb) (n : Nat) (a : Analysis) : Prop where
  colors : a.palette.colors = [.counted c n n]
  average : a.palette.average = some ⟨c, none⟩
  sampleSize : a.palette.sampleSize = n
  isMonochromatic : a.isMonochromatic = true
  isGrayscale : a.isGrayscale = isGray c

theorem Analysis.ofSample_replicate {s : Settings} (valid : s.isValid = true)
    (strategy : s.palette.quantizer = .clusters) (c : Rgb) (present : 0 < n)
    (small : n < 2 ^ 32) : (ofSample s.palette (List.replicate n c)).OfOneColor c n := by
  have colors : quantize s.palette (List.replicate n c) = [.counted c n n] := by
    rw [quantize, strategy]
    exact byClusters_one_color c (Settings.colorCount_pos valid) (Settings.iterations_pos valid)
      present small
  constructor
  case colors => exact colors
  case average =>
    show average? (List.replicate n c) = _
    rw [average_of_present (replicate_ne_nil c present), mean_replicate c present small]
  case sampleSize => exact List.length_replicate
  case isMonochromatic =>
    apply isMonochromatic_of_whole (congrArg List.head? colors) List.length_replicate present small
    exact (Settings.sound_of_isValid valid).monochromaticThreshold.upper
  case isGrayscale => exact isGrayscale_replicate c present

end ImageDigest
