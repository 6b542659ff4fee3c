import ImageDigest.Proofs.Palette.Analysis
import ImageDigest.Proofs.Palette.Partition
import ImageDigest.Proofs.Palette.Settling

/-! When a palette lists a color twice. Buckets never do; clusters do where their centroids have
moved to one color in the last pass. -/

namespace ImageDigest

open Number

/-- The pixels of a palette that are reported under a color. -/
def Palette.reported (p : Palette) (c : Rgb) : Nat :=
  total ((p.colors.filter fun d => d.rgb = c).map Color.count)

namespace Palette

variable {pixels current : List Rgb} {i j k : Nat}

section Buckets

theorem byBuckets_distinct (pixels : List Rgb) (k step : Nat) :
    ((byBuckets pixels k step).map Color.rgb).Nodup := by
  by_cases positive : 1 ≤ step
  · rw [byBuckets_eq positive, List.map_take, rank_colors]
    exact (ranked_frequencies_distinct _).sublist (List.take_sublist k _)
  · have none : step = 0 := by omega
    rw [byBuckets, if_pos none]
    exact List.nodup_nil

end Buckets

section Clusters

theorem byClusters_colors (pixels : List Rgb) (k passes : Nat) :
    (byClusters pixels k (passes + 1)).map Color.rgb =
      (listing pixels (centroids pixels k passes)).map fun i =>
        (centroids pixels k (passes + 1)).getD i default := by
  rw [byClusters, rank_colors, ranked_clusters, List.map_map]
  apply List.map_congr_left
  intro i listed
  have inside := inside_of_cluster (present_of_listed listed)
  rw [centroids_succ, pass_getD inside, members_assign inside]
  rfl

def Moves (pixels : List Rgb) (k passes i : Nat) : Prop :=
  (centroids pixels k (passes + 1)).getD i default ≠ (centroids pixels k passes).getD i default

theorem listing_moves (pixels : List Rgb) (k passes : Nat) :
    (listing pixels (centroids pixels k passes)).Pairwise fun i j =>
      (centroids pixels k (passes + 1)).getD i default =
          (centroids pixels k (passes + 1)).getD j default →
        Moves pixels k passes i ∨ Moves pixels k passes j := by
  refine List.Pairwise.imp_of_mem ?_ (listing_nodup pixels (centroids pixels k passes))
  intro i j first second differ same
  by_contra resting
  rw [not_or, Moves, Moves, not_not, not_not] at resting
  apply centroids_differ first second differ
  rw [← resting.1, ← resting.2, same]

theorem byClusters_distinct {passes : Nat}
    (settled : centroids pixels k (passes + 1) = centroids pixels k passes) :
    ((byClusters pixels k (passes + 1)).map Color.rgb).Nodup := by
  rw [byClusters_colors]
  apply List.pairwise_map.mpr
  apply (listing_moves pixels k passes).imp
  intro i j moves same
  have resting (n : Nat) : ¬ Moves pixels k passes n := by
    rw [Moves, settled, not_not]
  exact (moves same).elim (resting i) (resting j)

end Clusters

section Account

/-- The dominant color, its share and the test for one color all count what is reported under the
color. -/
structure Accounts (p : Palette) : Prop where
  count : ∀ c, p.dominant = some c → c.count = p.reported c.rgb
  share : ∀ c, p.dominant = some c →
    p.dominantShare = Float.ofNat (p.reported c.rgb) / Float.ofNat p.sampleSize
  monochromatic : ∀ c, p.dominant = some c → ∀ threshold : Float,
    p.isMonochromatic threshold =
      decide (threshold ≤ Float.ofNat (p.reported c.rgb) / Float.ofNat p.sampleSize)

theorem reported_head {p : Palette} {c : Color} {rest : List Color} (listed : p.colors = c :: rest)
    (distinct : (p.colors.map Color.rgb).Nodup) : p.reported c.rgb = c.count := by
  rw [listed, List.map_cons, List.nodup_cons] at distinct
  have others : rest.filter (fun d => d.rgb = c.rgb) = [] := by
    apply List.filter_eq_nil_iff.mpr
    intro d member
    rw [decide_eq_true_eq]
    exact fun same => distinct.1 (same ▸ List.mem_map_of_mem member)
  rw [reported, listed, List.filter_cons_of_pos (by simp), others]
  exact (total_cons _ _).trans (Nat.add_zero _)

theorem ofSample_accounts {s : PaletteSettings}
    (distinct : ((quantize s pixels).map Color.rgb).Nodup) : Accounts (ofSample s pixels) := by
  have count : ∀ c, (ofSample s pixels).dominant = some c →
      c.count = (ofSample s pixels).reported c.rgb := by
    intro c first
    obtain ⟨rest, listed⟩ := List.head?_eq_some_iff.mp first
    exact (reported_head listed distinct).symm
  have share : ∀ c, (ofSample s pixels).dominant = some c →
      (ofSample s pixels).dominantShare =
        Float.ofNat ((ofSample s pixels).reported c.rgb) /
          Float.ofNat (ofSample s pixels).sampleSize := by
    intro c first
    have present : (ofSample s pixels).sampleSize ≠ 0 := by
      intro none
      have nothing : pixels = [] := List.length_eq_zero_iff.mp none
      subst nothing
      rw [show (ofSample s []).dominant = (quantize s []).head? from rfl,
        quantize_of_nothing] at first
      cases first
    rw [dominantShare, first, ← count c first]
    exact if_neg present
  refine ⟨count, share, ?_⟩
  intro c first threshold
  rw [isMonochromatic, first, share c first]
  rfl

end Account

section Quantize

/-- Seven pixels that lie on both sides of an oblique plane between the first and the fourth. -/
def obliquePixels : List Rgb :=
  [⟨0, 0, 0⟩, ⟨0, 1, 0⟩, ⟨0, 1, 0⟩, ⟨1, 2, 0⟩, ⟨2, 0, 0⟩, ⟨1, 1, 0⟩, ⟨1, 1, 0⟩]

/-- Two clusters with means that are rounded to one color: one pass leaves four pixels on the one
side of the plane and three on the other. What is reported under the color is more than the
dominant color counts. -/
theorem quantize_repeats :
    quantize { quantizer := .clusters, colorCount := 2, iterations := 1 } obliquePixels =
      [.counted ⟨1, 1, 0⟩ 4 7, .counted ⟨1, 1, 0⟩ 3 7] ∧
    ¬ ((quantize { quantizer := .clusters, colorCount := 2, iterations := 1 } obliquePixels).map
      Color.rgb).Nodup ∧
    (ofSample { quantizer := .clusters, colorCount := 2, iterations := 1 } obliquePixels).reported
      ⟨1, 1, 0⟩ = 7 := by
  have last : clusters obliquePixels (seeds obliquePixels 2) =
      [(⟨1, 1, 0⟩, 4), (⟨1, 1, 0⟩, 3)] := by decide +kernel
  have sorted : ranked [(⟨1, 1, 0⟩, 4), (⟨1, 1, 0⟩, 3)] = [(⟨1, 1, 0⟩, 4), (⟨1, 1, 0⟩, 3)] :=
    List.mergeSort_of_pairwise (by decide)
  have listed :
      quantize { quantizer := .clusters, colorCount := 2, iterations := 1 } obliquePixels =
        [.counted ⟨1, 1, 0⟩ 4 7, .counted ⟨1, 1, 0⟩ 3 7] := by
    show rank 7 (clusters obliquePixels (seeds obliquePixels 2)) = _
    rw [last, rank, sorted]
    rfl
  refine ⟨listed, ?_, ?_⟩
  · rw [listed]
    decide
  · rw [reported, ofSample, listed]
    rfl

/-- Buckets list no color twice. Clusters list one twice only if the last pass has moved the
centroid of one of the two, so not where it has moved none; and for a sample that 32 bits can count
that is so from some number of passes on. Where no color is listed twice, the dominant color
accounts for all that is reported under it. -/
theorem quantize_repeats_only_moved (s : PaletteSettings) (pixels : List Rgb) :
    (s.quantizer = .buckets → ((quantize s pixels).map Color.rgb).Nodup) ∧
    (s.quantizer = .clusters → ∀ passes, s.iterations = passes + 1 →
      (∃ order : List Nat, order.Nodup ∧
        (∀ i ∈ order, cluster pixels (centroids pixels s.colorCount passes) i ≠ []) ∧
        (pixels.length < 2 ^ 32 → ∀ i,
          cluster pixels (centroids pixels s.colorCount passes) i ≠ [] → i ∈ order) ∧
        (quantize s pixels).map Color.rgb =
          order.map (fun i => (centroids pixels s.colorCount (passes + 1)).getD i default) ∧
        order.Pairwise fun i j =>
          (centroids pixels s.colorCount (passes + 1)).getD i default =
              (centroids pixels s.colorCount (passes + 1)).getD j default →
            Moves pixels s.colorCount passes i ∨ Moves pixels s.colorCount passes j) ∧
      (centroids pixels s.colorCount (passes + 1) = centroids pixels s.colorCount passes →
        ((quantize s pixels).map Color.rgb).Nodup)) ∧
    (pixels.length < 2 ^ 32 → ∃ enough, ∀ iterations, enough ≤ iterations →
      ((quantize { s with iterations := iterations } pixels).map Color.rgb).Nodup) ∧
    (((quantize s pixels).map Color.rgb).Nodup → Accounts (ofSample s pixels)) := by
  refine ⟨?_, ?_, ?_, ofSample_accounts⟩
  · intro strategy
    rw [quantize, strategy]
    exact byBuckets_distinct _ _ _
  · intro strategy passes count
    rw [quantize, strategy, count]
    refine ⟨⟨listing pixels (centroids pixels s.colorCount passes), listing_nodup _ _,
      fun _ => present_of_listed, ?_, byClusters_colors _ _ _, listing_moves _ _ _⟩,
      byClusters_distinct⟩
    exact fun small _ => (mem_listing_iff small).mpr
  · intro small
    obtain ⟨enough, settled⟩ := centroids_settle small s.colorCount
    refine ⟨enough + 1, fun iterations later => ?_⟩
    obtain ⟨passes, rfl⟩ : ∃ passes, iterations = passes + 1 := ⟨iterations - 1, by omega⟩
    rw [quantize]
    cases s.quantizer with
    | clusters => exact byClusters_distinct (settled passes (by omega))
    | buckets => exact byBuckets_distinct _ _ _

theorem quantize_repeats_only_moved_settled :
    centroids obliquePixels 2 3 = centroids obliquePixels 2 2 ∧
    ((quantize { quantizer := .clusters, colorCount := 2, iterations := 3 } obliquePixels).map
      Color.rgb).Nodup ∧
    Accounts
      (ofSample { quantizer := .clusters, colorCount := 2, iterations := 3 } obliquePixels) := by
  have settled : centroids obliquePixels 2 3 = centroids obliquePixels 2 2 := by decide +kernel
  obtain ⟨-, clusters, -, accounts⟩ := quantize_repeats_only_moved
    { quantizer := .clusters, colorCount := 2, iterations := 3 } obliquePixels
  have distinct := (clusters rfl 2 rfl).2 settled
  exact ⟨settled, distinct, accounts distinct⟩

end Quantize

end Palette

end ImageDigest
