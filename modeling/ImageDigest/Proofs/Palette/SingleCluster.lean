import ImageDigest.Proofs.Palette.OneColor
import ImageDigest.Proofs.Palette.Provenance

/-! A single cluster is the whole sample, whichever pixel it grows from, so its color is the average
of the sample. -/

namespace ImageDigest.Palette

open Number

variable {pixels pixels' : List Rgb}

section Order

theorem meanChannel_perm (channel : Rgb → UInt8) (same : pixels.Perm pixels') :
    meanChannel channel pixels.length pixels = meanChannel channel pixels'.length pixels' := by
  rw [meanChannel, meanChannel, channelSum, channelSum, total_perm (same.map _), same.length_eq]

theorem mean_perm (same : pixels.Perm pixels') : mean pixels = mean pixels' := by
  simp only [mean, meanOver, meanChannel_perm _ same]

end Order

section Cluster

/-- The pixel that the passes start from does not matter, nor does their number. -/
theorem byClusters_one (small : pixels.length < 2 ^ 32) (present : pixels ≠ []) {iterations : Nat}
    (repeated : 1 ≤ iterations) :
    byClusters pixels 1 iterations = [.counted (mean pixels) pixels.length pixels.length] := by
  obtain ⟨passes, rfl⟩ := Nat.exists_eq_add_of_le' repeated
  have positive := List.length_pos_iff.mpr present
  have single : (centroids pixels 1 passes).length = 1 := by
    rw [centroids_length, Nat.min_eq_left positive]
  obtain ⟨c, only⟩ := List.length_eq_one_iff.mp single
  rw [byClusters, only, clusters_singleton, moved_of_present small c present, counter_of_lt small]
  exact rank_single pixels.length (mean pixels) positive

/-- Asked for one color, the clustering gives the average of a sample that 32 bits can count,
however often it passes over the sample and in whatever order the pixels come. The color counts all
of them, and each channel of it is their rounded mean, between their smallest and their largest
value. -/
theorem single_cluster (present : pixels ≠ []) (small : pixels.length < 2 ^ 32) :
    ∃ c : Color, c.count? = some pixels.length ∧ Represents pixels.length pixels c ∧
      ∀ pixels', pixels'.Perm pixels →
        (∃ a, average? pixels' = some a ∧ a.rgb = c.rgb) ∧
        ∀ iterations, 1 ≤ iterations → byClusters pixels' 1 iterations = [c] := by
  refine ⟨.counted (mean pixels) pixels.length pixels.length, rfl,
    counted_mean_represents pixels.length small present, ?_⟩
  intro pixels' same
  have present' : pixels' ≠ [] := by
    intro none
    rw [none] at same
    exact present same.symm.eq_nil
  constructor
  · exact ⟨_, average_of_present present', mean_perm same⟩
  · intro iterations repeated
    have few : pixels'.length < 2 ^ 32 := by rwa [same.length_eq]
    rw [byClusters_one few present' repeated, mean_perm same, same.length_eq]

theorem single_cluster_halves :
    byClusters [⟨0, 0, 255⟩, ⟨1, 7, 0⟩] 1 3 = [.counted ⟨1, 4, 128⟩ 2 2] ∧
    byClusters [⟨1, 7, 0⟩, ⟨0, 0, 255⟩] 1 1 = [.counted ⟨1, 4, 128⟩ 2 2] ∧
    Represents 2 [⟨0, 0, 255⟩, ⟨1, 7, 0⟩] (.counted ⟨1, 4, 128⟩ 2 2) := by
  obtain ⟨c, -, represents, orders⟩ :=
    single_cluster (List.cons_ne_nil ⟨0, 0, 255⟩ [⟨1, 7, 0⟩]) (by decide)
  obtain ⟨⟨a, average, rgb⟩, passes⟩ := orders _ (.refl _)
  have halves : mean [⟨0, 0, 255⟩, ⟨1, 7, 0⟩] = ⟨1, 4, 128⟩ := by decide +kernel
  have found : c = .counted ⟨1, 4, 128⟩ 2 2 := by
    cases average
    calc
      c = ⟨c.rgb, c.share⟩ := rfl
      _ = ⟨mean [⟨0, 0, 255⟩, ⟨1, 7, 0⟩], some (Share.of 2 2)⟩ := by
        rw [represents.share, ← rgb]
        rfl
      _ = .counted ⟨1, 4, 128⟩ 2 2 := by
        rw [halves]
        rfl
  subst found
  exact ⟨passes 3 (by decide), (orders _ (.swap _ _ _)).2 1 (by decide), represents⟩

end Cluster

end ImageDigest.Palette
