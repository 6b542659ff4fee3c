import ImageDigest.Proofs.Palette.Descent

/-! After finitely many passes the centroids stay where they are. A pass that leaves the sum of the
squared distances as it is only breaks ties upwards, so no pass leads back to where another began.
-/

namespace ImageDigest.Palette

open Number

variable {pixels current own : List Rgb} {i : Nat}

section Ties

/-- Of two values at one distance from the pixels the rounded mean is the larger. -/
theorem le_meanChannel_of_spread {channel : Rgb → UInt8} {value : UInt8}
    (small : own.length < 2 ^ 32) (present : own ≠ [])
    (tie : spread channel value own ≤ spread channel (meanChannel channel own.length own) own) :
    value ≤ meanChannel channel own.length own := by
  have positive := List.length_pos_iff.mpr present
  have upper := ((halfUp_eq_iff positive).mp (meanChannel_toNat small channel present).symm).2
  rw [← Nat.cast_le (α := ℤ), spread_cast, spread_cast] at tie
  rw [UInt8.le_iff_toNat_le]
  generalize (meanChannel channel own.length own).toNat = m at upper tie ⊢
  generalize value.toNat = v at tie ⊢
  generalize channelSum channel own = S at upper tie
  generalize own.length = n at upper tie positive
  by_contra above
  have next : (m : ℤ) + 1 ≤ v := by exact_mod_cast Nat.not_le.mp above
  have upper : (2 * S + n : ℤ) < 2 * (m + 1) * n := by exact_mod_cast upper
  have room : (0 : ℤ) < n := by exact_mod_cast positive
  have gain : (0 : ℤ) < (v - m) * ((v + m) * n - 2 * S) := mul_pos (by linarith) (by nlinarith)
  linarith

def darkness (c : Rgb) : Nat :=
  (255 - c.red.toNat) + (255 - c.green.toNat) + (255 - c.blue.toNat)

theorem eq_or_darkness_lt {c d : Rgb} (red : c.red ≤ d.red) (green : c.green ≤ d.green)
    (blue : c.blue ≤ d.blue) : d = c ∨ darkness d < darkness c := by
  obtain ⟨r, g, b⟩ := c
  obtain ⟨r', g', b'⟩ := d
  have reds := r'.toNat_lt
  have greens := g'.toNat_lt
  have blues := b'.toNat_lt
  simp only [UInt8.le_iff_toNat_le] at red green blue
  simp only [darkness, Rgb.mk.injEq, ← UInt8.toNat_inj]
  omega

/-- A centroid that comes no closer to its pixels gets brighter or stays. -/
theorem darkness_moved (small : own.length < 2 ^ 32) (c : Rgb)
    (tie : spreadAround c own ≤ spreadAround (moved c own) own) :
    moved c own = c ∨ darkness (moved c own) < darkness c := by
  by_cases present : own = []
  · exact .inl (by rw [present, moved_nil])
  rw [moved_of_present small c present] at tie ⊢
  rw [spreadAround_eq, spreadAround_eq] at tie
  have red := spread_mean_le small Rgb.red present c.red
  have green := spread_mean_le small Rgb.green present c.green
  have blue := spread_mean_le small Rgb.blue present c.blue
  simp only [mean, meanOver] at tie
  apply eq_or_darkness_lt
  · exact le_meanChannel_of_spread small present (by omega)
  · exact le_meanChannel_of_spread small present (by omega)
  · exact le_meanChannel_of_spread small present (by omega)

end Ties

section Run

theorem total_map_eq_sum (f : Rgb → Nat) (colors : List Rgb) :
    total (colors.map f) = ∑ i ∈ Finset.range colors.length, f (colors.getD i default) := by
  induction colors with
  | nil => rfl
  | cons c rest ih =>
      rw [List.map_cons, total_cons, ih, List.length_cons, Finset.sum_range_succ', Nat.add_comm]
      rfl

theorem spreadAround_of_tie (small : pixels.length < 2 ^ 32) (present : current ≠ [])
    (tie : cost current pixels ≤ cost (pass pixels current) pixels) (inside : i < current.length) :
    spreadAround (current.getD i default) (members (assign current pixels) i) ≤
      spreadAround ((pass pixels current).getD i default) (members (assign current pixels) i) := by
  have each : ∀ i ∈ Finset.range current.length,
      spreadAround ((pass pixels current).getD i default) (members (assign current pixels) i) ≤
        spreadAround (current.getD i default) (members (assign current pixels) i) :=
    fun i member => spreadAround_pass_le small (Finset.mem_range.mp member)
  have sums := (tie.trans (cost_pass_le_sum present pixels)).trans (Finset.sum_le_sum each)
  rw [cost_eq_sum present] at tie sums
  have same := le_antisymm (Finset.sum_le_sum each) (tie.trans (cost_pass_le_sum present pixels))
  exact ((Finset.sum_eq_sum_iff_of_le each).mp same i (Finset.mem_range.mpr inside)).ge

theorem darkness_pass (small : pixels.length < 2 ^ 32) (present : current ≠ [])
    (tie : cost current pixels ≤ cost (pass pixels current) pixels) (inside : i < current.length) :
    (pass pixels current).getD i default = current.getD i default ∨
      darkness ((pass pixels current).getD i default) < darkness (current.getD i default) := by
  have apart := spreadAround_of_tie small present tie inside
  rw [pass_getD inside] at apart ⊢
  exact darkness_moved (members_assign_lt small i) _ apart

theorem exists_moved (moves : pass pixels current ≠ current) :
    ∃ i < current.length, (pass pixels current).getD i default ≠ current.getD i default := by
  by_contra none
  push Not at none
  apply moves
  apply List.ext_getElem (pass_length pixels current)
  intro i inside inside'
  have same := none i inside'
  rwa [List.getD_eq_getElem _ _ inside, List.getD_eq_getElem _ _ inside'] at same

/-- A pass that moves a centroid makes the sum of the distances smaller, or leaves it as it is and
makes the centroids brighter. -/
theorem pass_descends (small : pixels.length < 2 ^ 32) (moves : pass pixels current ≠ current) :
    cost (pass pixels current) pixels < cost current pixels ∨
      cost (pass pixels current) pixels = cost current pixels ∧
        total ((pass pixels current).map darkness) < total (current.map darkness) := by
  have present : current ≠ [] := by
    rintro rfl
    exact moves rfl
  rcases Nat.lt_or_eq_of_le (cost_pass_le small current) with less | tie
  · exact .inl less
  refine .inr ⟨tie, ?_⟩
  rw [total_map_eq_sum, total_map_eq_sum, pass_length]
  obtain ⟨i, inside, moved⟩ := exists_moved moves
  apply Finset.sum_lt_sum
  · intro j member
    rcases darkness_pass small present tie.ge (Finset.mem_range.mp member) with same | darker
    · rw [same]
    · exact darker.le
  · refine ⟨i, Finset.mem_range.mpr inside, ?_⟩
    exact (darkness_pass small present tie.ge inside).resolve_left moved

theorem exists_settled (small : pixels.length < 2 ^ 32) (current : List Rgb) :
    ∃ passes, pass pixels (afterPasses pixels passes current) =
      afterPasses pixels passes current := by
  by_cases settled : pass pixels current = current
  · exact ⟨0, settled⟩
  · obtain ⟨passes, later⟩ := exists_settled small (pass pixels current)
    refine ⟨passes + 1, ?_⟩
    rwa [afterPasses, if_neg settled]
termination_by (cost current pixels, total (current.map darkness))
decreasing_by
  rcases pass_descends small settled with less | ⟨tie, darker⟩
  · exact Prod.Lex.left _ _ less
  · rw [tie]
    exact Prod.Lex.right _ darker

theorem centroids_settle (small : pixels.length < 2 ^ 32) (k : Nat) :
    ∃ enough, ∀ passes, enough ≤ passes →
      centroids pixels k (passes + 1) = centroids pixels k passes := by
  obtain ⟨enough, settled⟩ := exists_settled small (seeds pixels k)
  refine ⟨enough, fun passes later => ?_⟩
  induction later with
  | refl => rw [centroids_succ]; exact settled
  | step _ ih => rw [centroids_succ, ih, ← centroids_succ, ih]

end Run

end ImageDigest.Palette
