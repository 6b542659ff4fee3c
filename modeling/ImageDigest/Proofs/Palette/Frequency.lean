import ImageDigest.Proofs.Palette.Bucket

/-! Buckets are the head of a table of frequencies: every rounded color once, with the number of the
pixels that are rounded to it, the most frequent first. -/

namespace ImageDigest

namespace Rgb

def Before (c d : Rgb) : Prop :=
  c.red < d.red ∨ c.red = d.red ∧ (c.green < d.green ∨ c.green = d.green ∧ c.blue < d.blue)

theorem code_lt_iff {c d : Rgb} : c.code < d.code ↔ c.Before d := by
  have greens := c.green.toNat_lt
  have blues := c.blue.toNat_lt
  have greens' := d.green.toNat_lt
  have blues' := d.blue.toNat_lt
  simp only [code, Before, UInt8.lt_iff_toNat_lt, ← UInt8.toNat_inj]
  omega

end Rgb

namespace Palette

variable {pixels pixels' : List Rgb} {step : Nat}

section Rounding

/-- The multiple of the step that `v` is rounded to. -/
def multiple (step v : Nat) : Nat := step * ((v + step / 2) / step)

theorem roundToStep_toNat (step : Nat) (v : UInt8) :
    (roundToStep step v).toNat = min 255 (multiple step v.toNat) := by
  rw [roundToStep, multiple, Nat.mul_comm step]
  exact UInt8.toNat_ofNat_of_lt' (Nat.lt_succ_of_le (Nat.min_le_left _ _))

theorem multiple_nearest (positive : 1 ≤ step) (v : Nat) {m : Nat} (divides : step ∣ m) :
    ((multiple step v : Int) - v).natAbs ≤ ((m : Int) - v).natAbs := by
  obtain ⟨j, rfl⟩ := divides
  have lower : step * ((v + step / 2) / step) ≤ v + step / 2 := Nat.mul_div_le _ _
  have upper : v + step / 2 < step * ((v + step / 2) / step + 1) := Nat.lt_mul_div_succ _ positive
  rw [multiple]
  generalize (v + step / 2) / step = q at lower upper ⊢
  rw [Nat.mul_add, Nat.mul_one] at upper
  rcases Nat.lt_trichotomy j q with before | rfl | behind
  · have apart := Nat.mul_le_mul_left step before
    rw [Nat.mul_succ] at apart
    omega
  · exact le_rfl
  · have apart := Nat.mul_le_mul_left step behind
    rw [Nat.mul_succ] at apart
    omega

end Rounding

section Table

def bucketSize (step : Nat) (pixels : List Rgb) (c : Rgb) : Nat :=
  pixels.countP fun p => p.mapChannels (roundToStep step) = c

/-- More pixels are rounded to `c` than to `d`, or as many and `c` is the smaller color. -/
def Outranks (step : Nat) (pixels : List Rgb) (c d : Rgb) : Prop :=
  bucketSize step pixels d < bucketSize step pixels c ∨
    bucketSize step pixels c = bucketSize step pixels d ∧ c.Before d

def roundedColors (step : Nat) (pixels : List Rgb) : List Rgb :=
  (ranked (frequencies (rounded step pixels))).map Prod.fst

theorem count_rounded (step : Nat) (pixels : List Rgb) (c : Rgb) :
    (rounded step pixels).count c = bucketSize step pixels c := by
  rw [List.count_eq_countP, rounded, List.countP_map]
  rfl

section Counted

variable (small : pixels.length < 2 ^ 32)

include small

theorem mem_ranked_frequencies {t : Tally} :
    t ∈ ranked (frequencies (rounded step pixels)) ↔
      t.1 ∈ rounded step pixels ∧ t.2 = bucketSize step pixels t.1 := by
  have few := rounded_lt small step
  rw [(ranked_frequencies_perm few).mem_iff, mem_frequencies_iff few, count_rounded]

theorem mem_roundedColors {c : Rgb} :
    c ∈ roundedColors step pixels ↔ ∃ p ∈ pixels, p.mapChannels (roundToStep step) = c := by
  rw [← List.mem_map (l := pixels)]
  constructor
  · intro listed
    obtain ⟨t, member, rfl⟩ := List.mem_map.mp listed
    exact ((mem_ranked_frequencies small).mp member).1
  · intro present
    exact List.mem_map.mpr ⟨(c, bucketSize step pixels c),
      (mem_ranked_frequencies small).mpr ⟨present, rfl⟩, rfl⟩

theorem roundedColors_outranks (step : Nat) :
    (roundedColors step pixels).Pairwise (Outranks step pixels) := by
  have distinct := (frequencies_distinct (rounded step pixels)).of_map
  have increasing := frequencies_increasing (rounded step pixels)
  have counts := ranked_decreasing (frequencies (rounded step pixels))
  apply List.pairwise_map.mpr
  refine (counts.and (ranked_ties distinct increasing)).imp_of_mem ?_
  intro s t first second both
  obtain ⟨atMost, tie⟩ := both
  rw [Outranks, ← ((mem_ranked_frequencies small).mp first).2,
    ← ((mem_ranked_frequencies small).mp second).2]
  rcases Nat.lt_or_eq_of_le atMost with fewer | same
  · exact .inl fewer
  · exact .inr ⟨same.symm, Rgb.code_lt_iff.mp (tie same.ge)⟩

theorem byBuckets_eq_map (positive : 1 ≤ step) (k : Nat) :
    byBuckets pixels k step =
      ((roundedColors step pixels).take k).map fun c =>
        Color.counted c (bucketSize step pixels c) pixels.length := by
  rw [byBuckets_eq positive, rank, roundedColors, ← List.map_take, ← List.map_take, List.map_map]
  apply List.map_congr_left
  intro t member
  rw [((mem_ranked_frequencies small).mp (List.mem_of_mem_take member)).2]
  rfl

end Counted

theorem frequencies_perm (same : pixels'.Perm pixels) :
    frequencies pixels' = frequencies pixels := by
  rw [frequencies, frequencies, colorRuns, colorRuns]
  congr 2
  apply List.Perm.eq_of_pairwise _ (sorted_by_code pixels') (sorted_by_code pixels)
  · exact (List.mergeSort_perm _ _).trans (same.trans (List.mergeSort_perm _ _).symm)
  · intro c d _ _ least most
    exact code_injective c d (Nat.le_antisymm least most)

theorem byBuckets_perm (positive : 1 ≤ step) (same : pixels'.Perm pixels) (k : Nat) :
    byBuckets pixels' k step = byBuckets pixels k step := by
  rw [byBuckets_eq positive, byBuckets_eq positive, same.length_eq, rounded, rounded,
    frequencies_perm (same.map _)]

theorem byBuckets_isPrefix (positive : 1 ≤ step) (pixels : List Rgb) {k k' : Nat} (fewer : k ≤ k') :
    byBuckets pixels k step <+: byBuckets pixels k' step := by
  rw [byBuckets_eq positive, byBuckets_eq positive]
  exact List.take_prefix_take_left fewer

/-- Every channel is rounded to the nearest multiple of the step, and no more than 255. Each color
that pixels are rounded to stands once in a table, with the number of these pixels (which 32 bits
must be able to count), the most frequent color first and of equally frequent ones the smallest;
buckets are the first `k` entries. So the order of the pixels does not matter, and fewer buckets are
the first of more. -/
theorem byBuckets_table {pixels : List Rgb} (small : pixels.length < 2 ^ 32) {step : Nat}
    (positive : 1 ≤ step) :
    (∀ v : UInt8,
      (roundToStep step v).toNat = min 255 (multiple step v.toNat) ∧
      ∀ m, step ∣ m →
        ((multiple step v.toNat : Int) - v.toNat).natAbs ≤ ((m : Int) - v.toNat).natAbs) ∧
    (∃ order : List Rgb, order.Nodup ∧
      (∀ c, c ∈ order ↔ ∃ p ∈ pixels, p.mapChannels (roundToStep step) = c) ∧
      order.Pairwise (Outranks step pixels) ∧
      ∀ k, byBuckets pixels k step =
        (order.take k).map fun c => Color.counted c (bucketSize step pixels c) pixels.length) ∧
    (∀ pixels' : List Rgb, pixels'.Perm pixels → ∀ k,
      byBuckets pixels' k step = byBuckets pixels k step) ∧
    ∀ k k', k ≤ k' → byBuckets pixels k step <+: byBuckets pixels k' step := by
  refine ⟨?_, ?_, ?_, ?_⟩
  · intro v
    exact ⟨roundToStep_toNat step v, fun m divides => multiple_nearest positive v.toNat divides⟩
  · exact ⟨roundedColors step pixels, ranked_frequencies_distinct _,
      fun _ => mem_roundedColors small, roundedColors_outranks small step,
      byBuckets_eq_map small positive⟩
  · intro pixels' same k
    exact byBuckets_perm positive same k
  · intro k k' fewer
    exact byBuckets_isPrefix positive pixels fewer

/-- Two pixels that a step of ten rounds to one color, and two others. -/
def tiedPixels : List Rgb := [⟨14, 15, 255⟩, ⟨200, 0, 0⟩, ⟨6, 24, 255⟩, ⟨0, 0, 200⟩]

theorem byBuckets_table_tie :
    (roundToStep 10 255).toNat = 255 ∧
    (∃ order : List Rgb, ⟨10, 20, 255⟩ ∈ order ∧ order.Pairwise (Outranks 10 tiedPixels) ∧
      byBuckets tiedPixels 2 10 =
        (order.take 2).map fun c => Color.counted c (bucketSize 10 tiedPixels c) 4) ∧
    byBuckets tiedPixels.reverse 2 10 = byBuckets tiedPixels 2 10 ∧
    byBuckets tiedPixels 1 10 <+: byBuckets tiedPixels 2 10 := by
  have small : tiedPixels.length < 2 ^ 32 := by decide
  obtain ⟨channel, ⟨order, -, members, ranked, buckets⟩, shuffled, fewer⟩ :=
    byBuckets_table small (show 1 ≤ 10 by decide)
  have listed : ⟨10, 20, 255⟩ ∈ order :=
    (members _).mpr ⟨⟨14, 15, 255⟩, List.mem_cons_self, by decide⟩
  exact ⟨(channel 255).1, ⟨order, listed, ranked, buckets 2⟩,
    shuffled _ (List.reverse_perm tiedPixels) 2, fewer 1 2 (by decide)⟩

end Table

end Palette

end ImageDigest
