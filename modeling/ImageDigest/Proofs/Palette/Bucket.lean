import ImageDigest.Palette.Bucket
import ImageDigest.Proofs.Palette.Tally
import Mathlib.Data.Finset.Card

namespace ImageDigest.Palette

open Number

section Runs

variable {α : Type} [DecidableEq α]

/-- A member extends the first run behind it or opens a run of its own. -/
theorem runs_cons (a : α) (rest : List α) :
    (∃ n tail, runs rest = (a, n) :: tail ∧ runs (a :: rest) = (a, n + 1) :: tail) ∨
    ((∀ first tail, runs rest = first :: tail → a ≠ first.1) ∧
      runs (a :: rest) = (a, 1) :: runs rest) := by
  simp only [runs, List.foldr_cons]
  cases List.foldr _ [] rest with
  | nil => exact .inr ⟨fun first tail none => absurd none (List.cons_ne_nil _ _).symm, rfl⟩
  | cons run tail =>
      by_cases same : a = run.1
      · subst same
        exact .inl ⟨run.2, tail, rfl, if_pos rfl⟩
      · refine .inr ⟨?_, if_neg same⟩
        rintro first tail' ⟨⟩
        exact same

theorem runs_pos {members : List α} {run : α × Nat} (member : run ∈ runs members) :
    0 < run.2 := by
  induction members generalizing run with
  | nil => cases member
  | cons a rest ih =>
      rcases runs_cons a rest with ⟨n, tail, behind, extended⟩ | ⟨-, opened⟩
      · rw [extended] at member
        rcases List.mem_cons.mp member with rfl | inside
        · exact Nat.succ_pos n
        · apply ih
          rw [behind]
          exact List.mem_cons_of_mem _ inside
      · rw [opened] at member
        rcases List.mem_cons.mp member with rfl | inside
        · exact Nat.one_pos
        · exact ih inside

theorem runs_written (members : List α) :
    (runs members).flatMap (fun run => List.replicate run.2 run.1) = members := by
  induction members with
  | nil => rfl
  | cons a rest ih =>
      rcases runs_cons a rest with ⟨n, tail, behind, extended⟩ | ⟨-, opened⟩
      · rw [behind, List.flatMap_cons] at ih
        rw [extended, List.flatMap_cons, List.replicate_succ, List.cons_append, ih]
      · rw [opened, List.flatMap_cons, ih]
        rfl

theorem total_runs (members : List α) :
    total ((runs members).map Prod.snd) = members.length := by
  have written := congrArg List.length (runs_written members)
  simp only [List.length_flatMap, List.length_replicate] at written
  rw [total_eq_sum, written]

theorem mem_of_run {members : List α} {run : α × Nat} (member : run ∈ runs members) :
    run.1 ∈ members := by
  rw [← runs_written members, List.mem_flatMap]
  exact ⟨run, member, List.mem_replicate.mpr ⟨Nat.ne_of_gt (runs_pos member), rfl⟩⟩

theorem run_of_mem {members : List α} {a : α} (member : a ∈ members) :
    ∃ run ∈ runs members, run.1 = a := by
  rw [← runs_written members, List.mem_flatMap] at member
  rcases member with ⟨run, inside, here⟩
  exact ⟨run, inside, (List.eq_of_mem_replicate here).symm⟩

/-- In a list sorted by a key that tells its members apart, no member has two runs. -/
theorem runs_increasing {key : α → Nat} (injective : ∀ a b, key a = key b → a = b)
    {members : List α} (sorted : members.Pairwise fun a b => key a ≤ key b) :
    (runs members).Pairwise fun r s => key r.1 < key s.1 := by
  induction members with
  | nil => exact .nil
  | cons a rest ih =>
      rcases List.pairwise_cons.mp sorted with ⟨least, sorted⟩
      have increasing := ih sorted
      rcases runs_cons a rest with ⟨n, tail, behind, extended⟩ | ⟨fresh, opened⟩
      · rw [behind] at increasing
        rcases List.pairwise_cons.mp increasing with ⟨ahead, separate⟩
        rw [extended]
        exact List.pairwise_cons.mpr ⟨ahead, separate⟩
      · rw [opened]
        refine List.pairwise_cons.mpr ⟨?_, increasing⟩
        intro run member
        -- a key below the first run behind is below the others, which come after it
        cases behind : runs rest with
        | nil =>
            rw [behind] at member
            cases member
        | cons first tail =>
            have listed : first ∈ runs rest := by
              rw [behind]
              exact List.mem_cons_self
            have before : key a < key first.1 :=
              Nat.lt_of_le_of_ne (least first.1 (mem_of_run listed)) fun equal =>
                fresh first tail behind (injective _ _ equal)
            rw [behind] at member increasing
            rcases List.mem_cons.mp member with rfl | inside
            · exact before
            · exact Nat.lt_trans before ((List.pairwise_cons.mp increasing).1 run inside)

theorem runs_distinct {key : α → Nat} (injective : ∀ a b, key a = key b → a = b)
    {members : List α} (sorted : members.Pairwise fun a b => key a ≤ key b) :
    ((runs members).map Prod.fst).Nodup := by
  apply List.pairwise_map.mpr
  apply (runs_increasing injective sorted).imp
  intro r s before same
  rw [same] at before
  exact Nat.lt_irrefl _ before

theorem runs_length {key : α → Nat} (injective : ∀ a b, key a = key b → a = b)
    {members : List α} (sorted : members.Pairwise fun a b => key a ≤ key b) :
    (runs members).length = members.toFinset.card := by
  have same : ((runs members).map Prod.fst).toFinset = members.toFinset := by
    ext a
    rw [List.mem_toFinset, List.mem_toFinset, List.mem_map]
    constructor
    · intro listed
      rcases listed with ⟨run, member, rfl⟩
      exact mem_of_run member
    · exact run_of_mem
  rw [← same, List.toFinset_card_of_nodup (runs_distinct injective sorted), List.length_map]

theorem count_written {written : List (α × Nat)} (distinct : (written.map Prod.fst).Nodup)
    {run : α × Nat} (member : run ∈ written) :
    (written.flatMap fun r => List.replicate r.2 r.1).count run.1 = run.2 := by
  induction written with
  | nil => cases member
  | cons first rest ih =>
      obtain ⟨absent, behind⟩ := List.nodup_cons.mp distinct
      rw [List.flatMap_cons, List.count_append]
      rcases List.mem_cons.mp member with rfl | later
      · have none : run.1 ∉ rest.flatMap fun r => List.replicate r.2 r.1 := by
          intro present
          obtain ⟨r, listed, here⟩ := List.mem_flatMap.mp present
          rw [List.eq_of_mem_replicate here] at absent
          exact absent (List.mem_map_of_mem listed)
        rw [List.count_replicate_self, List.count_eq_zero_of_not_mem none, Nat.add_zero]
      · have apart : run.1 ∉ List.replicate first.2 first.1 := by
          intro present
          rw [← List.eq_of_mem_replicate present] at absent
          exact absent (List.mem_map_of_mem later)
        rw [List.count_eq_zero_of_not_mem apart, ih behind later, Nat.zero_add]

theorem run_count {key : α → Nat} (injective : ∀ a b, key a = key b → a = b)
    {members : List α} (sorted : members.Pairwise fun a b => key a ≤ key b) {run : α × Nat}
    (member : run ∈ runs members) : run.2 = members.count run.1 := by
  rw [← count_written (runs_distinct injective sorted) member, runs_written]

end Runs

theorem code_injective (c d : Rgb) (same : c.code = d.code) : c = d := by
  have reds := d.red.toNat_lt
  have greens := d.green.toNat_lt
  have blues := d.blue.toNat_lt
  have reds' := c.red.toNat_lt
  have greens' := c.green.toNat_lt
  have blues' := c.blue.toNat_lt
  unfold Rgb.code at same
  have red : c.red = d.red := UInt8.toNat_inj.mp (by omega)
  have green : c.green = d.green := UInt8.toNat_inj.mp (by omega)
  have blue : c.blue = d.blue := UInt8.toNat_inj.mp (by omega)
  cases c
  cases d
  simp_all

section Frequencies

variable (pixels : List Rgb)

theorem sorted_by_code :
    (pixels.mergeSort fun c d => decide (c.code ≤ d.code)).Pairwise fun c d =>
      c.code ≤ d.code :=
  pairwise_mergeSort_key (· ≤ ·) Rgb.code pixels

theorem colorRuns_count {run : Rgb × Nat} (member : run ∈ colorRuns pixels) :
    run.2 = pixels.count run.1 := by
  rw [run_count code_injective (sorted_by_code pixels) member,
    (List.mergeSort_perm pixels _).count_eq]

theorem mem_frequencies {t : Tally} :
    t ∈ frequencies pixels ↔ t.1 ∈ pixels ∧ t.2 = counter (pixels.count t.1) := by
  have perm := List.mergeSort_perm pixels fun c d => decide (c.code ≤ d.code)
  rw [frequencies, List.mem_map]
  constructor
  · rintro ⟨run, member, rfl⟩
    have listed : run.1 ∈ pixels := perm.mem_iff.mp (mem_of_run member)
    exact ⟨listed, congrArg counter (colorRuns_count pixels member)⟩
  · rintro ⟨listed, count⟩
    rcases run_of_mem (perm.mem_iff.mpr listed) with ⟨run, member, same⟩
    refine ⟨run, member, Prod.ext same ?_⟩
    rw [count, colorRuns_count pixels member, same]

theorem frequencies_colors :
    (frequencies pixels).map Prod.fst = (colorRuns pixels).map Prod.fst := by
  rw [frequencies, List.map_map]
  rfl

theorem frequencies_length : (frequencies pixels).length = pixels.toFinset.card := by
  rw [frequencies, colorRuns, List.length_map, runs_length code_injective (sorted_by_code pixels),
    List.toFinset_eq_of_perm _ _ (List.mergeSort_perm pixels _)]

theorem frequencies_distinct : ((frequencies pixels).map Prod.fst).Nodup := by
  rw [frequencies_colors]
  exact runs_distinct code_injective (sorted_by_code pixels)

theorem frequencies_increasing :
    (frequencies pixels).Pairwise fun s t => s.1.code < t.1.code :=
  List.pairwise_map.mpr (runs_increasing code_injective (sorted_by_code pixels))

theorem ranked_frequencies_distinct : ((ranked (frequencies pixels)).map Prod.fst).Nodup := by
  refine ((ranked_perm _).map Prod.fst).nodup_iff.mpr ?_
  exact (frequencies_distinct pixels).sublist (List.filter_sublist.map Prod.fst)

theorem total_colorRuns : total ((colorRuns pixels).map Prod.snd) = pixels.length := by
  rw [colorRuns, total_runs, List.length_mergeSort]

theorem total_frequencies_le : total ((frequencies pixels).map Prod.snd) ≤ pixels.length := by
  calc
    total ((frequencies pixels).map Prod.snd)
        = total ((colorRuns pixels).map fun t => counter t.2) := by
      rw [frequencies, List.map_map]
      rfl
    _ ≤ total ((colorRuns pixels).map Prod.snd) := total_map_le fun t _ => counter_le t.2
    _ = pixels.length := total_colorRuns pixels

section Counted

variable {pixels : List Rgb} (small : pixels.length < 2 ^ 32)

include small

theorem count_lt (c : Rgb) : pixels.count c < 2 ^ 32 :=
  Nat.lt_of_le_of_lt List.count_le_length small

theorem mem_frequencies_iff {t : Tally} :
    t ∈ frequencies pixels ↔ t.1 ∈ pixels ∧ t.2 = pixels.count t.1 := by
  rw [mem_frequencies, counter_of_lt (count_lt small t.1)]

theorem frequencies_pos : ∀ t ∈ frequencies pixels, 0 < t.2 := by
  intro t member
  rcases (mem_frequencies_iff small).mp member with ⟨listed, count⟩
  rw [count]
  exact List.count_pos_iff.mpr listed

theorem frequencies_eq : frequencies pixels = colorRuns pixels := by
  refine (List.map_congr_left ?_).trans (List.map_id _)
  intro t member
  have few : t.2 < 2 ^ 32 := by
    rw [colorRuns_count pixels member]
    exact count_lt small t.1
  exact Prod.ext rfl (counter_of_lt few)

theorem total_frequencies : total ((frequencies pixels).map Prod.snd) = pixels.length := by
  rw [frequencies_eq small, total_colorRuns]

theorem ranked_frequencies_perm : (ranked (frequencies pixels)).Perm (frequencies pixels) :=
  ranked_perm_of_pos (frequencies_pos small)

end Counted

end Frequencies

section Buckets

variable {pixels : List Rgb} {k step : Nat}

/-- The colors that occur once every channel is a multiple of the step. -/
def rounded (step : Nat) (pixels : List Rgb) : List Rgb :=
  pixels.map (Rgb.mapChannels (roundToStep step))

theorem byBuckets_eq (positive : 1 ≤ step) :
    byBuckets pixels k step =
      (rank pixels.length (frequencies (rounded step pixels))).take k :=
  if_neg (Nat.ne_of_gt positive)

theorem byBuckets_nil (k step : Nat) : byBuckets [] k step = [] := by
  unfold byBuckets
  split
  case isTrue => rfl
  case isFalse =>
    have none : frequencies [] = [] := by
      rw [frequencies, colorRuns, List.mergeSort_nil]
      rfl
    rw [List.map_nil, none, rank_nil, List.take_nil]

theorem byBuckets_ranked (positive : 1 ≤ step) : Ranked (byBuckets pixels k step) := by
  rw [byBuckets_eq positive]
  exact (rank_ranked _ _).take k

theorem byBuckets_length_le (pixels : List Rgb) (k step : Nat) :
    (byBuckets pixels k step).length ≤ k := by
  unfold byBuckets
  split
  case isTrue => exact Nat.zero_le k
  case isFalse => exact List.length_take_le _ _

theorem byBuckets_counts (positive : 1 ≤ step) :
    (byBuckets pixels k step).map Color.count =
      ((ranked (frequencies (rounded step pixels))).map Prod.snd).take k := by
  rw [byBuckets_eq positive, List.map_take, rank_counts]

theorem byBuckets_total_le (positive : 1 ≤ step) :
    total ((byBuckets pixels k step).map Color.count) ≤ pixels.length := by
  calc
    total ((byBuckets pixels k step).map Color.count)
        = total (((ranked (frequencies (rounded step pixels))).map Prod.snd).take k) := by
      rw [byBuckets_counts positive]
    _ ≤ total ((ranked (frequencies (rounded step pixels))).map Prod.snd) := total_take_le _ k
    _ ≤ (rounded step pixels).length := by
      rw [total_ranked]
      exact total_frequencies_le _
    _ = pixels.length := List.length_map _

section Counted

variable (small : pixels.length < 2 ^ 32)

include small

theorem rounded_lt (step : Nat) : (rounded step pixels).length < 2 ^ 32 := by
  rwa [rounded, List.length_map]

theorem byBuckets_length (k : Nat) (positive : 1 ≤ step) :
    (byBuckets pixels k step).length = min k (rounded step pixels).toFinset.card := by
  rw [byBuckets_eq positive, List.length_take, rank_length,
    ranked_length_of_pos (frequencies_pos (rounded_lt small step)), frequencies_length]

theorem byBuckets_ne_nil (positive : 1 ≤ step) (wanted : 1 ≤ k) (present : pixels ≠ []) :
    byBuckets pixels k step ≠ [] := by
  have seen : (rounded step pixels).toFinset.card ≠ 0 := by
    rw [Finset.card_ne_zero, List.toFinset_nonempty_iff, rounded, ne_eq, List.map_eq_nil_iff]
    exact present
  intro none
  have length := byBuckets_length small k positive
  rw [none, List.length_nil] at length
  omega

theorem total_ranked_frequencies (step : Nat) :
    total ((ranked (frequencies (rounded step pixels))).map Prod.snd) = pixels.length := by
  rw [total_ranked, total_frequencies (rounded_lt small step), rounded, List.length_map]

theorem byBuckets_total_iff (positive : 1 ≤ step) :
    total ((byBuckets pixels k step).map Color.count) = pixels.length ↔
      (rounded step pixels).toFinset.card ≤ k := by
  have counted : ∀ n ∈ (ranked (frequencies (rounded step pixels))).map Prod.snd, 1 ≤ n := by
    intro n member
    rcases List.mem_map.mp member with ⟨t, inside, rfl⟩
    exact ranked_pos inside
  have cut := total_take_eq_iff counted k
  rwa [total_ranked_frequencies small, List.length_map,
    ranked_length_of_pos (frequencies_pos (rounded_lt small step)), frequencies_length,
    ← byBuckets_counts positive] at cut

end Counted

end Buckets

end ImageDigest.Palette
