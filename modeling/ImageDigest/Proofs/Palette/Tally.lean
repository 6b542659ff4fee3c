import ImageDigest.Palette.Tally
import ImageDigest.Proofs.Number.Total
import Mathlib.Data.List.Nodup
import Mathlib.Data.List.Pairwise

namespace ImageDigest

open Number

/-- The number of pixels that a color stands for; 0 if it was never counted. -/
def Color.count (c : Color) : Nat := c.count?.getD 0

namespace Palette

section Counting

variable {n : Nat}

theorem counter_of_lt (small : n < 2 ^ 32) : counter n = n := UInt32.toNat_ofNat_of_lt' small

theorem counter_le (n : Nat) : counter n ≤ n := by
  rw [counter, UInt32.toNat_ofNat']
  exact Nat.mod_le _ _

@[simp] theorem counter_zero : counter 0 = 0 := rfl

theorem pos_of_counter (counted : 0 < counter n) : 0 < n :=
  Nat.lt_of_lt_of_le counted (counter_le n)

end Counting

theorem ranked_perm (tallies : List Tally) :
    (ranked tallies).Perm (tallies.filter fun t => 0 < t.2) :=
  List.mergeSort_perm _ _

section Sorting

variable {α β : Type} (r : β → β → Prop) [DecidableRel r] (key : α → β)

theorem decide_key_trans [IsTrans β r] (a b c : α) (first : decide (r (key a) (key b)) = true)
    (second : decide (r (key b) (key c)) = true) : decide (r (key a) (key c)) = true :=
  decide_eq_true (Trans.trans (of_decide_eq_true first) (of_decide_eq_true second))

theorem decide_key_total [Std.Total r] (a b : α) :
    (decide (r (key a) (key b)) || decide (r (key b) (key a))) = true := by
  rw [Bool.or_eq_true, decide_eq_true_eq, decide_eq_true_eq]
  exact Std.Total.total (key a) (key b)

theorem pairwise_mergeSort_key [IsTrans β r] [Std.Total r] (members : List α) :
    (members.mergeSort fun a b => decide (r (key a) (key b))).Pairwise fun a b =>
      r (key a) (key b) :=
  (List.pairwise_mergeSort (decide_key_trans r key) (decide_key_total r key) members).imp
    of_decide_eq_true

variable {members : List α} {a b : α}

theorem pair_sublist_or (differ : a ≠ b) (member : a ∈ members) (member' : b ∈ members) :
    [a, b].Sublist members ∨ [b, a].Sublist members := by
  have ahead : members.Pairwise fun x y => [x, y].Sublist members ∨ [y, x].Sublist members :=
    List.pairwise_iff_forall_sublist.mpr .inl
  have : Std.Symm fun x y => [x, y].Sublist members ∨ [y, x].Sublist members :=
    ⟨fun _ _ => Or.symm⟩
  exact ahead.forall member member' differ

theorem not_pair_sublist_swap (distinct : members.Nodup) (ahead : [a, b].Sublist members) :
    ¬ [b, a].Sublist members := by
  obtain ⟨front, back, rfl, first, second⟩ :=
    List.append_sublist_iff.mp (show ([a] ++ [b]).Sublist members from ahead)
  rw [List.singleton_sublist] at first second
  have apart := List.disjoint_of_nodup_append distinct
  intro swapped
  obtain ⟨before, behind, parts, inFront, inBack⟩ := List.sublist_append_iff.mp swapped
  cases before with
  | nil =>
      have later : a ∈ behind := by
        rw [List.nil_append] at parts
        simp [← parts]
      exact apart first (inBack.subset later)
  | cons c rest =>
      obtain ⟨rfl, -⟩ := List.cons.inj parts
      exact apart (inFront.subset List.mem_cons_self) second

/-- Members that tie come out of a sort in the order in which they went in. -/
theorem pairwise_mergeSort_ties [IsTrans β r] [Std.Total r] {before : α → α → Prop}
    (distinct : members.Nodup) (sorted : members.Pairwise before) :
    (members.mergeSort fun a b => decide (r (key a) (key b))).Pairwise fun a b =>
      r (key b) (key a) → before a b := by
  have perm := List.mergeSort_perm members fun a b => decide (r (key a) (key b))
  have distinct' := perm.nodup_iff.mpr distinct
  rw [List.pairwise_iff_forall_sublist]
  intro a b ahead tie
  have differ : a ≠ b := List.pairwise_iff_forall_sublist.mp distinct' ahead
  have member : a ∈ members := perm.mem_iff.mp (ahead.subset (by simp))
  have member' : b ∈ members := perm.mem_iff.mp (ahead.subset (by simp))
  rcases pair_sublist_or differ member member' with same | swapped
  · exact List.pairwise_iff_forall_sublist.mp sorted same
  · have kept := List.pair_sublist_mergeSort (decide_key_trans r key) (decide_key_total r key)
      (decide_eq_true tie) swapped
    exact absurd kept (not_pair_sublist_swap distinct' ahead)

end Sorting

theorem ranked_decreasing (tallies : List Tally) :
    (ranked tallies).Pairwise fun a b => b.2 ≤ a.2 :=
  pairwise_mergeSort_key (· ≥ ·) Prod.snd _

theorem ranked_ties {tallies : List Tally} {before : Tally → Tally → Prop}
    (distinct : tallies.Nodup) (sorted : tallies.Pairwise before) :
    (ranked tallies).Pairwise fun s t => s.2 ≤ t.2 → before s t :=
  pairwise_mergeSort_ties (· ≥ ·) Prod.snd (distinct.filter _) (sorted.filter _)

theorem ranked_perm_of_pos {tallies : List Tally} (positive : ∀ t ∈ tallies, 0 < t.2) :
    (ranked tallies).Perm tallies := by
  have all : tallies.filter (fun t => 0 < t.2) = tallies :=
    List.filter_eq_self.mpr fun t member => decide_eq_true (positive t member)
  exact (ranked_perm tallies).trans (List.Perm.of_eq all)

theorem ranked_pos {tallies : List Tally} {t : Tally} (member : t ∈ ranked tallies) : 0 < t.2 :=
  of_decide_eq_true (List.mem_filter.mp ((ranked_perm tallies).mem_iff.mp member)).2

theorem ranked_length_le (tallies : List Tally) : (ranked tallies).length ≤ tallies.length := by
  rw [(ranked_perm tallies).length_eq]
  exact List.length_filter_le _ _

theorem ranked_length_of_pos {tallies : List Tally} (positive : ∀ t ∈ tallies, 0 < t.2) :
    (ranked tallies).length = tallies.length :=
  (ranked_perm_of_pos positive).length_eq

theorem total_ranked (tallies : List Tally) :
    total ((ranked tallies).map Prod.snd) = total (tallies.map Prod.snd) := by
  have kept : (tallies.filter fun t => 0 < t.2).map Prod.snd =
      (tallies.map Prod.snd).filter fun n => 0 < n := by
    rw [List.filter_map]
    rfl
  rw [total_perm ((ranked_perm tallies).map Prod.snd), kept, total_filter_pos]

theorem rank_counts (size : Nat) (tallies : List Tally) :
    (rank size tallies).map Color.count = (ranked tallies).map Prod.snd := by
  rw [rank, List.map_map]
  rfl

theorem rank_colors (size : Nat) (tallies : List Tally) :
    (rank size tallies).map Color.rgb = (ranked tallies).map Prod.fst := by
  rw [rank, List.map_map]
  rfl

theorem rank_nil (size : Nat) : rank size [] = [] := by
  rw [rank, ranked, List.filter_nil, List.mergeSort_nil, List.map_nil]

theorem rank_cons_replicate (size : Nat) (t : Tally) (c : Rgb) (k : Nat) :
    rank size (t :: List.replicate k (c, 0)) = rank size [t] := by
  have kept : (t :: List.replicate k (c, 0)).filter (fun t => 0 < t.2) =
      [t].filter fun t => 0 < t.2 := by
    simp [List.filter_cons]
  rw [rank, rank, ranked, ranked, kept]

theorem rank_single (size : Nat) (c : Rgb) {n : Nat} (counted : 0 < n) :
    rank size [(c, n)] = [Color.counted c n size] := by
  have kept : [(c, n)].filter (fun t => 0 < t.2) = [(c, n)] := by simp [counted]
  rw [rank, ranked, kept, List.mergeSort_singleton]
  rfl

theorem rank_zero (size : Nat) (c : Rgb) : rank size [(c, 0)] = [] := by
  rw [rank, ranked, List.filter_cons_of_neg (by simp), List.filter_nil, List.mergeSort_nil,
    List.map_nil]

theorem rank_length (size : Nat) (tallies : List Tally) :
    (rank size tallies).length = (ranked tallies).length :=
  List.length_map _

/-- Every color carries a positive count, and no count exceeds an earlier one. -/
structure Ranked (colors : List Color) : Prop where
  counted : ∀ c ∈ colors, ∃ n, c.count? = some n ∧ 1 ≤ n
  decreasing : colors.Pairwise fun c d => d.count ≤ c.count

theorem rank_ranked (size : Nat) (tallies : List Tally) : Ranked (rank size tallies) where
  counted := by
    intro c member
    rcases List.mem_map.mp member with ⟨t, inside, rfl⟩
    exact ⟨t.2, rfl, ranked_pos inside⟩
  decreasing := List.pairwise_map.mpr (ranked_decreasing tallies)

namespace Ranked

variable {colors : List Color}

theorem take (ranked : Ranked colors) (k : Nat) : Ranked (colors.take k) where
  counted := fun c member => ranked.counted c (List.mem_of_mem_take member)
  decreasing := ranked.decreasing.sublist (List.take_sublist k colors)

theorem count_pos (ranked : Ranked colors) : ∀ n ∈ colors.map Color.count, 1 ≤ n := by
  intro n member
  rcases List.mem_map.mp member with ⟨c, inside, rfl⟩
  rcases ranked.counted c inside with ⟨m, carried, positive⟩
  rwa [Color.count, carried]

theorem length_le_total (ranked : Ranked colors) :
    colors.length ≤ total (colors.map Color.count) := by
  have bound := Number.length_le_total ranked.count_pos
  rwa [List.length_map] at bound

theorem head_max (ranked : Ranked colors) {c : Color} (first : colors[0]? = some c) :
    ∀ d ∈ colors, d.count ≤ c.count := by
  cases colors with
  | nil => cases first
  | cons head rest =>
      cases first
      intro d member
      rcases List.mem_cons.mp member with rfl | behind
      · exact Nat.le_refl _
      · exact (List.pairwise_cons.mp ranked.decreasing).1 d behind

end Ranked

end Palette

end ImageDigest
