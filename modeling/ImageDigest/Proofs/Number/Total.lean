import ImageDigest.Number.Total
import Mathlib.Algebra.BigOperators.Group.List.Basic
import Mathlib.Algebra.GroupWithZero.Nat

namespace ImageDigest.Number

theorem total_eq_sum (values : List ℕ) : total values = values.sum := by
  induction values with
  | nil => rfl
  | cons n rest ih => rw [total_cons, ih, List.sum_cons]

theorem total_perm {values values' : List ℕ} (same : values.Perm values') :
    total values = total values' := by
  rw [total_eq_sum, total_eq_sum, same.sum_eq]

theorem total_append (front back : List ℕ) : total (front ++ back) = total front + total back := by
  rw [total_eq_sum, total_eq_sum, total_eq_sum, List.sum_append]

theorem total_replicate (k n : ℕ) : total (List.replicate k n) = k * n := by
  rw [total_eq_sum, List.sum_replicate_nat]

theorem total_map_le {α : Type} {members : List α} {f g : α → ℕ}
    (atMost : ∀ a ∈ members, f a ≤ g a) : total (members.map f) ≤ total (members.map g) := by
  induction members with
  | nil => exact Nat.le_refl 0
  | cons a rest ih =>
      rw [List.map_cons, List.map_cons, total_cons, total_cons]
      exact Nat.add_le_add (atMost a List.mem_cons_self)
        (ih fun b member => atMost b (List.mem_cons_of_mem a member))

theorem length_le_total {values : List ℕ} (positive : ∀ n ∈ values, 1 ≤ n) :
    values.length ≤ total values := by
  rw [total_eq_sum]
  exact List.length_le_sum_of_one_le values positive

theorem total_filter_pos (values : List ℕ) :
    total (values.filter fun n => 0 < n) = total values := by
  induction values with
  | nil => rfl
  | cons n rest ih =>
      by_cases positive : 0 < n
      · simp only [List.filter_cons, positive, decide_true, if_true, total_cons, ih]
      · simp only [List.filter_cons, positive, decide_false, Bool.false_eq_true, if_false, ih,
          total_cons]
        omega

theorem total_take_add_drop (values : List ℕ) (k : ℕ) :
    total (values.take k) + total (values.drop k) = total values := by
  rw [← total_append, List.take_append_drop]

theorem total_take_le (values : List ℕ) (k : ℕ) : total (values.take k) ≤ total values := by
  have parts := total_take_add_drop values k
  omega

theorem total_take_eq_iff {values : List ℕ} (positive : ∀ n ∈ values, 1 ≤ n) (k : ℕ) :
    total (values.take k) = total values ↔ values.length ≤ k := by
  constructor
  · intro whole
    have parts := total_take_add_drop values k
    have rest : (values.drop k).length ≤ total (values.drop k) :=
      length_le_total fun n member => positive n (List.mem_of_mem_drop member)
    rw [List.length_drop] at rest
    omega
  · intro short
    rw [List.take_of_length_le short]

end ImageDigest.Number
