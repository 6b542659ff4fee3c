import ImageDigest.Number.FloatValue
import Mathlib.Data.Prod.Lex

namespace ImageDigest.Number

open Float.Model

theorem compare_swap (a b : UnpackedFloat) :
    b.compare a = (a.compare b).map Ordering.swap := by
  cases a with
  | notANumber => cases b <;> rfl
  | infinity s =>
      cases b with
      | notANumber => cases s <;> rfl
      | infinity t => cases s <;> cases t <;> rfl
      | zero t => cases s <;> rfl
      | finite t n f positive => cases s <;> cases t <;> rfl
  | zero s =>
      cases b with
      | notANumber => rfl
      | infinity t => cases t <;> rfl
      | zero t => rfl
      | finite t n f positive => cases t <;> rfl
  | finite s m e positive =>
      cases b with
      | notANumber => rfl
      | infinity t => cases t <;> rfl
      | zero t => cases s <;> rfl
      | finite t n f positive' =>
          -- exponents come first, and both are compared the other way round
          have turned : (compare f e).then (compare n m) =
              ((compare e f).then (compare m n)).swap := by
            rw [Ordering.swap_then, Int.compare_swap, Nat.compare_swap]
          cases s <;> cases t
          · exact congrArg (fun o => some (Ordering.swap o)) turned
          · rfl
          · rfl
          · exact congrArg some turned

theorem compare_notANumber_left (b : UnpackedFloat) :
    UnpackedFloat.notANumber.compare b = none := by
  cases b <;> rfl

theorem compare_notANumber_right (a : UnpackedFloat) : a.compare .notANumber = none := by
  cases a with
  | notANumber => rfl
  | infinity s => cases s <;> rfl
  | zero s => rfl
  | finite s m e positive => cases s <;> rfl

theorem compare_ne_none {a b : UnpackedFloat} (left : a.isNaN = false) (right : b.isNaN = false) :
    a.compare b ≠ none := by
  cases a with
  | notANumber => cases left
  | infinity s =>
      cases b with
      | notANumber => cases right
      | infinity t => exact Option.some_ne_none _
      | zero t => cases s <;> exact Option.some_ne_none _
      | finite t n f positive => cases s <;> exact Option.some_ne_none _
  | zero s =>
      cases b with
      | notANumber => cases right
      | infinity t => cases t <;> exact Option.some_ne_none _
      | zero t => exact Option.some_ne_none _
      | finite t n f positive => cases t <;> exact Option.some_ne_none _
  | finite s m e positive =>
      cases b with
      | notANumber => cases right
      | infinity t => cases t <;> exact Option.some_ne_none _
      | zero t => cases s <;> exact Option.some_ne_none _
      | finite t n f positive' => cases s <;> cases t <;> exact Option.some_ne_none _

theorem eq_notANumber {a : UnpackedFloat} (none : a.isNaN = true) : a = .notANumber := by
  cases a with
  | notANumber => rfl
  | infinity s => cases none
  | zero s => cases none
  | finite s m e positive => cases none

theorem compare_eq_none_iff (a b : UnpackedFloat) :
    a.compare b = none ↔ a.isNaN = true ∨ b.isNaN = true := by
  constructor
  · intro none
    by_contra numbers
    rw [not_or, Bool.not_eq_true, Bool.not_eq_true] at numbers
    exact compare_ne_none numbers.1 numbers.2 none
  · rintro (none | none)
    · rw [eq_notANumber none, compare_notANumber_left]
    · rw [eq_notANumber none, compare_notANumber_right]

/-- The place of a number in the order of them all: the infinities are outermost and zero is in the
middle, and between them exponents come before mantissas. -/
def place : UnpackedFloat → ℤ ×ₗ ℤ ×ₗ ℤ
  | .infinity .negative => toLex (-2, toLex (0, 0))
  | .finite .negative m e _ => toLex (-1, toLex (-e, -m))
  | .finite .positive m e _ => toLex (1, toLex (e, m))
  | .infinity .positive => toLex (2, toLex (0, 0))
  | _ => toLex (0, toLex (0, 0))

theorem lt_iff_of_outer {i j : ℤ} {p q : ℤ ×ₗ ℤ} {o : Ordering} (outer : compare i j = o)
    (apart : o ≠ .eq) : some o = some .lt ↔ toLex (i, p) < toLex (j, q) := by
  have different : i ≠ j := by
    intro same
    exact apart (outer.symm.trans (compare_eq_iff_eq.mpr same))
  rw [Option.some_inj, ← outer, compare_lt_iff_lt, Prod.Lex.toLex_lt_toLex]
  exact (or_iff_left fun inner => different inner.1).symm

theorem lt_iff_of_inner {i e f m n : ℤ} {o : Ordering}
    (inner : o = .lt ↔ e < f ∨ e = f ∧ m < n) :
    some o = some .lt ↔ toLex (i, toLex (e, m)) < toLex (i, toLex (f, n)) := by
  rw [Option.some_inj, Prod.Lex.toLex_lt_toLex, Prod.Lex.toLex_lt_toLex, inner]
  exact ⟨fun less => .inr ⟨rfl, less⟩, fun less => less.elim (absurd · (lt_irrefl i)) (·.2)⟩

theorem compare_eq_lt_iff {a b : UnpackedFloat} (left : a.isNaN = false)
    (right : b.isNaN = false) : a.compare b = some .lt ↔ place a < place b := by
  cases a with
  | notANumber => cases left
  | infinity s =>
      cases b with
      | notANumber => cases right
      | infinity t => cases s <;> cases t <;> decide
      | zero t => cases s <;> exact lt_iff_of_outer rfl (by decide)
      | finite t n f positive =>
          cases s <;> cases t <;> exact lt_iff_of_outer rfl (by decide)
  | zero s =>
      cases b with
      | notANumber => cases right
      | infinity t => cases t <;> exact lt_iff_of_outer rfl (by decide)
      | zero t => exact lt_iff_of_inner (by decide)
      | finite t n f positive => cases t <;> exact lt_iff_of_outer rfl (by decide)
  | finite s m e positive =>
      cases b with
      | notANumber => cases right
      | infinity t => cases s <;> cases t <;> exact lt_iff_of_outer rfl (by decide)
      | zero t => cases s <;> exact lt_iff_of_outer rfl (by decide)
      | finite t n f positive' =>
          cases s <;> cases t
          · apply lt_iff_of_inner
            simp [Ordering.then_eq_gt, Int.compare_eq_gt, Nat.compare_eq_gt]
          · exact lt_iff_of_outer rfl (by decide)
          · exact lt_iff_of_outer rfl (by decide)
          · apply lt_iff_of_inner
            simp [Ordering.then_eq_lt, Int.compare_eq_lt, Nat.compare_eq_lt]

def order (x y : Float) : Option Ordering := x.toModel.unpack.compare y.toModel.unpack

variable {x y : Float}

theorem lt_iff (x y : Float) : x < y ↔ order x y = some .lt := by
  show decide ((order x y == some .lt) = true) = true ↔ _
  rw [decide_eq_true_eq, beq_iff_eq]

theorem le_iff (x y : Float) : x ≤ y ↔ ∃ o, order x y = some o ∧ o.isLE = true := by
  show decide ((order x y).any (·.isLE) = true) = true ↔ _
  rw [decide_eq_true_eq, Option.any_eq_true]

theorem order_eq_none_iff (x y : Float) :
    order x y = none ↔ x.isNaN = true ∨ y.isNaN = true :=
  compare_eq_none_iff _ _

theorem order_swap (x y : Float) : order y x = (order x y).map Ordering.swap := compare_swap _ _

theorem not_isNaN_of_order {o : Ordering} (found : order x y = some o) :
    x.isNaN = false ∧ y.isNaN = false := by
  rw [← Bool.not_eq_true, ← Bool.not_eq_true, ← not_or, ← order_eq_none_iff, found]
  exact Option.some_ne_none o

theorem not_isNaN_of_lt (less : x < y) : x.isNaN = false ∧ y.isNaN = false :=
  not_isNaN_of_order ((lt_iff x y).mp less)

theorem not_isNaN_of_le (atMost : x ≤ y) : x.isNaN = false ∧ y.isNaN = false := by
  rcases (le_iff x y).mp atMost with ⟨o, found, -⟩
  exact not_isNaN_of_order found

theorem not_lt_of_lt (less : x < y) : ¬ y < x := by
  rw [lt_iff, order_swap, (lt_iff x y).mp less]
  decide

theorem lt_iff_place (left : x.isNaN = false) (right : y.isNaN = false) :
    x < y ↔ place x.toModel.unpack < place y.toModel.unpack := by
  rw [lt_iff, order, compare_eq_lt_iff left right]

theorem lt_of_not_lt_of_lt {z : Float} (first : x.isNaN = false) (second : y.isNaN = false)
    (third : z.isNaN = false) (notGreater : ¬ y < x) (less : y < z) : x < z := by
  rw [lt_iff_place second first, not_lt] at notGreater
  rw [lt_iff_place second third] at less
  rw [lt_iff_place first third]
  exact notGreater.trans_lt less

theorem unpack_of_pos (positive : 0 < x) :
    x.toModel.unpack = .infinity .positive ∨
      ∃ m e pos, x.toModel.unpack = .finite .positive m e pos := by
  have less := (lt_iff 0 x).mp positive
  have zero : (0 : Float).toModel.unpack = .zero .positive := rfl
  rw [order, zero] at less
  generalize x.toModel.unpack = unpacked at less ⊢
  cases unpacked with
  | notANumber => cases less
  | zero sign => cases less
  | infinity sign =>
      cases sign with
      | positive => exact .inl rfl
      | negative => cases less
  | finite sign m e pos =>
      cases sign with
      | positive => exact .inr ⟨m, e, pos, rfl⟩
      | negative => cases less

theorem not_le_iff (x y : Float) : ¬ x ≤ y ↔ y < x ∨ x.isNaN = true ∨ y.isNaN = true := by
  rw [le_iff, lt_iff, order_swap x y, ← order_eq_none_iff]
  cases order x y with
  | none => simp
  | some o => cases o <;> simp

theorem not_lt_of_le (atMost : x ≤ y) : ¬ y < x := fun less =>
  (not_le_iff x y).mpr (.inl less) atMost

theorem le_of_not_lt (left : x.isNaN = false) (right : y.isNaN = false) (notLess : ¬ y < x) :
    x ≤ y := by
  by_contra above
  rcases (not_le_iff x y).mp above with less | none | none
  · exact notLess less
  · exact Bool.false_ne_true (left.symm.trans none)
  · exact Bool.false_ne_true (right.symm.trans none)

end ImageDigest.Number
