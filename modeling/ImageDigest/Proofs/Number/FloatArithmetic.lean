import ImageDigest.Proofs.Number.FloatDifference

/-! Floating-point numbers that are not negative: the arithmetic on them is exact arithmetic with
every result rounded, and what is left of it where a divisor is zero. -/

namespace ImageDigest.Number

open Float.Model UnpackedFloat

variable {x y : Float} {a b : ℤ} {v w : ℚ}

namespace Ranges

theorem nearest (range : Ranges a v) : Ranges a (nearest v) := by
  have low := nearest_mono range.low
  have high := nearest_mono range.high
  rw [nearest_two_zpow] at low high
  exact ⟨low, high⟩

theorem mul (left : Ranges a v) (right : Ranges b w) : Ranges (a + b) (v * w) := by
  constructor
  · rw [neg_add, zpow_add₀ two_ne_zero]
    exact mul_le_mul left.low right.low (by positivity) left.pos.le
  · rw [zpow_add₀ two_ne_zero]
    exact mul_le_mul left.high right.high right.pos.le (by positivity)

theorem inv (range : Ranges a v) : Ranges a v⁻¹ := by
  constructor
  · rw [zpow_neg]
    exact inv_anti₀ range.pos range.high
  · have bound := inv_anti₀ (by positivity) range.low
    rwa [← zpow_neg, neg_neg] at bound

theorem div (left : Ranges a v) (right : Ranges b w) : Ranges (a + b) (v / w) := by
  rw [div_eq_mul_inv]
  exact left.mul right.inv

end Ranges

/-- The number `x` is `v`, which is zero or from `2 ^ -n` to `2 ^ n`. -/
def Represents (n : ℤ) (x : Float) (v : ℚ) : Prop := x = 0 ∧ v = 0 ∨ Denotes x v ∧ Ranges n v

section Arithmetic

theorem represents_ofNat {k : ℕ} (bound : k < 2 ^ 64) :
    Represents 64 (Float.ofNat k) (nearest k) := by
  rcases Nat.eq_zero_or_pos k with rfl | positive
  · rw [Nat.cast_zero, nearest_zero]
    exact .inl ⟨rfl, rfl⟩
  · obtain ⟨t, m, e, near⟩ := ofNat_near positive bound
    have range : Ranges 64 (k : ℚ) := by
      have least : (1 : ℚ) ≤ k := by exact_mod_cast positive
      have most : (k : ℚ) ≤ 2 ^ 64 := by exact_mod_cast bound.le
      constructor
      · exact le_trans (by norm_num) least
      · exact_mod_cast most
    exact .inr ⟨⟨m, e, near.parts, near.value_eq⟩, range.nearest⟩

theorem Denotes.mul (left : Denotes x v) (right : Denotes y w) (range : Ranges a v)
    (range' : Ranges b w) (room : a + b ≤ 800) : Denotes (x * y) (nearest (v * w)) := by
  obtain ⟨m, e, parts, rfl⟩ := left
  obtain ⟨n, f, parts', rfl⟩ := right
  have exponent := range.exponent parts
  have exponent' := range'.exponent parts'
  obtain ⟨t, M, E, near⟩ := mul_near parts parts' (by omega) (by omega)
  have value : (m : ℚ) * 2 ^ e * (n * 2 ^ f) = (m * n : ℕ) * 2 ^ (e + f) := by
    rw [zpow_add₀ two_ne_zero]
    push_cast
    ring
  exact ⟨M, E, near.parts, value ▸ near.value_eq⟩

theorem zero_mul_of_denotes (denotes : Denotes x v) : 0 * x = 0 ∧ x * 0 = 0 := by
  obtain ⟨m, e, parts, -⟩ := denotes
  obtain ⟨pos, unpacked⟩ := parts.unpacked
  have left : (0 * x).toModel = (0 : Float).toModel := by
    show Float.Model.pack (UnpackedFloat.mul .binary64 (0 : Float).toModel.unpack
      x.toModel.unpack) = _
    rw [unpacked]
    rfl
  have right : (x * 0).toModel = (0 : Float).toModel := by
    show Float.Model.pack (UnpackedFloat.mul .binary64 x.toModel.unpack
      (0 : Float).toModel.unpack) = _
    rw [unpacked]
    rfl
  exact ⟨congrArg Float.ofModel left, congrArg Float.ofModel right⟩

theorem Represents.mul (left : Represents a x v) (right : Represents b y w)
    (room : a + b ≤ 800) : Represents (a + b) (x * y) (nearest (v * w)) := by
  rcases left with ⟨rfl, rfl⟩ | ⟨left, range⟩
  · have zero : 0 * y = 0 := by
      rcases right with ⟨rfl, -⟩ | ⟨right, -⟩
      · decide +kernel
      · exact (zero_mul_of_denotes right).1
    rw [zero_mul, nearest_zero]
    exact .inl ⟨zero, rfl⟩
  · rcases right with ⟨rfl, rfl⟩ | ⟨right, range'⟩
    · rw [mul_zero, nearest_zero]
      exact .inl ⟨(zero_mul_of_denotes left).2, rfl⟩
    · exact .inr ⟨left.mul right range range' room, (range.mul range').nearest⟩

theorem Represents.div (left : Represents a x v) (right : Represents b y w) (positive : 0 < w)
    (room : a + b ≤ 800) : Represents (a + b) (x / y) (nearest (v / w)) := by
  rcases right with ⟨-, rfl⟩ | ⟨right, range'⟩
  · exact absurd positive (lt_irrefl 0)
  rcases left with ⟨rfl, rfl⟩ | ⟨left, range⟩
  · obtain ⟨n, f, parts', -⟩ := right
    rw [zero_div, nearest_zero]
    exact .inl ⟨zero_div_of_pos parts'.pos, rfl⟩
  · exact .inr ⟨left.quotient right range range' room, (range.div range').nearest⟩

end Arithmetic

section Least

theorem Represents.not_isNaN (represents : Represents a x v) : x.isNaN = false := by
  rcases represents with ⟨rfl, -⟩ | ⟨denotes, -⟩
  · decide
  · exact denotes.not_isNaN

theorem Represents.lt_iff (left : Represents a x v) (right : Represents b y w) :
    x < y ↔ v < w := by
  rcases left with ⟨rfl, rfl⟩ | ⟨left, range⟩
  · rcases right with ⟨rfl, rfl⟩ | ⟨right, range'⟩
    · exact iff_of_false (by decide) (lt_irrefl 0)
    · obtain ⟨n, f, parts', -⟩ := right
      exact iff_of_true parts'.pos range'.pos
  · rcases right with ⟨rfl, rfl⟩ | ⟨right, range'⟩
    · obtain ⟨m, e, parts, -⟩ := left
      exact iff_of_false (not_lt_of_lt parts.pos) range.pos.not_gt
    · exact left.lt_iff right

theorem leastNumber_of_numbers (left : x.isNaN = false) (right : y.isNaN = false) :
    leastNumber x y = if y < x then y else x := by
  rw [leastNumber, left, right]
  rfl

theorem Represents.least (left : Represents a x v) (right : Represents a y w) :
    Represents a (leastNumber x y) (min v w) := by
  rw [leastNumber_of_numbers left.not_isNaN right.not_isNaN]
  split
  case isTrue less =>
    rw [min_eq_right ((right.lt_iff left).mp less).le]
    exact right
  case isFalse less =>
    rw [min_eq_left (not_lt.mp (mt (right.lt_iff left).mpr less))]
    exact left

/-- No number, or beyond all of them. -/
def Boundless (x : Float) : Prop :=
  x.isNaN = true ∨ x.toModel.unpack = .infinity .positive

theorem boundless_div_zero (represents : Represents a x v) : Boundless (x / 0) := by
  rcases represents with ⟨rfl, -⟩ | ⟨⟨m, e, parts, -⟩, -⟩
  · exact .inl (by decide +kernel)
  · obtain ⟨pos, unpacked⟩ := parts.unpacked
    have stored : (x / 0).toModel = .pack (.infinity .positive) := by
      show Float.Model.pack (UnpackedFloat.div .binary64 x.toModel.unpack
        (0 : Float).toModel.unpack) = _
      rw [unpacked]
      rfl
    right
    rw [stored]
    rfl

theorem Boundless.least (boundless : Boundless x) (represents : Represents a y w) :
    leastNumber x y = y ∧ leastNumber y x = y := by
  have number := represents.not_isNaN
  by_cases none : x.isNaN = true
  · rw [leastNumber, leastNumber, none, number]
    exact ⟨rfl, rfl⟩
  · have infinite := boundless.resolve_left none
    rw [Bool.not_eq_true] at none
    have less : y < x := by
      rw [Number.lt_iff, order, infinite]
      rcases represents with ⟨rfl, -⟩ | ⟨⟨m, e, parts, -⟩, -⟩
      · rfl
      · obtain ⟨pos, unpacked⟩ := parts.unpacked
        rw [unpacked]
        rfl
    rw [leastNumber_of_numbers none number, leastNumber_of_numbers number none, if_pos less,
      if_neg (not_lt_of_lt less)]
    exact ⟨rfl, rfl⟩

end Least

section Rounded

theorem Represents.clampedRound (represents : Represents a x v) (limit : ℕ) :
    (FloatValue.ofFloat x).clampedRound limit = min limit (roundHalfUp v) := by
  rcases represents with ⟨rfl, rfl⟩ | ⟨⟨m, e, parts, rfl⟩, -⟩
  · have zero : FloatValue.ofFloat 0 = .finite false 0 (-1074) := by decide +kernel
    rw [zero, clampedRound_eq, Nat.cast_zero, zero_mul]
  · obtain ⟨pos, unpacked⟩ := parts.unpacked
    rw [ofFloat_finite unpacked, clampedRound_eq]

theorem mul_zero_cases (u : UnpackedFloat) :
    UnpackedFloat.mul .binary64 (.zero .positive) u = .notANumber ∨
      ∃ sign, UnpackedFloat.mul .binary64 (.zero .positive) u = .zero sign := by
  cases u with
  | notANumber => exact .inl rfl
  | infinity sign => exact .inl rfl
  | zero sign => exact .inr ⟨_, rfl⟩
  | finite sign m e pos => exact .inr ⟨_, rfl⟩

theorem clampedRound_zero_mul (x : Float) (limit : ℕ) :
    (FloatValue.ofFloat (0 * x)).clampedRound limit = 0 := by
  have product : 0 * x =
      Float.ofModel (.pack (UnpackedFloat.mul .binary64 (.zero .positive) x.toModel.unpack)) := rfl
  rw [product]
  rcases mul_zero_cases x.toModel.unpack with none | ⟨sign, zero⟩
  · have value : FloatValue.ofFloat (Float.ofModel (.pack .notANumber)) = .nan := by decide +kernel
    rw [none, value]
    rfl
  · rw [zero]
    cases sign with
    | positive =>
        have value : FloatValue.ofFloat (Float.ofModel (.pack (.zero .positive))) =
            .finite false 0 (-1074) := by decide +kernel
        have nothing : roundHalfUp 0 = 0 := by decide +kernel
        rw [value, clampedRound_eq, Nat.cast_zero, zero_mul, nothing, Nat.min_zero]
    | negative =>
        have value : FloatValue.ofFloat (Float.ofModel (.pack (.zero .negative))) =
            .finite true 0 (-1074) := by decide +kernel
        rw [value]
        rfl

end Rounded

end ImageDigest.Number
