import ImageDigest.Proofs.Number.FloatOrder
import ImageDigest.Proofs.Number.FloatRounding
import ImageDigest.Proofs.Number.Rounding

/-! Natural numbers and their quotients as floating-point numbers, and the natural numbers that
the quotients are rounded to. -/

namespace ImageDigest.Number

open Float.Model UnpackedFloat

/-- The positive number `m · 2 ^ e`, with all 53 bits of the mantissa in use. -/
structure HasParts (x : Float) (m : ℕ) (e : ℤ) : Prop where
  lower : 2 ^ 52 ≤ m
  upper : m < 2 ^ 53
  unpacked : ∃ positive, x.toModel.unpack = .finite .positive m e positive

/-- The number `x` is `m · 2 ^ e`, which is what `q` is rounded to, and it is off `q` by half a unit
`2 ^ t` at most, which is the last of the 53 bits of `q`. -/
structure Near (x : Float) (q : ℚ) (t : ℤ) (m : ℕ) (e : ℤ) : Prop where
  parts : HasParts x m e
  unit_le : t ≤ e
  le_succ : e ≤ t + 1
  window_le : (2 : ℚ) ^ (t + 52) ≤ q
  lt_window : q < (2 : ℚ) ^ (t + 53)
  close : |(m : ℚ) * 2 ^ e - q| ≤ 2 ^ t / 2
  value_eq : (m : ℚ) * 2 ^ e = nearest q

section Results

variable {x : Float} {m : ℕ} {e : ℤ} {acc : Accuracy} {y : ℚ}

theorem scaled_back (n k : ℕ) : ((n * 2 ^ k : ℕ) : ℚ) * 2 ^ (-k : ℤ) = n := by
  rw [zpow_neg, zpow_natCast]
  push_cast
  field_simp

theorem log2_mul_two_pow {n : ℕ} (positive : 0 < n) (k : ℕ) :
    (n * 2 ^ k).log2 = n.log2 + k := by
  have scaled : n * 2 ^ k ≠ 0 := by positivity
  have span := (Nat.log2_eq_iff positive.ne').mp rfl
  rw [Nat.log2_eq_iff scaled]
  constructor
  · rw [pow_add]
    exact Nat.mul_le_mul_right _ span.1
  · rw [Nat.add_right_comm, pow_add]
    exact Nat.mul_lt_mul_of_pos_right span.2 (by positivity)

theorem near_of_round (t : ℤ)
    (stored : x.toModel = .pack (roundWithAccuracy .binary64 .positive m e acc)) (positive : 0 < m)
    (brackets : Brackets (.ofMantissaAndAccuracy m acc) y)
    (last : (m.log2 : ℤ) + e = t + 52) (long : e ≤ t) (low : -1074 ≤ t) (high : t ≤ 970) :
    ∃ M E, Near x (y * 2 ^ e) t M E := by
  obtain ⟨M, E, pos, rounded, lower, upper, least, most, value⟩ :=
    roundWithAccuracy_near .positive positive brackets low last long
  obtain ⟨k, gap⟩ : ∃ k : ℕ, e + k = t := ⟨(t - e).toNat, by omega⟩
  obtain ⟨windowLow, windowHigh⟩ := brackets.window (k := k) positive (by omega)
  have unit : (0 : ℚ) < 2 ^ t := by positivity
  have below : (2 : ℚ) ^ (t + 52) ≤ y * 2 ^ e := by
    rw [mul_unit_eq y gap, zpow_add₀ two_ne_zero, mul_comm]
    exact mul_le_mul_of_nonneg_right (by exact_mod_cast windowLow) unit.le
  have above : y * 2 ^ e < 2 ^ (t + 53) := by
    rw [mul_unit_eq y gap, zpow_add₀ two_ne_zero, mul_comm (2 ^ t)]
    exact mul_lt_mul_of_pos_right (by exact_mod_cast windowHigh) unit
  have close := nearest_close (lt_of_lt_of_le (by positivity) below)
  rw [lastUnit_eq below above, ← value] at close
  refine ⟨M, E, ⟨lower, upper, pos, ?_⟩, least, most, below, above, close, value⟩
  rw [stored, rounded, unpack_pack .positive pos lower upper (by omega) (by omega)]

theorem round_near (t : ℤ) (stored : x.toModel = .pack (.round .binary64 .positive m e))
    (positive : 0 < m) (last : (m.log2 : ℤ) + e = t + 52) (low : -1074 ≤ t) (high : t ≤ 970) :
    ∃ M E, Near x (m * 2 ^ e) t M E := by
  obtain ⟨k, gap⟩ : ∃ k : ℕ, (e - t).toNat = k := ⟨_, rfl⟩
  -- a short mantissa is made longer first, which the value does not show
  have lengthened : x.toModel =
      .pack (roundWithAccuracy .binary64 .positive (m * 2 ^ k) (e - k) .exact) := by
    rw [stored]
    simp only [UnpackedFloat.round, targetExponent_eq low last, decreaseExponent, Nat.shiftLeft_eq,
      gap]
  have bits := log2_mul_two_pow positive k
  have value : ((m * 2 ^ k : ℕ) : ℚ) * 2 ^ (e - k) = m * 2 ^ e := by
    rw [sub_eq_neg_add, zpow_add₀ two_ne_zero, ← mul_assoc, scaled_back]
  obtain ⟨M, E, near⟩ := near_of_round t lengthened (by positivity) (brackets_exact _) (by omega)
    (by omega) low high
  rw [value] at near
  exact ⟨M, E, near⟩

end Results

namespace Near

variable {x : Float} {q : ℚ} {t : ℤ} {m : ℕ} {e : ℤ}

/-- The number itself is a whole number of units, the one that is nearest to what it is near. -/
theorem exists_units (near : Near x q t m e) :
    ∃ c : ℤ, (m : ℚ) * 2 ^ e = c * 2 ^ t ∧ |(c : ℚ) - q / 2 ^ t| ≤ 1 / 2 := by
  obtain ⟨k, gap⟩ : ∃ k : ℕ, e = k + t := ⟨(e - t).toNat, by have := near.unit_le; omega⟩
  have unit : (0 : ℚ) < 2 ^ t := by positivity
  have units : (m : ℚ) * 2 ^ e = ((m * 2 ^ k : ℤ) : ℚ) * 2 ^ t := by
    rw [gap, zpow_add₀ two_ne_zero, zpow_natCast]
    push_cast
    ring
  refine ⟨m * 2 ^ k, units, ?_⟩
  have close := near.close
  have apart : ((m * 2 ^ k : ℤ) : ℚ) * 2 ^ t - q = (((m * 2 ^ k : ℤ) : ℚ) - q / 2 ^ t) * 2 ^ t := by
    field_simp
  rw [units, apart, abs_mul, abs_of_pos unit] at close
  have half : (2 : ℚ) ^ t / 2 = 1 / 2 * 2 ^ t := by ring
  rw [half] at close
  exact le_of_mul_le_mul_right close unit

theorem le_of_le (near : Near x q t m e) {a : ℤ} (below : (a : ℚ) * 2 ^ t ≤ q) :
    (a : ℚ) * 2 ^ t ≤ m * 2 ^ e := by
  obtain ⟨c, units, close⟩ := near.exists_units
  have unit : (0 : ℚ) < 2 ^ t := by positivity
  have least := (le_div_iff₀ unit).mpr below
  have more : (a : ℚ) < c + 1 := by linarith [(abs_le.mp close).1]
  have least : a ≤ c := Int.le_of_lt_add_one (by exact_mod_cast more)
  rw [units]
  exact mul_le_mul_of_nonneg_right (by exact_mod_cast least) unit.le

theorem ge_of_ge (near : Near x q t m e) {a : ℤ} (above : q ≤ (a : ℚ) * 2 ^ t) :
    (m : ℚ) * 2 ^ e ≤ a * 2 ^ t := by
  obtain ⟨c, units, close⟩ := near.exists_units
  have unit : (0 : ℚ) < 2 ^ t := by positivity
  have most := (div_le_iff₀ unit).mpr above
  have more : (c : ℚ) < a + 1 := by linarith [(abs_le.mp close).2]
  have most : c ≤ a := Int.le_of_lt_add_one (by exact_mod_cast more)
  rw [units]
  exact mul_le_mul_of_nonneg_right (by exact_mod_cast most) unit.le

theorem exact_of_units (near : Near x q t m e) {a : ℤ} (units : q = a * 2 ^ t) :
    (m : ℚ) * 2 ^ e = q := by
  apply le_antisymm
  · rw [units]
    exact near.ge_of_ge units.le
  · rw [units]
    exact near.le_of_le units.ge

theorem unit_lt (near : Near x q t m e) {n : ℤ} (below : q ≤ 2 ^ n) : t + 52 ≤ n :=
  (zpow_le_zpow_iff_right₀ one_lt_two).mp (near.window_le.trans below)

theorem lt_unit (near : Near x q t m e) {n : ℤ} (above : (2 : ℚ) ^ n ≤ q) : n < t + 53 :=
  (zpow_lt_zpow_iff_right₀ one_lt_two).mp (above.trans_lt near.lt_window)

end Near

section Operations

variable {x y : Float} {m n : ℕ} {e f : ℤ}

theorem mul_near (left : HasParts x m e) (right : HasParts y n f) (low : -1000 ≤ e + f)
    (high : e + f ≤ 900) : ∃ t M E, Near (x * y) ((m * n : ℕ) * 2 ^ (e + f)) t M E := by
  rcases left.unpacked with ⟨leftPos, left'⟩
  rcases right.unpacked with ⟨rightPos, right'⟩
  have positive : 0 < m * n := Nat.mul_pos leftPos rightPos
  have bits : 104 ≤ (m * n).log2 ∧ (m * n).log2 < 106 := by
    rw [Nat.le_log2 positive.ne', Nat.log2_lt positive.ne']
    constructor
    · calc
        2 ^ 104 = 2 ^ 52 * 2 ^ 52 := by norm_num
        _ ≤ m * n := Nat.mul_le_mul left.lower right.lower
    · calc
        m * n < 2 ^ 53 * 2 ^ 53 := Nat.mul_lt_mul'' left.upper right.upper
        _ = 2 ^ 106 := by norm_num
  have stored : (x * y).toModel =
      .pack (roundWithAccuracy .binary64 .positive (m * n) (e + f) .exact) := by
    show Float.Model.pack (UnpackedFloat.mul .binary64 x.toModel.unpack y.toModel.unpack) = _
    rw [left', right']
    rfl
  obtain ⟨M, E, near⟩ := near_of_round (((m * n).log2 : ℤ) + (e + f) - 52) stored positive
    (brackets_exact (m * n)) (by omega) (by omega) (by omega) (by omega)
  exact ⟨_, M, E, near⟩

theorem divCore_eq (lower : 2 ^ 52 ≤ m) (upper : m < 2 ^ 53) (lower' : 2 ^ 52 ≤ n)
    (upper' : n < 2 ^ 53) (low : -900 ≤ e - f) :
    divCore .binary64 m e n f =
      (m * 2 ^ 53 / n, e - f - 53, accuracyOfFraction (m * 2 ^ 53 % n) n) := by
  have bits : m.log2 = 52 := (Nat.log2_eq_iff (by omega)).mpr ⟨lower, upper⟩
  have bits' : n.log2 = 52 := (Nat.log2_eq_iff (by omega)).mpr ⟨lower', upper'⟩
  have target : min (e - f) (Format.binary64.targetExponent
      (totalExponent m e - totalExponent n f)) = e - f - 53 := by
    simp only [Format.targetExponent, totalExponent, Format.mantissaBits, Format.minExponent, bits,
      bits']
    norm_num
    omega
  have shift : (e - f - (e - f - 53)).toNat = 53 := by omega
  simp only [divCore, target, shift, Nat.shiftLeft_eq]

theorem div_near (left : HasParts x m e) (right : HasParts y n f) (low : -900 ≤ e - f)
    (high : e - f ≤ 900) : ∃ t M E, Near (x / y) (m * 2 ^ e / (n * 2 ^ f)) t M E := by
  rcases left.unpacked with ⟨leftPos, left'⟩
  rcases right.unpacked with ⟨rightPos, right'⟩
  have core := divCore_eq left.lower left.upper right.lower right.upper low
  have stored : (x / y).toModel =
      .pack (roundWithAccuracy .binary64 .positive (m * 2 ^ 53 / n) (e - f - 53)
        (accuracyOfFraction (m * 2 ^ 53 % n) n)) := by
    show Float.Model.pack (UnpackedFloat.div .binary64 x.toModel.unpack y.toModel.unpack) = _
    rw [left', right']
    simp only [UnpackedFloat.div, core]
    rfl
  have lower : 2 ^ 52 ≤ m * 2 ^ 53 / n := by
    rw [Nat.le_div_iff_mul_le rightPos]
    have := left.lower
    have := right.upper
    omega
  have upper : m * 2 ^ 53 / n < 2 ^ 54 := by
    rw [Nat.div_lt_iff_lt_mul rightPos]
    have := left.upper
    have := right.lower
    omega
  have positive : 0 < m * 2 ^ 53 / n := by omega
  have bits : 52 ≤ (m * 2 ^ 53 / n).log2 ∧ (m * 2 ^ 53 / n).log2 < 54 := by
    rw [Nat.le_log2 positive.ne', Nat.log2_lt positive.ne']
    exact ⟨lower, upper⟩
  obtain ⟨M, E, near⟩ := near_of_round (((m * 2 ^ 53 / n).log2 : ℤ) + (e - f - 53) - 52) stored
    positive (brackets_quotient _ rightPos) (by omega) (by omega) (by omega) (by omega)
  have nonzero : (n : ℚ) ≠ 0 := by exact_mod_cast rightPos.ne'
  have value : ((m * 2 ^ 53 : ℕ) : ℚ) / n * 2 ^ (e - f - 53) = m * 2 ^ e / (n * 2 ^ f) := by
    rw [zpow_sub₀ two_ne_zero, zpow_sub₀ two_ne_zero]
    push_cast
    field_simp
  rw [value] at near
  exact ⟨_, M, E, near⟩

theorem one_parts : HasParts 1 (2 ^ 52) (-52) := ⟨by decide, by decide, by decide, rfl⟩

theorem toFloat_near {n : ℕ} (positive : 0 < n) (small : n < 2 ^ 53) :
    ∃ t M E, Near n.toUInt64.toFloat n t M E := by
  have log : n.log2 < 53 := (Nat.log2_lt positive.ne').mpr small
  have word : n.toUInt64.toNat = n := UInt64.toNat_ofNat_of_lt' (by show n < 2 ^ 64; omega)
  have stored : n.toUInt64.toFloat.toModel = .pack (.round .binary64 .positive n 0) := by
    show Float.Model.pack (UnpackedFloat.ofInt .binary64 (n.toUInt64.toNat : ℤ)) = _
    rw [word, UnpackedFloat.ofInt, UnpackedFloat.normalize, Int.compare_eq_gt.mpr (by omega)]
    rfl
  obtain ⟨M, E, near⟩ := round_near (n.log2 - 52) stored positive (by omega) (by omega) (by omega)
  rw [zpow_zero, mul_one] at near
  exact ⟨_, M, E, near⟩

theorem Near.natCast {n : ℕ} {t : ℤ} (near : Near x n t m e) (positive : 0 < n)
    (small : n < 2 ^ 53) : (m : ℚ) * 2 ^ e = n ∧ -53 < e ∧ e ≤ 1 := by
  have least : (2 : ℚ) ^ (0 : ℤ) ≤ n := by
    rw [zpow_zero]
    exact_mod_cast positive
  have most : (n : ℚ) < 2 ^ (53 : ℤ) := by exact_mod_cast small
  have low := near.lt_unit least
  have high := (zpow_lt_zpow_iff_right₀ one_lt_two).mp (near.window_le.trans_lt most)
  have exponent := And.intro near.unit_le near.le_succ
  obtain ⟨k, gap⟩ : ∃ k : ℕ, t = -k := ⟨(-t).toNat, by omega⟩
  refine ⟨near.exact_of_units (a := (n * 2 ^ k : ℕ)) ?_, by omega, by omega⟩
  rw [gap, Int.cast_natCast, scaled_back]

theorem ofNat_near_of_small {n : ℕ} (positive : 0 < n) (small : n < 2 ^ 53) :
    ∃ t M E, Near (Float.ofNat n) n t M E := by
  have scaled : Float.ofNat n = n.toUInt64.toFloat * 1 := dif_pos ⟨small, Nat.zero_le 22⟩
  obtain ⟨t, m, e, near⟩ := toFloat_near positive small
  have ⟨value, low, high⟩ := near.natCast positive small
  have product := mul_near near.parts one_parts (by omega) (by omega)
  have same : ((m * 2 ^ 52 : ℕ) : ℚ) * 2 ^ (e + -52) = n := by
    have back : ((m * 2 ^ 52 : ℕ) : ℚ) * 2 ^ (-52 : ℤ) = m := scaled_back m 52
    rw [add_comm, zpow_add₀ two_ne_zero, ← mul_assoc, back, value]
  rwa [same, ← scaled] at product

theorem ofNat_near_of_large {n : ℕ} (large : 2 ^ 53 ≤ n) (bound : n < 2 ^ 64) :
    ∃ t M E, Near (Float.ofNat n) n t M E := by
  have positive : 0 < n := by omega
  have bits := log2_mul_two_pow positive 53
  have log : 53 ≤ n.log2 ∧ n.log2 < 64 := by
    rw [Nat.le_log2 positive.ne', Nat.log2_lt positive.ne']
    exact ⟨large, bound⟩
  have stored : (Float.ofNat n).toModel =
      .pack (roundWithAccuracy .binary64 .positive (n * 2 ^ 53) (-53) .exact) := by
    have scaled : Float.ofNat n = ⟨Float.Model.ofScientific n 0⟩ := dif_neg (by omega)
    rw [scaled]
    show Float.Model.pack (UnpackedFloat.ofScientific .binary64 n 0) = _
    have notHigh : ¬ (2 : ℤ) ^ Format.binary64.exponentBits < 0 := by decide
    have notLow : ¬ (0 : ℤ) < -((2 : ℤ) ^ Format.binary64.exponentBits + n.log2) := by
      show ¬ (0 : ℤ) < -(2 ^ 11 + (n.log2 : ℤ))
      omega
    rw [UnpackedFloat.ofScientific, dif_neg positive.ne', if_neg notHigh, if_neg notLow,
      if_pos le_rfl]
    show Float.Model.pack
      (roundWithAccuracy .binary64 .positive (n <<< 53 * 1) (-53 + 0) .exact) = _
    rw [Nat.shiftLeft_eq, mul_one, add_zero]
  obtain ⟨M, E, near⟩ := near_of_round ((n.log2 : ℤ) - 52) stored (by positivity)
    (brackets_exact _) (by omega) (by omega) (by omega) (by omega)
  have value : ((n * 2 ^ 53 : ℕ) : ℚ) * 2 ^ (-53 : ℤ) = n := scaled_back n 53
  rw [value] at near
  exact ⟨_, M, E, near⟩

theorem ofNat_near {n : ℕ} (positive : 0 < n) (bound : n < 2 ^ 64) :
    ∃ t M E, Near (Float.ofNat n) n t M E := by
  rcases Nat.lt_or_ge n (2 ^ 53) with small | large
  · exact ofNat_near_of_small positive small
  · exact ofNat_near_of_large large bound

theorem HasParts.div_eq_one (left : HasParts x m e) (right : HasParts y m e) : x / y = 1 := by
  obtain ⟨pos, unpacked⟩ := left.unpacked
  obtain ⟨pos', unpacked'⟩ := right.unpacked
  have core := divCore_eq (e := e) (f := e) left.lower left.upper left.lower left.upper (by omega)
  rw [Nat.mul_div_cancel_left _ pos, Nat.mul_mod_right, sub_self, zero_sub] at core
  have stored : (x / y).toModel =
      .pack (roundWithAccuracy .binary64 .positive (2 ^ 53) (-53) (accuracyOfFraction 0 m)) := by
    show Float.Model.pack (UnpackedFloat.div .binary64 x.toModel.unpack y.toModel.unpack) = _
    rw [unpacked, unpacked']
    simp only [UnpackedFloat.div, core]
    rfl
  have one : (x / y).toModel = (1 : Float).toModel := by
    rw [stored]
    rfl
  exact congrArg Float.ofModel one

theorem ofNat_div_self {n : ℕ} (positive : 0 < n) (bound : n < 2 ^ 64) :
    Float.ofNat n / Float.ofNat n = 1 := by
  obtain ⟨t, m, e, near⟩ := ofNat_near positive bound
  exact near.parts.div_eq_one near.parts

theorem zero_div_of_pos (positive : 0 < x) : 0 / x = 0 := by
  have quotient : (0 / x).toModel = (0 : Float).toModel := by
    show Float.Model.pack (UnpackedFloat.div .binary64 (0 : Float).toModel.unpack
      x.toModel.unpack) = _
    rcases unpack_of_pos positive with unpacked | ⟨m, e, pos, unpacked⟩
    · rw [unpacked]
      rfl
    · rw [unpacked]
      rfl
  exact congrArg Float.ofModel quotient

theorem HasParts.pos (parts : HasParts x m e) : 0 < x := by
  obtain ⟨pos, unpacked⟩ := parts.unpacked
  rw [lt_iff, order, unpacked]
  rfl

theorem ofNat_pos {n : ℕ} (positive : 0 < n) (bound : n < 2 ^ 64) : 0 < Float.ofNat n := by
  obtain ⟨t, m, e, near⟩ := ofNat_near positive bound
  exact near.parts.pos

end Operations

section Rounded

variable {m a b : ℕ} {e : ℤ}

theorem ratio_spec (m : ℕ) (e : ℤ) :
    0 < (FloatValue.ratio m e).2 ∧
      ((FloatValue.ratio m e).1 : ℚ) / (FloatValue.ratio m e).2 = m * 2 ^ e := by
  cases e with
  | ofNat k =>
      refine ⟨one_pos, ?_⟩
      show ((m * 2 ^ k : ℕ) : ℚ) / (1 : ℕ) = m * 2 ^ (k : ℤ)
      rw [zpow_natCast]
      push_cast
      ring
  | negSucc k =>
      refine ⟨Nat.two_pow_pos (k + 1), ?_⟩
      show (m : ℚ) / (2 ^ (k + 1) : ℕ) = m * 2 ^ (Int.negSucc k)
      rw [zpow_negSucc]
      push_cast
      ring

theorem clampedRound_eq (m : ℕ) (e : ℤ) (limit : ℕ) :
    (FloatValue.finite false m e).clampedRound limit = min limit (roundHalfUp (m * 2 ^ e)) := by
  obtain ⟨positive, value⟩ := ratio_spec m e
  rw [← value, ← halfUp_eq_roundHalfUp positive]
  rfl

theorem clampedRound_finite {limit k : ℕ} (below : k ≤ limit)
    (lower : (k : ℚ) - 1 / 2 ≤ m * 2 ^ e) (upper : (m : ℚ) * 2 ^ e < k + 1 / 2) :
    (FloatValue.finite false m e).clampedRound limit = k := by
  have rounded : roundHalfUp ((m : ℚ) * 2 ^ e) = k :=
    (roundHalfUp_eq_iff (by positivity)).mpr ⟨lower, upper⟩
  rw [clampedRound_eq, rounded, Nat.min_eq_right below]

/-- Division is less off than a quotient that is no half is away from the next half. -/
theorem Near.between {x : Float} {t : ℤ} (near : Near x ((a : ℚ) / b) t m e) (positive : 0 < b)
    (small : b < 2 ^ 32) (unit : t ≤ -44) {k : ℕ} (rounded : halfUp a b = k) :
    (k : ℚ) - 1 / 2 ≤ m * 2 ^ e ∧ (m : ℚ) * 2 ^ e < k + 1 / 2 := by
  constructor
  · -- the half itself is a whole number of units
    obtain ⟨j, gap⟩ : ∃ j : ℕ, t = -j - 1 := ⟨(-(t + 1)).toNat, by omega⟩
    have half : (2 : ℚ) ^ j * 2 ^ t = 1 / 2 := by
      rw [gap, zpow_sub_one₀ two_ne_zero, zpow_neg, zpow_natCast]
      field_simp
    have units : (k : ℚ) - 1 / 2 = ((2 * k - 1) * 2 ^ j : ℤ) * 2 ^ t := by
      push_cast
      rw [mul_assoc, half]
      ring
    have lower := ((halfUp_eq_iff_near positive).mp rounded).1
    rw [units] at lower ⊢
    exact near.le_of_le lower
  · have apart := halfUp_apart positive rounded
    have off := (abs_le.mp near.close).2
    have room : (0 : ℚ) < 2 * b := by positivity
    have most : (2 * b : ℚ) ≤ 2 ^ 33 := by
      have : (b : ℚ) ≤ 2 ^ 32 := by exact_mod_cast small.le
      linarith
    have gap : (1 : ℚ) / 2 ^ 33 ≤ 1 / (2 * b) := one_div_le_one_div_of_le room most
    have tiny : (2 : ℚ) ^ t ≤ 2 ^ (-44 : ℤ) := zpow_le_zpow_right₀ one_le_two unit
    norm_num at tiny
    linarith

/-- The division and the rounding of numbers give the exact quotient, rounded. -/
theorem clampedRound_quotient (positive : 0 < b) (small : b < 2 ^ 32) (bound : a ≤ 255 * b) :
    (FloatValue.ofFloat (Float.ofNat a / Float.ofNat b)).clampedRound 255 = halfUp a b := by
  rcases Nat.eq_zero_or_pos a with rfl | present
  · have zero : Float.ofNat 0 / Float.ofNat b = 0 :=
      zero_div_of_pos (ofNat_pos positive (by omega))
    rw [zero, halfUp_zero positive]
    decide +kernel
  obtain ⟨t, m, e, left⟩ := ofNat_near present (by omega)
  obtain ⟨t', m', e', right⟩ := ofNat_near positive (by omega)
  have ⟨value, low, high⟩ := left.natCast present (by omega)
  have ⟨value', low', high'⟩ := right.natCast positive (by omega)
  obtain ⟨T, M, E, near⟩ := div_near left.parts right.parts (by omega) (by omega)
  rw [value, value'] at near
  have room : (0 : ℚ) < b := by exact_mod_cast positive
  have most : (a : ℚ) / b ≤ 2 ^ (8 : ℤ) := by
    rw [div_le_iff₀ room]
    have : (a : ℚ) ≤ (255 * b : ℕ) := by exact_mod_cast bound
    push_cast at this
    norm_num
    linarith
  have := near.unit_lt most
  obtain ⟨lower, upper⟩ := near.between positive small (by omega) rfl
  obtain ⟨pos, unpacked⟩ := near.parts.unpacked
  rw [ofFloat_finite unpacked]
  exact clampedRound_finite (halfUp_le positive bound) lower upper

end Rounded

end ImageDigest.Number
