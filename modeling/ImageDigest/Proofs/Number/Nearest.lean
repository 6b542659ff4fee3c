import ImageDigest.Number.Rounding
import Mathlib.Algebra.Order.Field.Power
import Mathlib.Data.Nat.Log
import Mathlib.Data.Rat.Cast.Order
import Mathlib.Data.Rat.Floor
import Mathlib.Tactic.FieldSimp
import Mathlib.Tactic.Linarith
import Mathlib.Tactic.NormNum
import Mathlib.Tactic.Positivity
import Mathlib.Tactic.Ring

/-! Rounding to 53 significant bits keeps the order of numbers, and leaves alone what has no more
bits than that. -/

namespace ImageDigest.Number

variable {x y : ℚ}

section Exponent

theorem two_zpow_mul_pow {m n : ℤ} {k : ℕ} (sum : m + k = n) : (2 : ℚ) ^ m * 2 ^ k = 2 ^ n := by
  rw [← zpow_natCast, ← zpow_add₀ two_ne_zero, sum]

theorem log2_window {n : ℕ} (positive : 0 < n) :
    (2 : ℚ) ^ n.log2 ≤ n ∧ (n : ℚ) < 2 ^ (n.log2 + 1) := by
  constructor
  · exact_mod_cast Nat.log2_self_le positive.ne'
  · exact_mod_cast Nat.lt_log2_self

theorem quotient_window (num : ℕ) {den : ℕ} (large : 0 < num) (positive : 0 < den) :
    (2 : ℚ) ^ ((num.log2 : ℤ) - den.log2 - 1) ≤ (num : ℚ) / den ∧
      (num : ℚ) / den < 2 ^ ((num.log2 : ℤ) - den.log2 + 1) := by
  have room : (0 : ℚ) < den := by exact_mod_cast positive
  obtain ⟨numLow, numHigh⟩ := log2_window large
  obtain ⟨denLow, denHigh⟩ := log2_window positive
  constructor
  · rw [le_div_iff₀ room]
    calc
      (2 : ℚ) ^ ((num.log2 : ℤ) - den.log2 - 1) * den
          ≤ 2 ^ ((num.log2 : ℤ) - den.log2 - 1) * 2 ^ (den.log2 + 1) :=
        mul_le_mul_of_nonneg_left denHigh.le (by positivity)
      _ = 2 ^ (num.log2 : ℤ) := two_zpow_mul_pow (by push_cast; ring)
      _ = 2 ^ num.log2 := zpow_natCast 2 _
      _ ≤ num := numLow
  · rw [div_lt_iff₀ room]
    calc
      (num : ℚ) < 2 ^ (num.log2 + 1) := numHigh
      _ = 2 ^ ((num.log2 + 1 : ℕ) : ℤ) := (zpow_natCast 2 _).symm
      _ = 2 ^ ((num.log2 : ℤ) - den.log2 + 1) * 2 ^ den.log2 :=
        (two_zpow_mul_pow (by push_cast; ring)).symm
      _ ≤ 2 ^ ((num.log2 : ℤ) - den.log2 + 1) * den :=
        mul_le_mul_of_nonneg_left denLow (by positivity)

theorem num_div_den (positive : 0 < x) : (x.num.natAbs : ℚ) / x.den = x := by
  have sign : 0 ≤ x.num := Rat.num_nonneg.mpr positive.le
  rw [Nat.cast_natAbs, abs_of_nonneg sign, Rat.num_div_den]

theorem binaryExponent_window (positive : 0 < x) :
    (2 : ℚ) ^ binaryExponent x ≤ x ∧ x < 2 ^ (binaryExponent x + 1) := by
  have large : 0 < x.num.natAbs := Int.natAbs_pos.mpr (Rat.num_pos.mpr positive).ne'
  have window := quotient_window x.num.natAbs large x.den_pos
  rw [num_div_den positive] at window
  simp only [binaryExponent]
  split
  case isTrue below => exact ⟨window.1, by rwa [sub_add_cancel]⟩
  case isFalse above => exact ⟨not_lt.mp above, window.2⟩

theorem binaryExponent_mono (positive : 0 < x) (order : x ≤ y) :
    binaryExponent x ≤ binaryExponent y := by
  have low := (binaryExponent_window positive).1
  have high := (binaryExponent_window (positive.trans_le order)).2
  have powers := low.trans_lt (order.trans_lt high)
  rw [zpow_lt_zpow_iff_right₀ one_lt_two] at powers
  omega

theorem binaryExponent_lt {n : ℤ} (positive : 0 < x) (below : x < 2 ^ n) :
    binaryExponent x < n :=
  (zpow_lt_zpow_iff_right₀ one_lt_two).mp ((binaryExponent_window positive).1.trans_lt below)

theorem binaryExponent_eq {n : ℤ} (low : (2 : ℚ) ^ n ≤ x) (high : x < 2 ^ (n + 1)) :
    binaryExponent x = n := by
  have positive : 0 < x := lt_of_lt_of_le (by positivity) low
  have window := binaryExponent_window positive
  have least := (zpow_lt_zpow_iff_right₀ one_lt_two).mp (low.trans_lt window.2)
  have most := binaryExponent_lt positive high
  omega

end Exponent

section Even

theorem halfEven_bounds (num : ℕ) {den : ℕ} (positive : 0 < den) :
    2 * (halfEven num den * den) ≤ 2 * num + den ∧
      2 * num ≤ 2 * (halfEven num den * den) + den := by
  have parts := Nat.div_add_mod' num den
  have rest := Nat.mod_lt num positive
  have next : (num / den + 1) * den = num / den * den + den := Nat.succ_mul _ _
  simp only [halfEven]
  split
  case isTrue => omega
  case isFalse =>
    split
    case isTrue => omega
    case isFalse =>
      rcases Nat.mod_two_eq_zero_or_one (num / den) with even | odd
      · rw [even, Nat.add_zero]
        omega
      · rw [odd]
        omega

def wholeNearest (q : ℚ) : ℕ := halfEven q.num.natAbs q.den

/-- What is rounded up is above the middle between two whole numbers, or on it next to an odd one
below. -/
theorem wholeNearest_between {n : ℕ} (positive : 0 < x) (low : (n : ℚ) ≤ x) (high : x < n + 1) :
    wholeNearest x =
      if x < n + 1 / 2 then n else if (n : ℚ) + 1 / 2 < x then n + 1 else n + n % 2 := by
  have room : (0 : ℚ) < x.den := by exact_mod_cast x.den_pos
  have value : (x.num.natAbs : ℚ) = x * x.den := (div_eq_iff room.ne').mp (num_div_den positive)
  have least : n * x.den ≤ x.num.natAbs := by
    have := mul_le_mul_of_nonneg_right low room.le
    rw [← value] at this
    exact_mod_cast this
  have most : x.num.natAbs < (n + 1) * x.den := by
    have := mul_lt_mul_of_pos_right high room
    rw [← value] at this
    exact_mod_cast this
  have quotient : x.num.natAbs / x.den = n := Nat.div_eq_of_lt_le least most
  have parts := Nat.div_add_mod' x.num.natAbs x.den
  have rest : ((x.num.natAbs % x.den : ℕ) : ℚ) = (x - n) * x.den := by
    rw [quotient] at parts
    have parts : (n * x.den + (x.num.natAbs % x.den : ℕ) : ℚ) = x.num.natAbs := by
      exact_mod_cast parts
    linarith
  have below : 2 * (x.num.natAbs % x.den) < x.den ↔ x < n + 1 / 2 := by
    rw [← Nat.cast_lt (α := ℚ), Nat.cast_mul, rest]
    push_cast
    constructor <;> intro half <;> nlinarith
  have above : x.den < 2 * (x.num.natAbs % x.den) ↔ (n : ℚ) + 1 / 2 < x := by
    rw [← Nat.cast_lt (α := ℚ), Nat.cast_mul, rest]
    push_cast
    constructor <;> intro half <;> nlinarith
  simp only [wholeNearest, halfEven, quotient, below, above]

theorem wholeNearest_near (positive : 0 < x) : |(wholeNearest x : ℚ) - x| ≤ 1 / 2 := by
  have room : (0 : ℚ) < x.den := by exact_mod_cast x.den_pos
  have value := num_div_den positive
  obtain ⟨low, high⟩ := halfEven_bounds x.num.natAbs x.den_pos
  have low : (2 * (wholeNearest x * x.den) : ℚ) ≤ 2 * x.num.natAbs + x.den := by exact_mod_cast low
  have high : (2 * x.num.natAbs : ℚ) ≤ 2 * (wholeNearest x * x.den) + x.den := by
    exact_mod_cast high
  rw [div_eq_iff room.ne'] at value
  rw [value] at low high
  rw [abs_le]
  constructor
  · refine le_of_mul_le_mul_right ?_ room
    linarith
  · refine le_of_mul_le_mul_right ?_ room
    linarith

theorem wholeNearest_mono (positive : 0 < x) (order : x ≤ y) : wholeNearest x ≤ wholeNearest y := by
  have left := abs_le.mp (wholeNearest_near positive)
  have right := abs_le.mp (wholeNearest_near (positive.trans_le order))
  by_contra above
  have step : (wholeNearest y : ℚ) + 1 ≤ wholeNearest x := by exact_mod_cast not_le.mp above
  -- both would be the middle between two whole numbers, and there is one answer for it
  have same : x = y := by linarith [left.2, right.1]
  exact above (same ▸ le_rfl)

theorem wholeNearest_natCast (n : ℕ) : wholeNearest n = n := by
  simp [wholeNearest, halfEven, Nat.mod_one]

end Even

section Nearest

def lastUnit (q : ℚ) : ℚ := 2 ^ (binaryExponent q - 52)

theorem lastUnit_pos (q : ℚ) : 0 < lastUnit q := by
  unfold lastUnit
  positivity

theorem lastUnit_eq {t : ℤ} (low : (2 : ℚ) ^ (t + 52) ≤ x) (high : x < 2 ^ (t + 53)) :
    lastUnit x = 2 ^ t := by
  have next : t + 52 + 1 = t + 53 := by ring
  rw [lastUnit, binaryExponent_eq low (next ▸ high), add_sub_cancel_right]

theorem two_pow_mul_lastUnit (q : ℚ) {k : ℕ} {n : ℤ} (exponent : binaryExponent q + k = n + 52) :
    ((2 ^ k : ℕ) : ℚ) * lastUnit q = 2 ^ n := by
  rw [lastUnit, mul_comm, Nat.cast_pow, Nat.cast_ofNat]
  exact two_zpow_mul_pow (by omega)

theorem nearest_of_pos (positive : 0 < x) :
    nearest x = wholeNearest (x / lastUnit x) * lastUnit x := by
  simp only [nearest, if_neg (not_le.mpr positive)]
  rfl

theorem nearest_close (positive : 0 < x) : |nearest x - x| ≤ lastUnit x / 2 := by
  have unit := lastUnit_pos x
  have near := wholeNearest_near (div_pos positive unit)
  have scaled : (wholeNearest (x / lastUnit x) : ℚ) * lastUnit x - x =
      (wholeNearest (x / lastUnit x) - x / lastUnit x) * lastUnit x := by
    field_simp
  rw [nearest_of_pos positive, scaled, abs_mul, abs_of_pos unit]
  linarith [mul_le_mul_of_nonneg_right near unit.le]

/-- Rounding takes a number off by one part in `2 ^ 53` of itself at most. -/
theorem nearest_close_relative (positive : 0 < x) : |nearest x - x| ≤ x / 2 ^ 53 := by
  have low := (binaryExponent_window positive).1
  rw [← two_pow_mul_lastUnit x (k := 52) rfl] at low
  push_cast at low
  calc
    |nearest x - x| ≤ lastUnit x / 2 := nearest_close positive
    _ ≤ x / 2 ^ 53 := by linarith

theorem nearest_mul_two_zpow {t : ℤ} (low : 2 ^ 52 ≤ x) (high : x < 2 ^ 53) :
    nearest (x * 2 ^ t) = wholeNearest x * 2 ^ t := by
  have unit : (0 : ℚ) < 2 ^ t := by positivity
  have positive : 0 < x := lt_of_lt_of_le (by norm_num) low
  have last : lastUnit (x * 2 ^ t) = 2 ^ t := by
    apply lastUnit_eq
    · rw [add_comm, zpow_add₀ two_ne_zero]
      exact mul_le_mul_of_nonneg_right (by exact_mod_cast low) unit.le
    · rw [add_comm, zpow_add₀ two_ne_zero]
      exact mul_lt_mul_of_pos_right (by exact_mod_cast high) unit
  rw [nearest_of_pos (mul_pos positive unit), last, mul_div_cancel_right₀ _ unit.ne']

theorem nearest_zero : nearest 0 = 0 := if_pos le_rfl

theorem nearest_two_zpow (n : ℤ) : nearest (2 ^ n) = 2 ^ n := by
  have split : (2 : ℚ) ^ n = ((2 ^ 52 : ℕ) : ℚ) * 2 ^ (n - 52) := by
    rw [zpow_sub₀ two_ne_zero]
    push_cast
    field_simp
  rw [split, nearest_mul_two_zpow (by norm_num) (by norm_num), wholeNearest_natCast]

theorem units_le_nearest {n : ℕ} (positive : 0 < x) (present : 0 < n) (below : n * lastUnit x ≤ x) :
    n * lastUnit x ≤ nearest x := by
  have unit := lastUnit_pos x
  have start : (0 : ℚ) < n := by exact_mod_cast present
  have whole := wholeNearest_mono start ((le_div_iff₀ unit).mpr below)
  rw [wholeNearest_natCast] at whole
  rw [nearest_of_pos positive]
  exact mul_le_mul_of_nonneg_right (by exact_mod_cast whole) unit.le

theorem nearest_le_units {n : ℕ} (positive : 0 < x) (above : x ≤ n * lastUnit x) :
    nearest x ≤ n * lastUnit x := by
  have unit := lastUnit_pos x
  have whole := wholeNearest_mono (div_pos positive unit) ((div_le_iff₀ unit).mpr above)
  rw [wholeNearest_natCast] at whole
  rw [nearest_of_pos positive]
  exact mul_le_mul_of_nonneg_right (by exact_mod_cast whole) unit.le

theorem nearest_of_units {n : ℕ} (positive : 0 < x) (units : x = n * lastUnit x) :
    nearest x = x := by
  have present : 0 < n := by
    rw [Nat.pos_iff_ne_zero]
    rintro rfl
    rw [Nat.cast_zero, zero_mul] at units
    exact positive.ne' units
  apply le_antisymm
  · calc
      nearest x ≤ n * lastUnit x := nearest_le_units positive units.le
      _ = x := units.symm
  · calc
      x = n * lastUnit x := units
      _ ≤ nearest x := units_le_nearest positive present units.ge

theorem nearest_window (positive : 0 < x) :
    (2 : ℚ) ^ binaryExponent x ≤ nearest x ∧ nearest x ≤ 2 ^ (binaryExponent x + 1) := by
  obtain ⟨low, high⟩ := binaryExponent_window positive
  have bottom := two_pow_mul_lastUnit x (k := 52) rfl
  have top := two_pow_mul_lastUnit x (k := 53) (n := binaryExponent x + 1) (by omega)
  rw [← bottom] at low ⊢
  rw [← top] at high ⊢
  exact ⟨units_le_nearest positive (by positivity) low, nearest_le_units positive high.le⟩

theorem nearest_nonneg (q : ℚ) : 0 ≤ nearest q := by
  by_cases positive : 0 < q
  · exact le_trans (by positivity) (nearest_window positive).1
  · rw [nearest, if_pos (not_lt.mp positive)]

theorem nearest_mono (order : x ≤ y) : nearest x ≤ nearest y := by
  by_cases positive : 0 < x
  · rcases (binaryExponent_mono positive order).eq_or_lt with same | less
    · -- numbers of one exponent have one unit
      have unit : lastUnit x = lastUnit y := by rw [lastUnit, same, lastUnit]
      have scaled : x / lastUnit y ≤ y / lastUnit y :=
        div_le_div_of_nonneg_right order (lastUnit_pos y).le
      have whole := wholeNearest_mono (div_pos positive (lastUnit_pos y)) scaled
      rw [nearest_of_pos positive, nearest_of_pos (positive.trans_le order), unit]
      exact mul_le_mul_of_nonneg_right (by exact_mod_cast whole) (lastUnit_pos y).le
    · calc
        nearest x ≤ 2 ^ (binaryExponent x + 1) := (nearest_window positive).2
        _ ≤ 2 ^ binaryExponent y := (zpow_le_zpow_iff_right₀ one_lt_two).mpr less
        _ ≤ nearest y := (nearest_window (positive.trans_le order)).1
  · rw [nearest, if_pos (not_lt.mp positive)]
    exact nearest_nonneg y

theorem nearest_natCast {n : ℕ} (small : n < 2 ^ 53) : nearest (n : ℚ) = n := by
  rcases Nat.eq_zero_or_pos n with rfl | large
  · rw [nearest, if_pos Nat.cast_zero.le, Nat.cast_zero]
  have positive : (0 : ℚ) < n := by exact_mod_cast large
  have bits : binaryExponent n < 53 := binaryExponent_lt positive (by exact_mod_cast small)
  obtain ⟨k, gap⟩ : ∃ k : ℕ, binaryExponent n + k = 0 + 52 :=
    ⟨(52 - binaryExponent n).toNat, by omega⟩
  refine nearest_of_units (n := n * 2 ^ k) positive ?_
  rw [Nat.cast_mul, mul_assoc, two_pow_mul_lastUnit n gap, zpow_zero, mul_one]

theorem nearest_le_natCast {n : ℕ} (small : n < 2 ^ 53) (atMost : x ≤ n) : nearest x ≤ n := by
  calc
    nearest x ≤ nearest n := nearest_mono atMost
    _ = n := nearest_natCast small

end Nearest

section Root

variable {n : ℕ}

theorem sqrt_floor_le (atMost : x ≤ n * n) : Nat.sqrt x.floor.toNat ≤ n := by
  have floor : x.floor ≤ (n * n : ℕ) := by
    rw [← Rat.intCast_le_intCast]
    refine (Rat.floor_le x).trans ?_
    push_cast
    exact atMost
  calc
    Nat.sqrt x.floor.toNat ≤ Nat.sqrt (n * n) := Nat.sqrt_le_sqrt (Int.toNat_le.mpr floor)
    _ = n := Nat.sqrt_eq n

/-- Where the middle between a root and the next number has a square below `x`, the next number is
no larger than `n`, the square of which is not below `x`. -/
theorem succ_le_of_middle {root : ℕ} (above : ((root : ℚ) + 1 / 2) * (root + 1 / 2) < x)
    (atMost : x ≤ n * n) : root + 1 ≤ n := by
  have squares := above.trans_le atMost
  have less : (root : ℚ) + 1 / 2 < n := lt_of_mul_self_lt_mul_self₀ (Nat.cast_nonneg n) squares
  have whole : (root : ℚ) < n := by linarith
  exact_mod_cast whole

theorem nearestSqrt_le_one (atMost : x ≤ 1) : nearestSqrt x ≤ 1 := by
  unfold nearestSqrt
  split
  case isTrue => exact zero_le_one
  case isFalse present =>
    have exponent : binaryExponent x < 1 := by
      refine binaryExponent_lt (not_le.mp present) (atMost.trans_lt ?_)
      norm_num
    -- the unit is one divided by a whole number, so one is a whole number of units
    rw [Int.fdiv_eq_ediv_of_nonneg _ (by decide)]
    obtain ⟨k, gap⟩ : ∃ k : ℕ, binaryExponent x / 2 - 52 = -(k : ℤ) :=
      ⟨(52 - binaryExponent x / 2).toNat, by omega⟩
    have room : (0 : ℚ) < (2 ^ k : ℕ) := by positivity
    have unit : (2 : ℚ) ^ (-(k : ℤ)) = 1 / (2 ^ k : ℕ) := by
      rw [zpow_neg, zpow_natCast, one_div]
      push_cast
      rfl
    have scaled : x / (1 / (2 ^ k : ℕ) * (1 / (2 ^ k : ℕ))) ≤ (2 ^ k : ℕ) * (2 ^ k : ℕ) := by
      rw [one_div_mul_one_div, div_div_eq_mul_div, div_one]
      exact mul_le_of_le_one_left (by positivity) atMost
    simp only [gap, unit]
    rw [mul_one_div, div_le_one room]
    split
    case isTrue above => exact_mod_cast succ_le_of_middle above scaled
    case isFalse => exact_mod_cast sqrt_floor_le scaled

end Root

end ImageDigest.Number
