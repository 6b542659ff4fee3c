import ImageDigest.Number.FloatValue
import ImageDigest.Proofs.Number.Nearest
import Mathlib

-- The whole of Mathlib is imported for Batteries' lemmas about `packComponents` and its fields,
-- which no smaller module of it brings.

namespace ImageDigest.Number

open Float.Model UnpackedFloat

def halves (em : ExtendedMantissa) : ℕ := 2 * em.mantissa + em.roundBit.toNat

/-- The numbers that a mantissa with two more bits stands for: the first bit is the next one of the
number, and the second tells whether anything is left behind it. -/
structure Brackets (em : ExtendedMantissa) (y : ℚ) : Prop where
  lower : (halves em : ℚ) ≤ 2 * y
  upper : 2 * y < halves em + 1
  rest : em.stickyBit = true ↔ (halves em : ℚ) < 2 * y

theorem brackets_exact (m : ℕ) : Brackets (.ofMantissaAndAccuracy m .exact) m where
  lower := by simp [halves, ExtendedMantissa.ofMantissaAndAccuracy]
  upper := by simp [halves, ExtendedMantissa.ofMantissaAndAccuracy]
  rest := by simp [halves, ExtendedMantissa.ofMantissaAndAccuracy]

theorem brackets_parts (q : ℕ) {r b : ℕ} {first second : Bool} (positive : 0 < b)
    (lower : first.toNat * b ≤ 2 * r) (upper : 2 * r < (first.toNat + 1) * b)
    (rest : second = true ↔ first.toNat * b < 2 * r) :
    Brackets ⟨q, first, second⟩ (((q * b + r : ℕ) : ℚ) / b) := by
  have room : (0 : ℚ) < b := by exact_mod_cast positive
  have twice : 2 * (((q * b + r : ℕ) : ℚ) / b) = ((2 * (q * b) + 2 * r : ℕ) : ℚ) / b := by
    rw [← mul_div_assoc]
    push_cast
    ring
  have scaled : halves ⟨q, first, second⟩ * b = 2 * (q * b) + first.toNat * b := by
    rw [halves]
    ring
  constructor
  · rw [twice, le_div_iff₀ room]
    exact_mod_cast scaled ▸ Nat.add_le_add_left lower _
  · rw [twice, div_lt_iff₀ room]
    have shifted : 2 * (q * b) + 2 * r < halves ⟨q, first, second⟩ * b + b := by
      rw [Nat.add_mul] at upper
      omega
    rw [← Nat.succ_mul] at shifted
    exact_mod_cast shifted
  · rw [twice, lt_div_iff₀ room, rest, ← Nat.cast_mul, scaled, Nat.cast_lt]
    exact Nat.add_lt_add_iff_left.symm

theorem brackets_quotient (a : ℕ) {b : ℕ} (positive : 0 < b) :
    Brackets (.ofMantissaAndAccuracy (a / b) (accuracyOfFraction (a % b) b)) ((a : ℚ) / b) := by
  have below := Nat.mod_lt a positive
  have parts (em : ExtendedMantissa)
      (told : Brackets em (((a / b * b + a % b : ℕ) : ℚ) / b)) : Brackets em ((a : ℚ) / b) := by
    rwa [Nat.div_add_mod'] at told
  apply parts
  unfold accuracyOfFraction
  by_cases exactly : a % b = 0
  · rw [if_pos exactly]
    exact brackets_parts _ positive (by simp) (by simp [exactly, positive]) (by simp [exactly])
  · rw [if_neg exactly]
    cases side : compare (2 * (a % b)) b with
    | lt =>
        have small := Nat.compare_eq_lt.mp side
        exact brackets_parts _ positive (by simp) (by simpa using small)
          (by simpa using Nat.pos_of_ne_zero exactly)
    | eq =>
        have half := Nat.compare_eq_eq.mp side
        exact brackets_parts _ positive (by simp [half]) (by simp [half, positive]) (by simp [half])
    | gt =>
        have large := Nat.compare_eq_gt.mp side
        exact brackets_parts _ positive (by simp; omega) (by simp; omega) (by simpa using large)

section Rounding

theorem halves_cast (em : ExtendedMantissa) :
    (halves em : ℚ) = 2 * em.mantissa + em.roundBit.toNat := by
  rw [halves]
  push_cast
  rfl

theorem roundedMantissa_of_below (m : ℕ) (s : Bool) :
    (ExtendedMantissa.mk m false s).roundedMantissa = m := by
  cases s <;> rfl

theorem roundedMantissa_of_above (m : ℕ) :
    (ExtendedMantissa.mk m true true).roundedMantissa = m + 1 := rfl

theorem roundedMantissa_of_tie (m : ℕ) :
    (ExtendedMantissa.mk m true false).roundedMantissa = m + m % 2 := by
  simp [ExtendedMantissa.roundedMantissa, ExtendedMantissa.accuracy,
    Accuracy.roundToNearestEven]

end Rounding

namespace Brackets

variable {em : ExtendedMantissa} {y : ℚ}

theorem bounds (brackets : Brackets em y) : (em.mantissa : ℚ) ≤ y ∧ y < em.mantissa + 1 := by
  have lower := brackets.lower
  have upper := brackets.upper
  have least : (0 : ℚ) ≤ em.roundBit.toNat := Nat.cast_nonneg _
  have most : (em.roundBit.toNat : ℚ) ≤ 1 := by exact_mod_cast em.roundBit.toNat_le
  rw [halves_cast] at lower upper
  constructor <;> linarith

/-- Both bits behind the mantissa together tell the nearest whole number. -/
theorem roundedMantissa_eq (brackets : Brackets em y) (positive : 0 < y) :
    em.roundedMantissa = wholeNearest y := by
  have ⟨low, high⟩ := brackets.bounds
  rw [wholeNearest_between positive low high]
  rcases em with ⟨m, r, s⟩
  obtain ⟨lower, upper, rest⟩ := brackets
  rw [halves_cast] at lower upper rest
  cases r with
  | false =>
      rw [Bool.toNat_false, Nat.cast_zero] at upper
      rw [roundedMantissa_of_below, if_pos (by linarith)]
  | true =>
      rw [Bool.toNat_true, Nat.cast_one] at lower rest
      have notBelow : ¬ y < (m : ℚ) + 1 / 2 := not_lt.mpr (by linarith)
      rw [if_neg notBelow]
      cases s with
      | true =>
          have more := rest.mp rfl
          rw [roundedMantissa_of_above, if_pos (by linarith)]
      | false =>
          have tie : ¬ (2 * m + 1 : ℚ) < 2 * y := mt rest.mpr Bool.false_ne_true
          rw [roundedMantissa_of_tie, if_neg (by linarith)]

theorem shiftRightOne (brackets : Brackets em y) : Brackets em.shiftRightOne (y / 2) := by
  have ⟨low, high⟩ := brackets.bounds
  rcases em with ⟨m, r, s⟩
  obtain ⟨lower, -, rest⟩ := brackets
  have same : halves (ExtendedMantissa.shiftRightOne ⟨m, r, s⟩) = m := by
    show 2 * (m / 2) + (m % 2 != 0).toNat = m
    rcases Nat.mod_two_eq_zero_or_one m with even | odd
    · rw [even]
      show 2 * (m / 2) + 0 = m
      omega
    · rw [odd]
      show 2 * (m / 2) + 1 = m
      omega
  have twice : 2 * (y / 2) = y := by ring
  refine ⟨?_, ?_, ?_⟩
  · rwa [same, twice]
  · rwa [same, twice]
  · rw [same, twice]
    rw [halves_cast] at lower rest
    cases r with
    | false =>
        rw [Bool.toNat_false, Nat.cast_zero, add_zero, mul_lt_mul_iff_right₀ two_pos] at rest
        exact rest
    | true =>
        rw [Bool.toNat_true, Nat.cast_one] at lower
        exact iff_of_true rfl (by linarith)

theorem shiftRight (brackets : Brackets em y) (n : ℕ) : Brackets (em >>> n) (y / 2 ^ n) := by
  induction n with
  | zero =>
    rw [pow_zero, div_one]
    exact brackets
  | succ n ih =>
    rw [pow_succ, ← div_div]
    exact ih.shiftRightOne

end Brackets

section Settling

variable {m : ℕ} {e t : ℤ} {acc : Accuracy} {y : ℚ}

theorem mul_unit_eq (y : ℚ) {k : ℕ} (gap : e + k = t) : y * 2 ^ e = y / 2 ^ k * 2 ^ t := by
  rw [← gap, zpow_add₀ two_ne_zero, zpow_natCast]
  field_simp

theorem targetExponent_eq (low : -1074 ≤ t) (last : (m.log2 : ℤ) + e = t + 52) :
    Format.binary64.targetExponent (totalExponent m e) = t := by
  simp only [Format.targetExponent, totalExponent, Format.mantissaBits, Format.minExponent]
  norm_num
  omega

theorem shiftToTargetExponent_eq (acc : Accuracy) (low : -1074 ≤ t)
    (last : (m.log2 : ℤ) + e = t + 52) {k : ℕ} (gap : e + k = t) :
    shiftToTargetExponent .binary64 m e acc =
      (ExtendedMantissa.ofMantissaAndAccuracy m acc >>> k, t) := by
  have shift : (t - e).toNat = k := by omega
  rw [shiftToTargetExponent, shiftToExponent, targetExponent_eq low last, shift, gap]

theorem shiftToTargetExponent_self (low : -1074 ≤ t) (lower : 2 ^ 52 ≤ m) (upper : m < 2 ^ 53) :
    shiftToTargetExponent .binary64 m t .exact = (⟨m, false, false⟩, t) := by
  have bits : m.log2 = 52 := (Nat.log2_eq_iff (by omega)).mpr ⟨lower, upper⟩
  rw [shiftToTargetExponent_eq (k := 0) _ low (by omega) (by omega)]
  rfl

theorem shiftToTargetExponent_carry (low : -1074 ≤ t) :
    shiftToTargetExponent .binary64 (2 ^ 53) t .exact = (⟨2 ^ 52, false, false⟩, t + 1) := by
  have bits : (2 ^ 53 : ℕ).log2 = 53 := Nat.log2_two_pow
  rw [shiftToTargetExponent_eq (t := t + 1) (k := 1) _ (by omega) (by omega) (by omega)]
  rfl

theorem mantissa_ofMantissaAndAccuracy (m : ℕ) (acc : Accuracy) :
    (ExtendedMantissa.ofMantissaAndAccuracy m acc).mantissa = m := by
  cases acc with
  | exact => rfl
  | inexact side => cases side <;> rfl

theorem Brackets.window (brackets : Brackets (.ofMantissaAndAccuracy m acc) y) {k : ℕ}
    (positive : 0 < m) (bits : m.log2 = 52 + k) :
    (2 : ℚ) ^ 52 ≤ y / 2 ^ k ∧ y / 2 ^ k < 2 ^ 53 := by
  have ⟨lower, upper⟩ := brackets.bounds
  rw [mantissa_ofMantissaAndAccuracy] at lower upper
  have ⟨least, most⟩ := (Nat.log2_eq_iff positive.ne').mp bits
  have unit : (0 : ℚ) < 2 ^ k := by positivity
  constructor
  · rw [le_div_iff₀ unit, ← pow_add]
    have : ((2 ^ (52 + k) : ℕ) : ℚ) ≤ m := by exact_mod_cast least
    push_cast at this
    linarith
  · rw [div_lt_iff₀ unit, ← pow_add]
    have : ((m + 1 : ℕ) : ℚ) ≤ (2 ^ (53 + k) : ℕ) := by
      have : 52 + k + 1 = 53 + k := by omega
      rw [this] at most
      exact_mod_cast most
    push_cast at this
    linarith

/-- A number of at least 53 bits is rounded to the nearest one of 53 bits. -/
theorem roundWithAccuracy_near (s : Sign) (positive : 0 < m)
    (brackets : Brackets (.ofMantissaAndAccuracy m acc) y) (low : -1074 ≤ t)
    (last : (m.log2 : ℤ) + e = t + 52) (long : e ≤ t) :
    ∃ M E, ∃ pos : 0 < M, roundWithAccuracy .binary64 s m e acc = .finite s M E pos ∧
      2 ^ 52 ≤ M ∧ M < 2 ^ 53 ∧ t ≤ E ∧ E ≤ t + 1 ∧ (M : ℚ) * 2 ^ E = nearest (y * 2 ^ e) := by
  obtain ⟨k, gap⟩ : ∃ k : ℕ, e + k = t := ⟨(t - e).toNat, by omega⟩
  obtain ⟨least, most⟩ := brackets.window (k := k) positive (by omega)
  have present : 0 < y / 2 ^ k := lt_of_lt_of_le (by norm_num) least
  have whole := (brackets.shiftRight k).roundedMantissa_eq present
  have near := abs_le.mp (wholeNearest_near present)
  have first := shiftToTargetExponent_eq acc low last gap
  generalize ExtendedMantissa.ofMantissaAndAccuracy m acc >>> k = em at whole first
  have value : (em.roundedMantissa : ℚ) * 2 ^ t = nearest (y * 2 ^ e) := by
    rw [mul_unit_eq y gap, nearest_mul_two_zpow least most, whole]
  rw [← whole] at near
  have lower : 2 ^ 52 ≤ em.roundedMantissa := by
    have : ((2 ^ 52 : ℕ) : ℚ) < em.roundedMantissa + 1 := by push_cast; linarith
    exact Nat.le_of_lt_succ (by exact_mod_cast this)
  have upper : em.roundedMantissa ≤ 2 ^ 53 := by
    have : (em.roundedMantissa : ℚ) < ((2 ^ 53 : ℕ) : ℚ) + 1 := by push_cast; linarith
    exact Nat.le_of_lt_succ (by exact_mod_cast this)
  rcases Nat.lt_or_eq_of_le upper with inside | carry
  · refine ⟨em.roundedMantissa, t, by omega, ?_, lower, inside, le_rfl, by omega, value⟩
    simp only [roundWithAccuracy, first, shiftToTargetExponent_self low lower inside]
    exact dif_neg (by omega)
  · refine ⟨2 ^ 52, t + 1, by decide, ?_, le_rfl, by decide, by omega, le_rfl, ?_⟩
    · simp only [roundWithAccuracy, first, carry, shiftToTargetExponent_carry low]
      exact dif_neg (by decide)
    · rw [← value, carry, zpow_add_one₀ two_ne_zero]
      push_cast
      ring

end Settling

section Storage

theorem toNat_implicit (v : BitVec 52) : (1#1 ++ v).toNat = 2 ^ 52 + v.toNat := by
  rw [BitVec.toNat_append, ← Nat.shiftLeft_add_eq_or_of_lt v.isLt]
  rfl

theorem unpack_pack (s : Sign) {m : ℕ} {e : ℤ} (pos : 0 < m) (lower : 2 ^ 52 ≤ m)
    (upper : m < 2 ^ 53) (low : -1074 ≤ e) (high : e ≤ 971) :
    (Float.Model.pack (.finite s m e pos)).unpack = .finite s m e pos := by
  have bits : m.log2 = 52 := (Nat.log2_eq_iff pos.ne').mpr ⟨lower, upper⟩
  obtain ⟨b, biased⟩ : ∃ b : ℕ, (b : ℤ) = e + 1075 := ⟨(e + 1075).toNat, by omega⟩
  have field : (e + (Format.binary64.exponentBias : ℕ) +
      (Format.binary64.mantissaBitsWithoutImplicit : ℕ)).toNat = b := by
    show (e + (1023 : ℕ) + (52 : ℕ)).toNat = b
    omega
  have packed : UnpackedFloat.pack .binary64 (.finite s m e pos) =
      packComponents .binary64 s (BitVec.ofNat 11 b) (BitVec.ofNat 52 m) := by
    simp only [UnpackedFloat.pack, field]
    rw [if_neg (by show ¬ 2 ^ 11 ≤ b + 1; omega), if_pos (by rw [bits]; rfl)]
  have exponent : (BitVec.ofNat 11 b).toNat = b := by
    rw [BitVec.toNat_ofNat, Nat.mod_eq_of_lt (by omega)]
  have mantissa : (1#1 ++ BitVec.ofNat 52 m).toNat = m := by
    rw [toNat_implicit, BitVec.toNat_ofNat]
    omega
  have notLast : BitVec.ofNat 11 b ≠ -1#11 := by
    intro last
    have := congrArg BitVec.toNat last
    rw [exponent] at this
    have : b = 2047 := this
    omega
  have notFirst : BitVec.ofNat 11 b ≠ 0#11 := by
    intro first
    have := congrArg BitVec.toNat first
    rw [exponent] at this
    have : b = 0 := this
    omega
  show UnpackedFloat.unpack .binary64 (UnpackedFloat.pack .binary64 _) = _
  rw [packed]
  unfold UnpackedFloat.unpack
  simp only [unpackExponent_packComponents, unpackMantissa_packComponents,
    unpackSign_packComponents, Sign.ofBitVec_toBitVec]
  rw [if_neg notLast, if_neg notFirst]
  congr 1
  · rw [exponent]
    show (b : ℤ) - ((1023 : ℕ) + (52 : ℕ)) = e
    omega

theorem toNat_exponent (b : BitVec Format.binary64.numBits) :
    (unpackExponent b).toNat = b.toNat / 2 ^ 52 % 2048 := by
  rw [unpackExponent_def, BitVec.extractLsb'_toNat, Nat.shiftRight_eq_div_pow]
  rfl

theorem toNat_mantissa (b : BitVec Format.binary64.numBits) :
    (unpackMantissa b).toNat = b.toNat % 2 ^ 52 := by
  rw [unpackMantissa_def, BitVec.extractLsb'_toNat]
  rfl

theorem positive_of_sign {b : BitVec Format.binary64.numBits}
    (sign : Sign.ofBitVec (unpackSign b) = .positive) :
    b.toNat < 2 ^ 63 := by
  by_contra high
  have one : (unpackSign b).toNat = 1 := by
    rw [unpackSign_def, BitVec.extractLsb'_toNat, Nat.shiftRight_eq_div_pow]
    show b.toNat / 2 ^ 63 % 2 = 1
    have bound : b.toNat < 2 ^ 64 := b.isLt
    omega
  have : unpackSign b = 1#1 := BitVec.eq_of_toNat_eq one
  rw [this] at sign
  cases sign

theorem ofFloat_finite {x : Float} {m : ℕ} {e : ℤ} {pos : 0 < m}
    (unpacked : x.toModel.unpack = .finite .positive m e pos) :
    FloatValue.ofFloat x = .finite false m e := by
  obtain ⟨b, stored⟩ : ∃ b : BitVec Format.binary64.numBits,
      x.toModel.toBits.toBitVec = b := ⟨_, rfl⟩
  have read : x.toBits.toNat = b.toNat := congrArg BitVec.toNat stored
  change UnpackedFloat.unpack .binary64 x.toModel.toBits.toBitVec = _ at unpacked
  rw [stored] at unpacked
  have exponent := toNat_exponent b
  have mantissa := toNat_mantissa b
  have sign (same : Sign.ofBitVec (unpackSign b) = .positive) :
      decide (Nat.pow 2 63 ≤ b.toNat) = false :=
    decide_eq_false (Nat.not_le_of_lt (positive_of_sign same))
  unfold UnpackedFloat.unpack at unpacked
  simp only [FloatValue.ofFloat, read]
  rw [show b.toNat / Nat.pow 2 52 % 2048 = b.toNat / 2 ^ 52 % 2048 from rfl,
    show b.toNat % Nat.pow 2 52 = b.toNat % 2 ^ 52 from rfl, ← exponent, ← mantissa]
  simp only at unpacked
  split at unpacked
  case isTrue => split at unpacked <;> cases unpacked
  case isFalse finite =>
    have notLast : (unpackExponent b).toNat ≠ 2047 := fun last =>
      finite (BitVec.eq_of_toNat_eq last)
    rw [if_neg notLast]
    split at unpacked
    case isTrue small =>
      split at unpacked
      · cases unpacked
      · injection unpacked with same mant expo
        have first : (unpackExponent b).toNat = 0 :=
          congrArg BitVec.toNat small
        rw [if_pos first, sign same, mant, ← expo, first]
        rfl
    case isFalse large =>
      have notFirst : (unpackExponent b).toNat ≠ 0 := fun first =>
        large (BitVec.eq_of_toNat_eq first)
      injection unpacked with same mant expo
      rw [if_neg notFirst, sign same, ← mant, ← expo, toNat_implicit]
      rfl

end Storage

end ImageDigest.Number
