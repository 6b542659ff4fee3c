import ImageDigest.Proofs.Number.FloatQuotient

/-! What positive floating-point numbers denote: their order, their differences and quotients, and
how far rounding takes these off the exact ones. -/

namespace ImageDigest.Number

open Float.Model UnpackedFloat

/-- The positive number `x` is `v`, with all 53 bits of the mantissa in use. -/
def Denotes (x : Float) (v : ℚ) : Prop := ∃ m e, HasParts x m e ∧ (m : ℚ) * 2 ^ e = v

/-- The number `v` is off `q` by what rounding to 53 bits makes at most. -/
def Rounds (v q : ℚ) : Prop := |v - q| ≤ q / 2 ^ 53

structure Ranges (n : ℤ) (v : ℚ) : Prop where
  low : (2 : ℚ) ^ (-n) ≤ v
  high : v ≤ 2 ^ n

def Moderate (v : ℚ) : Prop := 1 / 1024 ≤ v ∧ v ≤ 1024

variable {x y : Float} {m n : ℕ} {e f t : ℤ} {v w q : ℚ}

section Values

theorem Near.denotes (near : Near x q t m e) : ∃ v, Denotes x v ∧ Rounds v q := by
  have positive : 0 < q := lt_of_lt_of_le (by positivity) near.window_le
  refine ⟨m * 2 ^ e, ⟨m, e, near.parts, rfl⟩, ?_⟩
  rw [Rounds, near.value_eq]
  exact nearest_close_relative positive

theorem HasParts.window (parts : HasParts x m e) :
    (2 : ℚ) ^ (e + 52) ≤ m * 2 ^ e ∧ (m : ℚ) * 2 ^ e < 2 ^ (e + 53) := by
  have unit : (0 : ℚ) < 2 ^ e := by positivity
  have lower : (2 : ℚ) ^ 52 ≤ m := by exact_mod_cast parts.lower
  have upper : (m : ℚ) < 2 ^ 53 := by exact_mod_cast parts.upper
  rw [zpow_add₀ two_ne_zero, zpow_add₀ two_ne_zero, mul_comm, mul_comm ((2 : ℚ) ^ e)]
  exact ⟨mul_le_mul_of_nonneg_right (by exact_mod_cast lower) unit.le,
    mul_lt_mul_of_pos_right (by exact_mod_cast upper) unit⟩

theorem HasParts.lt_of_exponent (left : HasParts x m e) (right : HasParts y n f) (less : e < f) :
    (m : ℚ) * 2 ^ e < n * 2 ^ f :=
  calc
    (m : ℚ) * 2 ^ e < 2 ^ (e + 53) := left.window.2
    _ ≤ 2 ^ (f + 52) := zpow_le_zpow_right₀ one_le_two (by omega)
    _ ≤ n * 2 ^ f := right.window.1

theorem Denotes.lt_iff (left : Denotes x v) (right : Denotes y w) : x < y ↔ v < w := by
  obtain ⟨m, e, parts, rfl⟩ := left
  obtain ⟨n, f, parts', rfl⟩ := right
  obtain ⟨pos, unpacked⟩ := parts.unpacked
  obtain ⟨pos', unpacked'⟩ := parts'.unpacked
  have compared : x < y ↔ e < f ∨ e = f ∧ m < n := by
    rw [Number.lt_iff, order, unpacked, unpacked']
    simp [UnpackedFloat.compare, Ordering.then_eq_lt, Int.compare_eq_lt, Nat.compare_eq_lt]
  rw [compared]
  rcases lt_trichotomy e f with less | rfl | greater
  · exact iff_of_true (.inl less) (parts.lt_of_exponent parts' less)
  · have unit : (0 : ℚ) < 2 ^ e := by positivity
    rw [mul_lt_mul_iff_left₀ unit, Nat.cast_lt]
    simp
  · have above := parts'.lt_of_exponent parts greater
    exact iff_of_false (by omega) above.not_gt

theorem Ranges.exponent {n : ℤ} (range : Ranges n (m * 2 ^ e)) (parts : HasParts x m e) :
    -n - 53 < e ∧ e ≤ n - 52 := by
  have least := (zpow_lt_zpow_iff_right₀ one_lt_two).mp (range.low.trans_lt parts.window.2)
  have most := (zpow_le_zpow_iff_right₀ one_lt_two).mp (parts.window.1.trans range.high)
  omega

theorem Ranges.pos {n : ℤ} (range : Ranges n v) : 0 < v := lt_of_lt_of_le (by positivity) range.low

theorem Moderate.ranges (moderate : Moderate v) : Ranges 10 v := by
  constructor
  · exact le_trans (by norm_num) moderate.1
  · exact moderate.2.trans (by norm_num)

theorem Moderate.exponent (moderate : Moderate (m * 2 ^ e)) (parts : HasParts x m e) :
    -63 < e ∧ e ≤ -42 := by
  have bounds := moderate.ranges.exponent parts
  omega

end Values

section Operations

theorem Denotes.quotient {a b : ℤ} (left : Denotes x v) (right : Denotes y w)
    (range : Ranges a v) (range' : Ranges b w) (room : a + b ≤ 800) :
    Denotes (x / y) (nearest (v / w)) := by
  obtain ⟨m, e, parts, rfl⟩ := left
  obtain ⟨n, f, parts', rfl⟩ := right
  have exponent := range.exponent parts
  have exponent' := range'.exponent parts'
  obtain ⟨t, M, E, near⟩ := div_near parts parts' (by omega) (by omega)
  exact ⟨M, E, near.parts, near.value_eq⟩

theorem Denotes.div (left : Denotes x v) (right : Denotes y w) (moderate : Moderate v)
    (moderate' : Moderate w) : ∃ u, Denotes (x / y) u ∧ Rounds u (v / w) :=
  ⟨_, left.quotient right moderate.ranges moderate'.ranges (by norm_num),
    nearest_close_relative (div_pos moderate.ranges.pos moderate'.ranges.pos)⟩

theorem toModel_sub (x y : Float) :
    (x - y).toModel =
      .pack (UnpackedFloat.sub .binary64 x.toModel.unpack y.toModel.unpack) := rfl

theorem value_aligned (m : ℕ) {g : ℤ} (below : g ≤ e) :
    (m : ℚ) * 2 ^ e = (m * 2 ^ (e - g).toNat : ℕ) * 2 ^ g := by
  obtain ⟨a, shift⟩ : ∃ a : ℕ, (e - g).toNat = a := ⟨_, rfl⟩
  have exponent : e = a + g := by omega
  rw [shift, exponent, zpow_add₀ two_ne_zero, zpow_natCast]
  push_cast
  ring

/-- Both numbers are written with the smaller exponent, and then their mantissas are subtracted. -/
theorem sub_near (left : HasParts x m e) (right : HasParts y n f)
    (less : (n : ℚ) * 2 ^ f < m * 2 ^ e) (low : -500 ≤ e ∧ -500 ≤ f) (high : e ≤ 500 ∧ f ≤ 500) :
    ∃ t M E, Near (x - y) (m * 2 ^ e - n * 2 ^ f) t M E := by
  obtain ⟨pos, unpacked⟩ := left.unpacked
  obtain ⟨pos', unpacked'⟩ := right.unpacked
  obtain ⟨g, smaller⟩ : ∃ g, min e f = g := ⟨_, rfl⟩
  have aligned := value_aligned m (show g ≤ e by omega)
  have aligned' := value_aligned n (show g ≤ f by omega)
  obtain ⟨a, shift⟩ : ∃ a : ℕ, (e - g).toNat = a := ⟨_, rfl⟩
  obtain ⟨b, shift'⟩ : ∃ b : ℕ, (f - g).toNat = b := ⟨_, rfl⟩
  rw [shift] at aligned
  rw [shift'] at aligned'
  have unit : (0 : ℚ) < 2 ^ g := by positivity
  have below : n * 2 ^ b < m * 2 ^ a := by
    rw [aligned, aligned', mul_lt_mul_iff_left₀ unit] at less
    exact_mod_cast less
  obtain ⟨d, rest⟩ : ∃ d, n * 2 ^ b + d = m * 2 ^ a := ⟨_, Nat.add_sub_of_le below.le⟩
  have stored : (x - y).toModel = .pack (.round .binary64 .positive d g) := by
    rw [toModel_sub, unpacked, unpacked']
    have mantissa : ((m * 2 ^ a : ℕ) : ℤ) - (n * 2 ^ b : ℕ) = d := by omega
    simp only [UnpackedFloat.sub, smaller, decreaseExponent, shift, shift', Nat.shiftLeft_eq,
      Sign.apply, mantissa, UnpackedFloat.normalize]
    rw [Int.compare_eq_gt.mpr (by omega)]
    rfl
  have difference : (m : ℚ) * 2 ^ e - n * 2 ^ f = d * 2 ^ g := by
    rw [aligned, aligned', ← rest]
    push_cast
    ring
  have short : d.log2 < 53 + a := by
    rw [Nat.log2_lt (by omega), pow_add]
    have := Nat.mul_lt_mul_of_pos_right left.upper (Nat.two_pow_pos a)
    omega
  obtain ⟨M, E, near⟩ := round_near (d.log2 + g - 52) stored (by omega) (by omega) (by omega)
    (by omega)
  rw [difference]
  exact ⟨_, M, E, near⟩

theorem Denotes.sub (left : Denotes x v) (right : Denotes y w) (moderate : Moderate v)
    (moderate' : Moderate w) (less : w < v) : ∃ u, Denotes (x - y) u ∧ Rounds u (v - w) := by
  obtain ⟨m, e, parts, rfl⟩ := left
  obtain ⟨n, f, parts', rfl⟩ := right
  have exponent := moderate.exponent parts
  have exponent' := moderate'.exponent parts'
  obtain ⟨t, M, E, near⟩ := sub_near parts parts' less (by omega) (by omega)
  exact near.denotes

theorem HasParts.sub_self (parts : HasParts x m e) : x - x = 0 := by
  obtain ⟨pos, unpacked⟩ := parts.unpacked
  have zero : (x - x).toModel = (0 : Float).toModel := by
    rw [toModel_sub, unpacked]
    simp only [UnpackedFloat.sub, min_self, Int.sub_self, UnpackedFloat.normalize]
    rfl
  exact congrArg Float.ofModel zero

theorem HasParts.sub_zero (parts : HasParts x m e) (low : -500 ≤ e) (high : e ≤ 500) :
    HasParts (x - 0) m e := by
  obtain ⟨pos, unpacked⟩ := parts.unpacked
  refine ⟨parts.lower, parts.upper, pos, ?_⟩
  have zero : (0 : Float).toModel.unpack = .zero .positive := rfl
  have stored : (x - 0).toModel = .pack (.finite .positive m e pos) := by
    rw [toModel_sub, unpacked, zero]
    rfl
  rw [stored, unpack_pack .positive pos parts.lower parts.upper (by omega) (by omega)]

theorem Denotes.not_isNaN (denotes : Denotes x v) : x.isNaN = false := by
  obtain ⟨m, e, parts, -⟩ := denotes
  exact (not_isNaN_of_lt parts.pos).2

end Operations

end ImageDigest.Number
