import ImageDigest.Color
import ImageDigest.Proofs.Number.FloatDifference

/-! Saturations of colors as exact numbers, and as they are computed: rounding never turns the order
of two colors around, but it can tell colors of one saturation apart. -/

namespace ImageDigest

open Number

section Error

variable {a b x y d s : ℚ}

theorem rounded_quotient_close (positive : 0 < b) (less : b < a) (top : Rounds y b)
    (bottom : Rounds x a) : |y / x - b / a| ≤ 3 / 2 ^ 53 := by
  obtain ⟨topLow, topHigh⟩ := abs_le.mp top
  obtain ⟨bottomLow, bottomHigh⟩ := abs_le.mp bottom
  have large : 0 < a := positive.trans less
  have room : 0 < x := by linarith
  have least : a * a * (2 / 3) ≤ x * a := by nlinarith
  have low : b * (a * (1 - 1 / 2 ^ 53)) ≤ x * b := by nlinarith
  have high : x * b ≤ b * (a * (1 + 1 / 2 ^ 53)) := by nlinarith
  have low' : b * (1 - 1 / 2 ^ 53) * a ≤ y * a := by nlinarith
  have high' : y * a ≤ b * (1 + 1 / 2 ^ 53) * a := by nlinarith
  have product : b * a ≤ a * a := by nlinarith
  rw [div_sub_div _ _ room.ne' large.ne', abs_div, abs_of_pos (mul_pos room large),
    div_le_iff₀ (mul_pos room large), abs_le]
  constructor <;> linarith

/-- The error of a saturation that is computed with four roundings from its largest channel `a` and
its smallest one `b`. -/
theorem rounded_saturation_close (positive : 0 < b) (less : b < a) (strongest : Rounds x a)
    (weakest : Rounds y b) (spread : Rounds d (x - y)) (quotient : Rounds s (d / x)) :
    |s - (a - b) / a| ≤ 1 / 2 ^ 50 := by
  have large : 0 < a := positive.trans less
  have room : 0 < x := by
    have := (abs_le.mp strongest).1
    linarith
  have remaining : 0 ≤ y / x := by
    have := (abs_le.mp weakest).1
    exact div_nonneg (by linarith) room.le
  have exactly : (a - b) / a = 1 - b / a := by
    field_simp
  have relative : |d / x - (1 - y / x)| ≤ (1 - y / x) / 2 ^ 53 := by
    have scaled : d / x - (1 - y / x) = (d - (x - y)) / x := by
      field_simp
    have scaled' : (1 - y / x) / 2 ^ 53 = (x - y) / 2 ^ 53 / x := by
      field_simp
    rw [scaled, scaled', abs_div, abs_of_pos room]
    exact div_le_div_of_nonneg_right spread room.le
  have ratio := abs_le.mp (rounded_quotient_close positive less weakest strongest)
  have relative := abs_le.mp relative
  have quotient := abs_le.mp quotient
  rw [exactly, abs_le]
  constructor <;> linarith

end Error

namespace Rgb

variable {c d : Rgb}

def upper (c : Rgb) : UInt8 := max c.red (max c.green c.blue)

def lower (c : Rgb) : UInt8 := min c.red (min c.green c.blue)

/-- How far the channels are apart, relative to the largest of them, without any rounding. A black
color has no saturation. -/
def exactSaturation (c : Rgb) : ℚ :=
  if c.upper.toNat = 0 then 0 else ((c.upper.toNat : ℚ) - c.lower.toNat) / c.upper.toNat

section Exact

theorem toNat_max (v w : UInt8) : (max v w).toNat = max v.toNat w.toNat := by
  show (if v ≤ w then w else v).toNat = _
  split <;> rename_i order <;> rw [UInt8.le_iff_toNat_le] at order <;> omega

theorem toNat_min (v w : UInt8) : (min v w).toNat = min v.toNat w.toNat := by
  show (if v ≤ w then v else w).toNat = _
  split <;> rename_i order <;> rw [UInt8.le_iff_toNat_le] at order <;> omega

theorem lower_le_upper (c : Rgb) : c.lower.toNat ≤ c.upper.toNat := by
  rw [lower, upper, toNat_min, toNat_max]
  omega

theorem exactSaturation_eq (c : Rgb) :
    ∃ spread most : ℕ, 0 < most ∧ most ≤ 255 ∧ c.exactSaturation = (spread : ℚ) / most := by
  have bound := c.upper.toNat_lt
  rw [exactSaturation]
  by_cases black : c.upper.toNat = 0
  · exact ⟨0, 1, one_pos, by decide, by simp [black]⟩
  · refine ⟨c.upper.toNat - c.lower.toNat, c.upper.toNat, by omega, by omega, ?_⟩
    rw [if_neg black, Nat.cast_sub c.lower_le_upper]

/-- Different fractions are apart by the inverse of the product of their denominators at least. -/
theorem exactSaturation_gap (less : c.exactSaturation < d.exactSaturation) :
    c.exactSaturation + 1 / 65025 ≤ d.exactSaturation := by
  obtain ⟨p, k, positive, small, ratio⟩ := c.exactSaturation_eq
  obtain ⟨q, l, positive', small', ratio'⟩ := d.exactSaturation_eq
  rw [ratio, ratio'] at less ⊢
  have room : (0 : ℚ) < k := by exact_mod_cast positive
  have room' : (0 : ℚ) < l := by exact_mod_cast positive'
  rw [div_lt_div_iff₀ room room'] at less
  have apart : p * l + 1 ≤ q * k := by exact_mod_cast less
  have apart : (p : ℚ) * l + 1 ≤ q * k := by exact_mod_cast apart
  have product : (k : ℚ) * l ≤ 65025 := by exact_mod_cast Nat.mul_le_mul small small'
  calc
    (p : ℚ) / k + 1 / 65025 ≤ p / k + 1 / (k * l) :=
      add_le_add_right (one_div_le_one_div_of_le (mul_pos room room') product) _
    _ = (p * l + 1) / (k * l) := by field_simp
    _ ≤ q * k / (k * l) := div_le_div_of_nonneg_right apart (mul_pos room room').le
    _ = q / l := by field_simp

theorem exactSaturation_eq_zero_iff (c : Rgb) : c.exactSaturation = 0 ↔ c.lower = c.upper := by
  have order := c.lower_le_upper
  rw [exactSaturation, ← UInt8.toNat_inj]
  by_cases black : c.upper.toNat = 0
  · rw [if_pos black]
    exact iff_of_true rfl (by omega)
  · have room : (c.upper.toNat : ℚ) ≠ 0 := by exact_mod_cast black
    rw [if_neg black, div_eq_zero_iff, or_iff_left room, sub_eq_zero, Nat.cast_inj, eq_comm]

theorem exactSaturation_eq_one_iff (c : Rgb) :
    c.exactSaturation = 1 ↔ 0 < c.upper.toNat ∧ c.lower = 0 := by
  rw [exactSaturation, ← UInt8.toNat_inj]
  by_cases black : c.upper.toNat = 0
  · rw [if_pos black]
    exact iff_of_false zero_ne_one (by omega)
  · have room : (c.upper.toNat : ℚ) ≠ 0 := by exact_mod_cast black
    rw [if_neg black, div_eq_one_iff_eq room, sub_eq_self, Nat.cast_eq_zero]
    exact (and_iff_right (Nat.pos_of_ne_zero black)).symm

theorem lower_eq_of_upper (same : c.exactSaturation = d.exactSaturation)
    (upper : c.upper = d.upper) : c.lower = d.lower := by
  have order := c.lower_le_upper
  have order' := d.lower_le_upper
  rw [exactSaturation, exactSaturation, ← upper] at same
  rw [← upper] at order'
  rw [← UInt8.toNat_inj]
  by_cases black : c.upper.toNat = 0
  · omega
  · have room : (c.upper.toNat : ℚ) ≠ 0 := by exact_mod_cast black
    rwa [if_neg black, if_neg black, div_left_inj' room, sub_right_inj, Nat.cast_inj] at same

theorem exactSaturation_nonneg (c : Rgb) : 0 ≤ c.exactSaturation := by
  obtain ⟨spread, most, -, -, ratio⟩ := c.exactSaturation_eq
  rw [ratio]
  positivity

end Exact

section Computed

theorem toFloat_eq (v : UInt8) : v.toFloat = v.toNat.toUInt64.toFloat := by
  have word : v.toNat.toUInt64.toNat = v.toNat :=
    UInt64.toNat_ofNat_of_lt' (v.toNat_lt.trans (by decide))
  show Float.ofModel (.pack (.ofNat .binary64 v.toNat)) =
    Float.ofModel (.pack (.ofNat .binary64 v.toNat.toUInt64.toNat))
  rw [word]

theorem channel_denotes {v : UInt8} (positive : 0 < v.toNat) :
    ∃ u, Denotes (v.toFloat / 255) u ∧ Rounds u (v.toNat / 255) := by
  have bound := v.toNat_lt
  obtain ⟨t, m, e, near⟩ := toFloat_near positive (by omega)
  obtain ⟨t', m', e', near'⟩ := ofNat_near_of_small (n := 255) (by decide) (by decide)
  have ⟨value, low, high⟩ := near.natCast positive (by omega)
  have ⟨value', low', high'⟩ := near'.natCast (by decide) (by decide)
  obtain ⟨T, M, E, quotient⟩ := div_near near.parts near'.parts (by omega) (by omega)
  rw [value, value', ← toFloat_eq] at quotient
  exact quotient.denotes

theorem channel_moderate {v : UInt8} {u : ℚ} (positive : 0 < v.toNat)
    (rounds : Rounds u (v.toNat / 255)) : Moderate u := by
  have least : (1 : ℚ) ≤ v.toNat := by exact_mod_cast positive
  have most : (v.toNat : ℚ) ≤ 255 := by exact_mod_cast Nat.le_of_lt_succ v.toNat_lt
  obtain ⟨low, high⟩ := abs_le.mp rounds
  constructor <;> linarith

theorem saturation_eq (c : Rgb) :
    c.saturation = if c.upper.toFloat / 255 == 0 then 0 else
      (c.upper.toFloat / 255 - c.lower.toFloat / 255) / (c.upper.toFloat / 255) := rfl

theorem saturation_of_gray (gray : c.lower = c.upper) : c.saturation = 0 := by
  rw [saturation_eq, gray]
  split
  case isTrue => rfl
  case isFalse colored =>
    have positive : 0 < c.upper.toNat := by
      by_contra black
      have zero : c.upper = 0 := UInt8.toNat_inj.mp (by simpa using black)
      rw [zero] at colored
      exact colored (by decide)
    obtain ⟨u, ⟨m, e, parts, -⟩, -⟩ := channel_denotes positive
    rw [parts.sub_self, zero_div_of_pos parts.pos]

theorem strongest_ne_zero (positive : 0 < c.upper.toNat) :
    (c.upper.toFloat / 255 == 0) = false := by
  obtain ⟨u, ⟨m, e, parts, -⟩, -⟩ := channel_denotes positive
  obtain ⟨pos, unpacked⟩ := parts.unpacked
  show (order (c.upper.toFloat / 255) 0 == some .eq) = false
  rw [order, unpacked]
  rfl

theorem saturation_of_pure (positive : 0 < c.upper.toNat) (pure : c.lower = 0) :
    c.saturation = 1 := by
  obtain ⟨u, ⟨m, e, parts, value⟩, rounds⟩ := channel_denotes positive
  have exponent := (value ▸ channel_moderate positive rounds).exponent parts
  have zero : (0 : UInt8).toFloat / 255 = 0 := by decide
  rw [saturation_eq, strongest_ne_zero positive, pure, zero]
  exact (parts.sub_zero (by omega) (by omega)).div_eq_one parts

theorem saturation_of_mixed (positive : 0 < c.lower.toNat) (less : c.lower.toNat < c.upper.toNat) :
    ∃ s, Denotes c.saturation s ∧ |s - c.exactSaturation| ≤ 1 / 2 ^ 50 := by
  have most : (c.upper.toNat : ℚ) ≤ 255 := by exact_mod_cast Nat.le_of_lt_succ c.upper.toNat_lt
  have least : (1 : ℚ) ≤ c.lower.toNat := by exact_mod_cast positive
  have apart : (c.lower.toNat : ℚ) + 1 ≤ c.upper.toNat := by exact_mod_cast less
  obtain ⟨x, strongest, rounds⟩ := channel_denotes (positive.trans less)
  obtain ⟨y, weakest, rounds'⟩ := channel_denotes positive
  have moderate := channel_moderate (positive.trans less) rounds
  have moderate' := channel_moderate positive rounds'
  have top := abs_le.mp rounds
  have bottom := abs_le.mp rounds'
  obtain ⟨d, difference, spread⟩ := strongest.sub weakest moderate moderate' (by linarith)
  have off := abs_le.mp spread
  obtain ⟨s, quotient, last⟩ := difference.div strongest
    ⟨by linarith, by linarith⟩ moderate
  refine ⟨s, ?_, ?_⟩
  · rw [saturation_eq, strongest_ne_zero (positive.trans less)]
    exact quotient
  · have close := rounded_saturation_close (by linarith) (by linarith) rounds rounds' spread last
    have exactly : c.exactSaturation = ((c.upper.toNat : ℚ) / 255 - c.lower.toNat / 255) /
        (c.upper.toNat / 255) := by
      rw [exactSaturation, if_neg (by omega)]
      field_simp
    rwa [exactly]

theorem saturation_of_none (none : c.exactSaturation = 0) : c.saturation = 0 :=
  saturation_of_gray (c.exactSaturation_eq_zero_iff.mp none)

theorem saturation_of_full (full : c.exactSaturation = 1) : c.saturation = 1 := by
  obtain ⟨positive, pure⟩ := c.exactSaturation_eq_one_iff.mp full
  exact saturation_of_pure positive pure

theorem saturation_denotes (some : 0 < c.exactSaturation) :
    ∃ s, Denotes c.saturation s ∧ |s - c.exactSaturation| ≤ 1 / 2 ^ 50 := by
  have differ : c.lower.toNat ≠ c.upper.toNat := by
    rw [ne_eq, UInt8.toNat_inj, ← exactSaturation_eq_zero_iff]
    exact some.ne'
  have less : c.lower.toNat < c.upper.toNat := Nat.lt_of_le_of_ne c.lower_le_upper differ
  by_cases pure : c.lower = 0
  · have full := c.exactSaturation_eq_one_iff.mpr ⟨Nat.zero_lt_of_lt less, pure⟩
    rw [saturation_of_full full, full]
    exact ⟨1, ⟨_, _, one_parts, by norm_num⟩, by norm_num⟩
  · have positive : 0 < c.lower.toNat := by
      rw [← UInt8.toNat_inj] at pure
      exact Nat.pos_of_ne_zero pure
    exact saturation_of_mixed positive less

theorem saturation_not_isNaN (c : Rgb) : c.saturation.isNaN = false := by
  rcases c.exactSaturation_nonneg.eq_or_lt with none | some
  · rw [saturation_of_none none.symm]
    decide
  · obtain ⟨s, denotes, -⟩ := saturation_denotes some
    exact denotes.not_isNaN

theorem saturation_lt (less : c.exactSaturation < d.exactSaturation) :
    c.saturation < d.saturation := by
  have gap := exactSaturation_gap less
  obtain ⟨t, denotes', near'⟩ := saturation_denotes (c.exactSaturation_nonneg.trans_lt less)
  rcases c.exactSaturation_nonneg.eq_or_lt with none | some
  · rw [saturation_of_none none.symm]
    obtain ⟨m, e, parts, -⟩ := denotes'
    exact parts.pos
  · obtain ⟨s, denotes, near⟩ := saturation_denotes some
    rw [denotes.lt_iff denotes']
    have := abs_le.mp near
    have := abs_le.mp near'
    linarith

/-- Where rounding does not tell colors of one saturation apart: without saturation, with all of it,
and for colors with the same largest channel. -/
theorem saturation_congr (same : c.exactSaturation = d.exactSaturation)
    (regular : c.exactSaturation = 0 ∨ c.exactSaturation = 1 ∨ c.upper = d.upper) :
    c.saturation = d.saturation := by
  rcases regular with none | full | upper
  · rw [saturation_of_none none, saturation_of_none (same ▸ none)]
  · rw [saturation_of_full full, saturation_of_full (same ▸ full)]
  · rw [saturation_eq, saturation_eq, upper, lower_eq_of_upper same upper]

end Computed

end Rgb

end ImageDigest
