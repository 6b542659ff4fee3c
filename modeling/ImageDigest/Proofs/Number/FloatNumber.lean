import ImageDigest.Proofs.Number.FloatDifference

namespace ImageDigest.Number

open Float.Model UnpackedFloat

variable {x y : Float} {u w : UnpackedFloat} {v : ℚ}

section Storage

theorem unpack_not_isNaN (s : Sign) {e : BitVec 11} {m : BitVec 52}
    (kept : e = -1#11 → m = 0#52) :
    (UnpackedFloat.unpack .binary64 (packComponents .binary64 s e m)).isNaN = false := by
  unfold UnpackedFloat.unpack
  simp only [unpackExponent_packComponents, unpackMantissa_packComponents]
  split
  case isTrue ones =>
    rw [if_pos (kept ones)]
    rfl
  case isFalse =>
    split
    · split <;> rfl
    · rfl

/-- What is too large for the exponents is stored as infinity. -/
theorem pack_not_isNaN (number : u.isNaN = false) :
    (Float.Model.pack u).unpack.isNaN = false := by
  show (UnpackedFloat.unpack .binary64 (UnpackedFloat.pack .binary64 u)).isNaN = false
  fun_cases UnpackedFloat.pack .binary64 u with
  | case1 => cases number
  | case2 s => exact unpack_not_isNaN s fun _ => rfl
  | case3 s => exact unpack_not_isNaN s fun _ => rfl
  | case4 s m e pos biased large => exact unpack_not_isNaN s fun _ => rfl
  | case5 s m e pos bits biased small normal =>
      refine unpack_not_isNaN s fun ones => ?_
      have field : biased % 2 ^ 11 = 2047 := congrArg BitVec.toNat ones
      have below : ¬ 2 ^ 11 ≤ biased + 1 := small
      omega
  | case6 s m e pos bits biased small subnormal =>
      exact unpack_not_isNaN s fun ones => absurd ones (by decide)

theorem roundWithAccuracy_not_isNaN (s : Sign) (m : ℕ) (e : ℤ) (acc : Accuracy) :
    (roundWithAccuracy .binary64 s m e acc).isNaN = false := by
  unfold roundWithAccuracy
  dsimp only
  split <;> rfl

theorem normalize_not_isNaN (m e : ℤ) (zero : Sign) :
    (UnpackedFloat.normalize .binary64 m e zero).isNaN = false := by
  unfold UnpackedFloat.normalize
  split
  · exact roundWithAccuracy_not_isNaN _ _ _ _
  · rfl
  · exact roundWithAccuracy_not_isNaN _ _ _ _

end Storage

section Operations

theorem unpacked_sub_not_isNaN (left : u.isNaN = false) (right : w.isNaN = false)
    (finite : u.isFinite = true ∨ w.isFinite = true) :
    (UnpackedFloat.sub .binary64 u w).isNaN = false := by
  cases u with
  | notANumber => cases left
  | infinity s =>
      cases w with
      | notANumber => cases right
      | infinity t => rcases finite with finite | finite <;> cases finite
      | zero t => rfl
      | finite t n f pos => rfl
  | zero s =>
      cases w with
      | notANumber => cases right
      | infinity t => rfl
      | zero t => cases s <;> cases t <;> rfl
      | finite t n f pos => rfl
  | finite s m e pos =>
      cases w with
      | notANumber => cases right
      | infinity t => rfl
      | zero t => rfl
      | finite t n f pos' => exact normalize_not_isNaN _ _ _

/-- Only the difference of two infinities can be no number. -/
theorem sub_not_isNaN (left : x.isNaN = false) (right : y.isNaN = false)
    (finite : x.isFinite = true ∨ y.isFinite = true) : (x - y).isNaN = false := by
  show (x - y).toModel.unpack.isNaN = false
  rw [toModel_sub]
  exact pack_not_isNaN (unpacked_sub_not_isNaN left right finite)

theorem Denotes.mul_not_isNaN (left : Denotes x v) (right : y.isNaN = false) :
    (x * y).isNaN = false := by
  obtain ⟨m, e, parts, -⟩ := left
  obtain ⟨pos, unpacked⟩ := parts.unpacked
  show (Float.Model.pack (UnpackedFloat.mul .binary64 x.toModel.unpack
    y.toModel.unpack)).unpack.isNaN = false
  rw [unpacked]
  apply pack_not_isNaN
  change y.toModel.unpack.isNaN = false at right
  generalize y.toModel.unpack = w at right ⊢
  cases w with
  | notANumber => cases right
  | infinity t => rfl
  | zero t => rfl
  | finite t n f pos' => exact roundWithAccuracy_not_isNaN _ _ _ _

end Operations

end ImageDigest.Number
