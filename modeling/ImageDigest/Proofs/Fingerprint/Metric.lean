import ImageDigest.Proofs.Fingerprint.Similarity

/-! The distance of two texts of digits is a metric, for which texts that differ only in case are
one. All other texts are refused, for the first reason that holds. -/

namespace ImageDigest.Fingerprint

open Text

section Hamming

variable {left middle right : List Bool}

theorem differ_eq_zero_iff (x y : Bool) : bitValue (x != y) = 0 ↔ x = y := by
  revert x y
  decide

theorem differ_comm (x y : Bool) : bitValue (x != y) = bitValue (y != x) := by
  revert x y
  decide

theorem differ_triangle (x y z : Bool) :
    bitValue (x != z) ≤ bitValue (x != y) + bitValue (y != z) := by
  revert x y z
  decide

theorem hamming_cons (x y : Bool) (left right : List Bool) :
    hamming (x :: left) (y :: right) = hamming left right + bitValue (x != y) := by
  rw [hamming, List.zip_cons_cons, List.countP_cons]
  rfl

theorem hamming_comm (left right : List Bool) : hamming left right = hamming right left := by
  induction left generalizing right with
  | nil => simp [hamming]
  | cons x left ih =>
      cases right with
      | nil => simp [hamming]
      | cons y right => rw [hamming_cons, hamming_cons, ih, differ_comm]

theorem hamming_eq_zero_iff (length : left.length = right.length) :
    hamming left right = 0 ↔ left = right := by
  induction left generalizing right with
  | nil =>
      cases right with
      | nil => simp [hamming]
      | cons => cases length
  | cons x left ih =>
      cases right with
      | nil => cases length
      | cons y right =>
          rw [hamming_cons, Nat.add_eq_zero_iff, ih (Nat.succ.inj length), differ_eq_zero_iff,
            List.cons.injEq, and_comm]

theorem hamming_triangle (first : left.length = middle.length)
    (second : middle.length = right.length) :
    hamming left right ≤ hamming left middle + hamming middle right := by
  induction left generalizing middle right with
  | nil => simp [hamming]
  | cons x left ih =>
      cases middle with
      | nil => cases first
      | cons y middle =>
          cases right with
          | nil => cases second
          | cons z right =>
              have behind := ih (Nat.succ.inj first) (Nat.succ.inj second)
              have front := differ_triangle x y z
              rw [hamming_cons, hamming_cons, hamming_cons]
              omega

end Hamming

section Reading

variable {text text' : String} {bits bits' : List Bool}

def IsHex (text : String) : Prop := ∀ c ∈ text.toList, Hex.IsDigit c

instance (text : String) : Decidable (IsHex text) :=
  List.decidableBAll Hex.IsDigit text.toList

theorem bitsOf_hexOfBits_of_ok (read : bitsOf text = .ok bits) :
    bitsOf (hexOfBits bits) = .ok bits :=
  bitsOf_hexOfBits_of_dvd ⟨text.length, (bitsOf_ok read).1⟩

/-- Reading does not tell the cases of a letter apart, and nothing else is lost. -/
theorem bits_eq_iff_toLower (read : bitsOf text = .ok bits) (read' : bitsOf text' = .ok bits') :
    bits = bits' ↔ text.toLower = text'.toLower := by
  rw [← (bitsOf_ok read).2, ← (bitsOf_ok read').2]
  constructor
  · intro same
    rw [same]
  · intro same
    have back := bitsOf_hexOfBits_of_ok read
    rw [same, bitsOf_hexOfBits_of_ok read'] at back
    exact (Except.ok.inj back).symm

theorem isHex_of_toLower (same : text'.toLower = text.toLower) (shape : IsHex text) :
    IsHex text' := by
  have lower (text : String) : text.toLower.toList = text.toList.map Char.toLower :=
    String.toList_map
  intro c member
  have inside : c.toLower ∈ text.toList.map Char.toLower := by
    rw [← lower text, ← same, lower text']
    exact List.mem_map_of_mem member
  rcases List.mem_map.mp inside with ⟨d, member', equal⟩
  rw [← Hex.isDigit_toLower_iff, ← equal, Hex.isDigit_toLower_iff]
  exact shape d member'

theorem bitsOf_of_toLower (same : text'.toLower = text.toLower) (read : bitsOf text = .ok bits) :
    bitsOf text' = .ok bits := by
  rcases bitsOf_digits (isHex_of_toLower same (digits_of_bitsOf read)) with ⟨bits', read', -⟩
  rw [read', (bits_eq_iff_toLower read' read).mpr same]

end Reading

section Comparison

variable {a b c a' b' : String} {result result' : Similarity}

structure Comparable (a b : String) : Prop where
  size : a.utf8ByteSize = b.utf8ByteSize
  present : a ≠ ""
  left : IsHex a
  right : IsHex b

theorem compareDigits_ok_iff :
    (∃ result, compareDigits a b = .ok result) ↔ Comparable a b := by
  constructor
  · intro success
    rcases success with ⟨result, done⟩
    rcases compareDigits_eq_ok_iff.mp done with
      ⟨left, right, leftRead, rightRead, length, nonempty, -⟩
    have leftBytes := bytes_of_bitsOf leftRead
    have rightBytes := bytes_of_bitsOf rightRead
    refine ⟨by omega, ?_, digits_of_bitsOf leftRead, digits_of_bitsOf rightRead⟩
    rintro rfl
    exact nonempty (List.length_eq_zero_iff.mp leftBytes)
  · intro comparable
    rcases bitsOf_digits comparable.left with ⟨left, leftRead, -⟩
    rcases bitsOf_digits comparable.right with ⟨right, rightRead, -⟩
    rw [compareDigits_of_present comparable.size comparable.present, leftRead, rightRead]
    exact ⟨_, rfl⟩

theorem bitsOf_of_not_isHex {text : String} (shape : ¬ IsHex text) :
    bitsOf text = .error (.invalidHex text) := by
  simp only [IsHex, not_forall] at shape
  rcases shape with ⟨c, member, stranger⟩
  exact bitsOf_invalid member stranger

theorem compareDigits_of_left (size : a.utf8ByteSize = b.utf8ByteSize) (present : a ≠ "")
    (shape : ¬ IsHex a) : compareDigits a b = .error (.invalidHex a) := by
  rw [compareDigits_of_present size present, bitsOf_of_not_isHex shape, error_bind]

theorem compareDigits_of_right (size : a.utf8ByteSize = b.utf8ByteSize) (present : a ≠ "")
    (shape : IsHex a) (shape' : ¬ IsHex b) : compareDigits a b = .error (.invalidHex b) := by
  rcases bitsOf_digits shape with ⟨left, leftRead, -⟩
  rw [compareDigits_of_present size present, leftRead, ok_bind, bitsOf_of_not_isHex shape',
    error_bind]

theorem distance_le (done : compareDigits a b = .ok result) :
    result.distance ≤ 4 * a.utf8ByteSize := by
  rcases compareDigits_eq_ok_iff.mp done with ⟨left, right, leftRead, -, -, -, rfl⟩
  rw [← bytes_of_bitsOf leftRead]
  exact hamming_le left right

theorem distance_eq_zero_iff (done : compareDigits a b = .ok result) :
    result.distance = 0 ↔ a.toLower = b.toLower := by
  rcases compareDigits_eq_ok_iff.mp done with ⟨left, right, leftRead, rightRead, length, -, rfl⟩
  rw [← bits_eq_iff_toLower leftRead rightRead]
  exact hamming_eq_zero_iff length

theorem compareDigits_comm (done : compareDigits a b = .ok result) :
    compareDigits b a = .ok result := by
  rcases compareDigits_eq_ok_iff.mp done with
    ⟨left, right, leftRead, rightRead, length, nonempty, rfl⟩
  have nonempty' : right ≠ [] :=
    List.length_pos_iff.mp (length ▸ List.length_pos_iff.mpr nonempty)
  rw [hamming_comm left right, length]
  exact compareDigits_eq_ok_iff.mpr
    ⟨right, left, rightRead, leftRead, length.symm, nonempty', rfl⟩

theorem compareDigits_of_toLower (same : a'.toLower = a.toLower) (same' : b'.toLower = b.toLower)
    (done : compareDigits a b = .ok result) : compareDigits a' b' = .ok result := by
  rcases compareDigits_eq_ok_iff.mp done with ⟨left, right, leftRead, rightRead, measured⟩
  exact compareDigits_eq_ok_iff.mpr ⟨left, right, bitsOf_of_toLower same leftRead,
    bitsOf_of_toLower same' rightRead, measured⟩

theorem distance_triangle (first : compareDigits a b = .ok result)
    (second : compareDigits b c = .ok result') :
    ∃ across, compareDigits a c = .ok across ∧
      across.distance ≤ result.distance + result'.distance := by
  rcases compareDigits_eq_ok_iff.mp first with
    ⟨left, middle, leftRead, middleRead, length, nonempty, rfl⟩
  rcases compareDigits_eq_ok_iff.mp second with
    ⟨middle', right, middleRead', rightRead, length', -, rfl⟩
  cases middleRead.symm.trans middleRead'
  exact ⟨_, compareDigits_eq_ok_iff.mpr
      ⟨left, right, leftRead, rightRead, length.trans length', nonempty, rfl⟩,
    hamming_triangle length length'⟩

end Comparison

/-- Two texts are compared exactly if they are digits, equally many and at least one. Otherwise the
first condition that fails is the error. The distance is at most the number of bits, it vanishes
for texts that differ only in case, and the order of the texts and the case of letters make no
difference to the result. -/
theorem compareDigits_metric (a b : String) :
    ((∃ result, compareDigits a b = .ok result) ↔ Comparable a b) ∧
    (a.utf8ByteSize ≠ b.utf8ByteSize →
      compareDigits a b = .error (.lengthMismatch a.utf8ByteSize b.utf8ByteSize)) ∧
    (a.utf8ByteSize = b.utf8ByteSize →
      (a = "" → compareDigits a b = .error .empty) ∧
      (a ≠ "" → ¬ IsHex a → compareDigits a b = .error (.invalidHex a)) ∧
      (a ≠ "" → IsHex a → ¬ IsHex b → compareDigits a b = .error (.invalidHex b))) ∧
    (∀ result, compareDigits a b = .ok result →
      result.distance ≤ 4 * a.utf8ByteSize ∧
      (a.utf8ByteSize < 2 ^ 30 → result.distance < 2 ^ 32) ∧
      (result.distance = 0 ↔ a.toLower = b.toLower) ∧
      compareDigits b a = .ok result ∧
      (∀ a' b', a'.toLower = a.toLower → b'.toLower = b.toLower →
        compareDigits a' b' = .ok result) ∧
      ∀ c result', compareDigits b c = .ok result' →
        ∃ across, compareDigits a c = .ok across ∧
          across.distance ≤ result.distance + result'.distance) := by
  refine ⟨compareDigits_ok_iff, compareDigits_of_size, ?_, ?_⟩
  · intro size
    exact ⟨compareDigits_of_empty size, compareDigits_of_left size, compareDigits_of_right size⟩
  · intro result done
    have bound := distance_le done
    refine ⟨bound, by omega, distance_eq_zero_iff done, compareDigits_comm done, ?_, ?_⟩
    · intro a' b' same same'
      exact compareDigits_of_toLower same same' done
    · intro c result' second
      exact distance_triangle done second

theorem compareDigits_metric_three :
    compareDigits "0fAb" "0Fa8" = .ok (similarityOf 2 16) ∧
      compareDigits "0FAB" "0fa8" = .ok (similarityOf 2 16) ∧
      (∃ across, compareDigits "0fAb" "ff00" = .ok across ∧ across.distance ≤ 9) ∧
      compareDigits "é" "00" = .error (.invalidHex "é") := by
  have near : compareDigits "0fAb" "0Fa8" = .ok (similarityOf 2 16) := by decide +kernel
  have far : compareDigits "0Fa8" "ff00" = .ok (similarityOf 7 16) := by decide +kernel
  have lower : "0fAb".toLower = "0fab" := by decide +kernel
  have upper : "0FAB".toLower = "0fab" := by decide +kernel
  have lower' : "0fa8".toLower = "0fa8" := by decide +kernel
  have upper' : "0Fa8".toLower = "0fa8" := by decide +kernel
  have stranger : ¬ IsHex "é" := by decide +kernel
  have refused := (compareDigits_metric "é" "00").2.2.1 (by decide)
  obtain ⟨-, -, -, metric⟩ := compareDigits_metric "0fAb" "0Fa8"
  obtain ⟨-, -, -, -, otherCase, triangle⟩ := metric _ near
  obtain ⟨across, compared, bound⟩ := triangle _ _ far
  refine ⟨near, otherCase _ _ (upper.trans lower.symm) (lower'.trans upper'.symm), ?_, ?_⟩
  · exact ⟨across, compared, bound⟩
  · exact refused.2.1 (by decide) stranger

end ImageDigest.Fingerprint
