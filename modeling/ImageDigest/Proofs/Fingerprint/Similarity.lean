import ImageDigest.Proofs.Fingerprint.Bits
import ImageDigest.Proofs.Number.FloatValue

namespace ImageDigest.Fingerprint

open Text Number

theorem utf8ByteSize_digits (text : String) (shape : ∀ c ∈ text.toList, Hex.IsDigit c) :
    text.utf8ByteSize = text.length := by
  have general (digits : List Char) (shape : ∀ c ∈ digits, Hex.IsDigit c) :
      (String.ofList digits).utf8ByteSize = digits.length := by
    induction digits with
    | nil => rfl
    | cons c rest ih =>
        rw [String.ofList_cons, String.utf8ByteSize_append, String.utf8ByteSize_singleton,
          Hex.utf8Size_digit (shape c List.mem_cons_self),
          ih (fun d member => shape d (List.mem_cons_of_mem c member)), List.length_cons]
        omega
  have sized := general text.toList shape
  rwa [String.ofList_toList, String.length_toList] at sized

theorem bytes_of_bitsOf {text : String} {bits : List Bool} (read : bitsOf text = .ok bits) :
    bits.length = 4 * text.utf8ByteSize := by
  rw [(bitsOf_ok read).1, utf8ByteSize_digits text (digits_of_bitsOf read)]

section Outcomes

variable {a b : String}

theorem compareDigits_of_size (size : a.utf8ByteSize ≠ b.utf8ByteSize) :
    compareDigits a b = .error (.lengthMismatch a.utf8ByteSize b.utf8ByteSize) :=
  if_pos size

theorem compareDigits_of_empty (size : a.utf8ByteSize = b.utf8ByteSize) (empty : a = "") :
    compareDigits a b = .error .empty := by
  rw [compareDigits, if_neg (not_not.mpr size), empty]
  rfl

theorem compareDigits_of_present (size : a.utf8ByteSize = b.utf8ByteSize) (present : a ≠ "") :
    compareDigits a b = bitsOf a >>= fun left => bitsOf b >>= fun right =>
      .ok (similarityOf (hamming left right) left.length) := by
  have nonempty : ¬ a.isEmpty = true := fun empty => present (String.isEmpty_iff.mp empty)
  rw [compareDigits, if_neg (not_not.mpr size), if_neg nonempty]
  rfl

theorem compareDigits_eq_ok_iff {result : Similarity} :
    compareDigits a b = .ok result ↔
      ∃ left right, bitsOf a = .ok left ∧ bitsOf b = .ok right ∧ left.length = right.length ∧
        left ≠ [] ∧ result = similarityOf (hamming left right) left.length := by
  constructor
  · intro done
    by_cases size : a.utf8ByteSize = b.utf8ByteSize
    case neg => exact (ok_error_absurd done (compareDigits_of_size size)).elim
    by_cases present : a = ""
    case pos => exact (ok_error_absurd done (compareDigits_of_empty size present)).elim
    rw [compareDigits_of_present size present] at done
    rcases bind_ok done with ⟨left, leftRead, done⟩
    rcases bind_ok done with ⟨right, rightRead, done⟩
    have leftBytes := bytes_of_bitsOf leftRead
    have rightBytes := bytes_of_bitsOf rightRead
    refine ⟨left, right, leftRead, rightRead, by rw [leftBytes, rightBytes, size], ?_, ?_⟩
    · rintro rfl
      rw [List.length_nil, eq_comm, Nat.mul_eq_zero, String.utf8ByteSize_eq_zero_iff] at leftBytes
      exact leftBytes.elim (by decide) present
    · exact (Except.ok.inj done).symm
  · intro measured
    rcases measured with ⟨left, right, leftRead, rightRead, length, nonempty, rfl⟩
    have leftBytes := bytes_of_bitsOf leftRead
    have rightBytes := bytes_of_bitsOf rightRead
    have bits : 0 < left.length := List.length_pos_iff.mpr nonempty
    have present : a ≠ "" := by
      rintro rfl
      rw [leftBytes, String.utf8ByteSize_empty] at bits
      exact absurd bits (by decide)
    rw [compareDigits_of_present (by omega) present, leftRead, rightRead]
    rfl

end Outcomes

theorem compareDigits_hexOfBits {left right : List Bool} (length : left.length = right.length)
    (whole : 4 ∣ left.length) (nonempty : left ≠ []) :
    compareDigits (hexOfBits left) (hexOfBits right) =
      .ok (similarityOf (hamming left right) left.length) :=
  compareDigits_eq_ok_iff.mpr ⟨left, right, bitsOf_hexOfBits_of_dvd whole,
    bitsOf_hexOfBits_of_dvd (length ▸ whole), length, nonempty, rfl⟩

theorem hamming_map {α : Type} (cells : List α) (left right : α → Bool) :
    hamming (cells.map left) (cells.map right) = cells.countP fun c => left c != right c := by
  rw [hamming, List.zip_map', List.countP_map]
  rfl

theorem hamming_le (left right : List Bool) : hamming left right ≤ left.length := by
  calc
    hamming left right ≤ (left.zip right).length := List.countP_le_length
    _ ≤ left.length := by
      rw [List.length_zip]
      exact Nat.min_le_left _ _

/-- Up to 64 differing bits of 64 the quotient and the difference are exact. -/
theorem similarityOf_exact {distance : Nat} (bound : distance ≤ bitCount) :
    FloatValue.rational? (.ofFloat (similarityOf distance bitCount).similarity) =
      some (1 - (distance : ℚ) / 64) := by
  have table : ∀ d < bitCount + 1,
      FloatValue.rational? (.ofFloat (similarityOf d bitCount).similarity) =
        some (1 - (d : ℚ) / 64) := by decide +kernel
  exact table distance (Nat.lt_succ_of_le bound)

end ImageDigest.Fingerprint
