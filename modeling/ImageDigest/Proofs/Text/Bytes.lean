import ImageDigest.Proofs.Text.Hex
import Mathlib.Data.List.Basic
import Mathlib.Tactic.NormNum

namespace ImageDigest.Text

def bytes (s : String) : List UInt8 := s.toByteArray.data.toList

theorem bytes_ofList (cs : List Char) :
    bytes (String.ofList cs) = cs.flatMap String.utf8EncodeChar := by
  rw [bytes, String.toByteArray_ofList, List.utf8Encode, List.toList_data_toByteArray]

theorem utf8ByteSize_ofList (cs : List Char) :
    (String.ofList cs).utf8ByteSize = (cs.map Char.utf8Size).sum := by
  have length : (String.ofList cs).utf8ByteSize = (bytes (String.ofList cs)).length := rfl
  rw [length, bytes_ofList, List.length_flatMap]
  simp only [String.length_utf8EncodeChar]

section Slice

/-- The text from one byte to another; there is none if a character would be cut. -/
def slice? (s : String) (first last : ℕ) : Option String :=
  if ends : first ≤ last ∧ String.Pos.Raw.IsValid s ⟨first⟩ ∧ String.Pos.Raw.IsValid s ⟨last⟩ then
    some (s.extract (s.pos ⟨first⟩ ends.2.1) (s.pos ⟨last⟩ ends.2.2))
  else none

theorem isValid_append (front back : String) :
    String.Pos.Raw.IsValid (front ++ back) ⟨front.utf8ByteSize⟩ :=
  String.Pos.Raw.isValid_iff_exists_append.mpr ⟨front, back, rfl, rfl⟩

theorem slice?_append (front middle back : String) :
    slice? (front ++ middle ++ back) front.utf8ByteSize
      (front.utf8ByteSize + middle.utf8ByteSize) = some middle := by
  have first : String.Pos.Raw.IsValid (front ++ middle ++ back) ⟨front.utf8ByteSize⟩ := by
    rw [String.append_assoc]
    exact isValid_append front (middle ++ back)
  have last : String.Pos.Raw.IsValid (front ++ middle ++ back)
      ⟨front.utf8ByteSize + middle.utf8ByteSize⟩ := by
    rw [← String.utf8ByteSize_append]
    exact isValid_append (front ++ middle) back
  have cut : (front ++ middle ++ back).toByteArray.extract front.utf8ByteSize
      (front.utf8ByteSize + middle.utf8ByteSize) = middle.toByteArray := by
    rw [String.append_assoc, String.toByteArray_append, String.toByteArray_append]
    exact (ByteArray.extract_append_size_add (i := 0)).trans (ByteArray.extract_append_eq_left rfl)
  rw [slice?, dif_pos ⟨Nat.le_add_right _ _, first, last⟩, Option.some_inj,
    ← String.toByteArray_inj, String.toByteArray_extract]
  exact cut

end Slice

namespace Hex

def isDigitByte (b : UInt8) : Bool := 48 ≤ b && b ≤ 57 || 65 ≤ b && b ≤ 70 || 97 ≤ b && b ≤ 102

/-- One more digit behind a number that has to stay in a byte. -/
def extend? (n : ℕ) (b : UInt8) : Option ℕ := do
  let value ← value? (.ofUInt8 b)
  if 16 * n + value < 256 then some (16 * n + value) else none

/-- The byte that digits stand for. There may be a plus sign before the digits, but not alone. -/
def fromRadix? (encoding : List UInt8) : Option UInt8 :=
  let digits := if encoding.head? = some 43 then encoding.tail else encoding
  if digits.isEmpty then none else (digits.foldlM extend? 0).map UInt8.ofNat

theorem ascii_of_table {p : Char → Prop} (checked : ∀ n < 128, p (Char.ofNat n)) {c : Char}
    (ascii : c.toNat < 128) : p c := by
  have row := checked c.toNat ascii
  rwa [Char.ofNat_toNat] at row

theorem encode_ascii {c : Char} (ascii : c.toNat < 128) :
    String.utf8EncodeChar c = [UInt8.ofNat c.toNat] :=
  if_pos (Nat.le_of_lt_succ ascii)

theorem isDigit_ascii {c : Char} (shape : IsDigit c) : c.toNat < 128 := by
  have table : (lowerDigits ++ upperDigits).all (fun c => decide (c.toNat < 128)) = true := by
    decide
  exact of_table table shape

theorem encode_long {c : Char} (long : ¬ c.toNat < 128) :
    ∃ n rest, String.utf8EncodeChar c = UInt8.ofNat n :: rest ∧ 192 ≤ n ∧ n < 256 := by
  have above : ¬ c.val.toNat ≤ 0x7f := mt Nat.lt_succ_of_le long
  unfold String.utf8EncodeChar
  rw [if_neg above]
  split
  case isTrue => exact ⟨_, _, rfl, by omega, by omega⟩
  case isFalse =>
    split
    case isTrue => exact ⟨_, _, rfl, by omega, by omega⟩
    case isFalse => exact ⟨_, _, rfl, by omega, by omega⟩

theorem isDigitByte_lead {n : ℕ} (lead : 192 ≤ n) (byte : n < 256) :
    isDigitByte (UInt8.ofNat n) = false := by
  have table : ∀ n < 256, 192 ≤ n → isDigitByte (UInt8.ofNat n) = false := by decide +kernel
  exact table n byte lead

theorem all_encode_iff (c : Char) :
    (String.utf8EncodeChar c).all isDigitByte = true ↔ IsDigit c := by
  by_cases ascii : c.toNat < 128
  · have table : ∀ n < 128, [UInt8.ofNat (Char.ofNat n).toNat].all isDigitByte = true ↔
        IsDigit (Char.ofNat n) := by decide
    rw [encode_ascii ascii]
    exact ascii_of_table (p := fun c => [UInt8.ofNat c.toNat].all isDigitByte = true ↔ IsDigit c)
      table ascii
  · obtain ⟨n, rest, encoding, lead, byte⟩ := encode_long ascii
    refine iff_of_false ?_ (mt isDigit_ascii ascii)
    rw [encoding, List.all_cons, isDigitByte_lead lead byte]
    exact Bool.false_ne_true

theorem all_bytes_iff (cs : List Char) :
    (bytes (String.ofList cs)).all isDigitByte = true ↔ ∀ c ∈ cs, IsDigit c := by
  rw [bytes_ofList, List.all_flatMap, List.all_eq_true]
  simp only [all_encode_iff]

theorem digit_byte {c : Char} (shape : IsDigit c) :
    UInt8.ofNat c.toNat ≠ 43 ∧ Char.ofUInt8 (UInt8.ofNat c.toNat) = c := by
  have table : (lowerDigits ++ upperDigits).all (fun c =>
      decide (UInt8.ofNat c.toNat ≠ 43 ∧ Char.ofUInt8 (UInt8.ofNat c.toNat) = c)) = true := by
    decide
  exact of_table table shape

theorem extend?_digit {c : Char} {n v : ℕ} (shape : IsDigit c) (read : value? c = some v)
    (room : 16 * n + v < 256) : extend? n (UInt8.ofNat c.toNat) = some (16 * n + v) := by
  rw [extend?, (digit_byte shape).2, read]
  exact if_pos room

theorem fromRadix?_pair {high low : Char} (left : IsDigit high) (right : IsDigit low) :
    fromRadix? (bytes (String.ofList [high, low])) = byte? high low := by
  obtain ⟨h, readHigh, highSmall, -⟩ := value_of_isDigit left
  obtain ⟨l, readLow, lowSmall, -⟩ := value_of_isDigit right
  have encoding : bytes (String.ofList [high, low]) =
      [UInt8.ofNat high.toNat, UInt8.ofNat low.toNat] := by
    rw [bytes_ofList, List.flatMap_cons, List.flatMap_cons, List.flatMap_nil,
      encode_ascii (isDigit_ascii left), encode_ascii (isDigit_ascii right)]
    rfl
  have unsigned : ([UInt8.ofNat high.toNat, UInt8.ofNat low.toNat] : List UInt8).head? ≠ some 43 :=
    fun sign => (digit_byte left).1 (Option.some.inj sign)
  have digits : [UInt8.ofNat high.toNat, UInt8.ofNat low.toNat].foldlM extend? 0 =
      some (16 * h + l) := by
    rw [List.foldlM_cons, extend?_digit left readHigh (by omega), Option.bind_eq_bind,
      Option.bind_some, List.foldlM_cons, extend?_digit right readLow (by omega),
      Option.bind_eq_bind, Option.bind_some, List.foldlM_nil, Nat.mul_zero, Nat.zero_add]
    rfl
  rw [encoding, fromRadix?, if_neg unsigned, digits, byte?, readHigh, readLow]
  rfl

end Hex

end ImageDigest.Text
