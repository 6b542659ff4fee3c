import ImageDigest.Text.Hex

namespace ImageDigest.Text.Hex

def lowerDigits : List Char :=
  ['0', '1', '2', '3', '4', '5', '6', '7', '8', '9', 'a', 'b', 'c', 'd', 'e', 'f']

def upperDigits : List Char := ['A', 'B', 'C', 'D', 'E', 'F']

def IsDigit (c : Char) : Prop := c ∈ lowerDigits ++ upperDigits

instance (c : Char) : Decidable (IsDigit c) :=
  inferInstanceAs (Decidable (c ∈ lowerDigits ++ upperDigits))

theorem value_digit {n : Nat} (small : n < 16) : value? (digit n) = some n := by
  have table : ∀ n < 16, value? (digit n) = some n := by decide
  exact table n small

theorem digit_lower {n : Nat} (small : n < 16) : digit n ∈ lowerDigits := by
  have table : ∀ n < 16, digit n ∈ lowerDigits := by decide
  exact table n small

theorem char_between {low high c : Char} (above : low ≤ c) (below : c ≤ high) :
    c ∈ (List.range' low.toNat (high.toNat + 1 - low.toNat)).map Char.ofNat := by
  have first : low.toNat ≤ c.toNat := above
  have last : c.toNat ≤ high.toNat := below
  refine List.mem_map.mpr ⟨c.toNat, ?_, Char.ofNat_toNat c⟩
  rw [List.mem_range'_1]
  omega

theorem of_table {p : Char → Prop} [DecidablePred p] {table : List Char}
    (checked : table.all (fun c => decide (p c)) = true) {c : Char} (member : c ∈ table) : p c :=
  of_decide_eq_true (List.all_eq_true.mp checked c member)

theorem isDigit_of_value {c : Char} {n : Nat} (read : value? c = some n) : IsDigit c := by
  have decimal : ((List.range' 48 10).map Char.ofNat).all (fun c => decide (IsDigit c)) = true :=
    by decide
  have lower : ((List.range' 97 6).map Char.ofNat).all (fun c => decide (IsDigit c)) = true :=
    by decide
  have upper : ((List.range' 65 6).map Char.ofNat).all (fun c => decide (IsDigit c)) = true :=
    by decide
  unfold value? at read
  split at read
  case isTrue between => exact of_table decimal (char_between between.1 between.2)
  case isFalse =>
    split at read
    case isTrue between => exact of_table lower (char_between between.1 between.2)
    case isFalse =>
      split at read
      case isTrue between => exact of_table upper (char_between between.1 between.2)
      case isFalse => cases read

theorem value_of_isDigit {c : Char} (shape : IsDigit c) :
    ∃ n, value? c = some n ∧ n < 16 ∧ digit n = c.toLower := by
  have table : (lowerDigits ++ upperDigits).all (fun c => (value? c).any fun n =>
      decide (n < 16 ∧ digit n = c.toLower)) = true := by decide
  have row := List.all_eq_true.mp table c shape
  cases read : value? c with
  | none =>
      rw [read] at row
      cases row
  | some n =>
      rw [read, Option.any_some] at row
      exact ⟨n, rfl, of_decide_eq_true row⟩

theorem value_none_iff (c : Char) : value? c = none ↔ ¬ IsDigit c := by
  constructor
  · intro unread shape
    rcases value_of_isDigit shape with ⟨n, read, -⟩
    rw [unread] at read
    cases read
  · intro shape
    cases read : value? c with
    | none => rfl
    | some n => exact absurd (isDigit_of_value read) shape

theorem isDigit_toLower_iff (c : Char) : IsDigit c.toLower ↔ IsDigit c := by
  have letters : ((List.range' 65 26).map Char.ofNat).all
      (fun c => decide (IsDigit c.toLower ↔ IsDigit c)) = true := by decide
  by_cases upper : 'A' ≤ c ∧ c ≤ 'Z'
  · exact of_table letters (char_between upper.1 upper.2)
  · have same : c.toLower = c := dif_neg upper
    rw [same]

theorem utf8Size_digit {c : Char} (shape : IsDigit c) : c.utf8Size = 1 := by
  have table : (lowerDigits ++ upperDigits).all (fun c => decide (c.utf8Size = 1)) = true := by
    decide
  exact of_table table shape

section Bytes

theorem byte?_digits {high low : Char} (left : IsDigit high) (right : IsDigit low) :
    ∃ b, byte? high low = some b ∧ ofByte b = [high.toLower, low.toLower] := by
  obtain ⟨h, readHigh, highSmall, writtenHigh⟩ := value_of_isDigit left
  obtain ⟨l, readLow, lowSmall, writtenLow⟩ := value_of_isDigit right
  refine ⟨UInt8.ofNat (16 * h + l), ?_, ?_⟩
  · rw [byte?, readHigh, readLow]
    rfl
  · have bound : 16 * h + l < 256 := by omega
    have value : (UInt8.ofNat (16 * h + l)).toNat = 16 * h + l := UInt8.toNat_ofNat_of_lt' bound
    rw [ofByte, value, Nat.mul_add_div (by decide), Nat.div_eq_of_lt lowSmall, Nat.add_zero,
      Nat.mul_add_mod, Nat.mod_eq_of_lt lowSmall, writtenHigh, writtenLow]

theorem isDigit_of_byte? {high low : Char} {b : UInt8} (read : byte? high low = some b) :
    IsDigit high ∧ IsDigit low := by
  cases readHigh : value? high with
  | none =>
      rw [byte?, readHigh] at read
      cases read
  | some h =>
      cases readLow : value? low with
      | none =>
          rw [byte?, readHigh, readLow] at read
          cases read
      | some l => exact ⟨isDigit_of_value readHigh, isDigit_of_value readLow⟩

theorem byte?_ofByte (b : UInt8) :
    byte? (digit (b.toNat / 16)) (digit (b.toNat % 16)) = some b := by
  have bound : b.toNat < 256 := b.toNat_lt
  have whole : 16 * (b.toNat / 16) + b.toNat % 16 = b.toNat := Nat.div_add_mod b.toNat 16
  rw [byte?, value_digit (by omega), value_digit (Nat.mod_lt _ (by decide)), Option.bind_eq_bind,
    Option.bind_some, Option.bind_some, whole, UInt8.ofNat_toNat]
  rfl

end Bytes

end ImageDigest.Text.Hex
