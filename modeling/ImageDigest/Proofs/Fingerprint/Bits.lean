import ImageDigest.Fingerprint.Similarity
import ImageDigest.Proofs.Except
import ImageDigest.Proofs.Text.Hex
import Mathlib.Order.Bounds.Basic

namespace ImageDigest.Fingerprint

open Text

theorem nibble_lt (b₃ b₂ b₁ b₀ : Bool) : nibble b₃ b₂ b₁ b₀ < 16 := by
  revert b₃ b₂ b₁ b₀
  decide

theorem nibbleBits_nibble (b₃ b₂ b₁ b₀ : Bool) :
    nibbleBits (nibble b₃ b₂ b₁ b₀) = [b₃, b₂, b₁, b₀] := by
  revert b₃ b₂ b₁ b₀
  decide

theorem nibbleBits_length (n : Nat) : (nibbleBits n).length = 4 := rfl

theorem nibble_testBits {n : Nat} (small : n < 16) :
    nibble (n.testBit 3) (n.testBit 2) (n.testBit 1) (n.testBit 0) = n := by
  have table : ∀ n < 16,
      nibble (n.testBit 3) (n.testBit 2) (n.testBit 1) (n.testBit 0) = n := by decide
  exact table n small

theorem pack_nibbleBits {n : Nat} (small : n < 16) (rest : List Bool) :
    pack (nibbleBits n ++ rest) = Hex.digit n :: pack rest := by
  simp only [nibbleBits, List.cons_append, List.nil_append, pack, nibble_testBits small]

theorem unpack_cons {c : Char} {n : Nat} (read : Hex.value? c = some n) (rest : List Char) :
    unpack? (c :: rest) = (unpack? rest).map (nibbleBits n ++ ·) := by
  cases behind : unpack? rest <;> simp [unpack?, read, behind]

theorem unpack_digit (b₃ b₂ b₁ b₀ : Bool) (rest : List Char) :
    unpack? (Hex.digit (nibble b₃ b₂ b₁ b₀) :: rest) =
      (unpack? rest).map ([b₃, b₂, b₁, b₀] ++ ·) := by
  rw [unpack_cons (Hex.value_digit (nibble_lt b₃ b₂ b₁ b₀)), nibbleBits_nibble]

/-- The number of bits that the last group of `length` bits lacks. -/
def filling (length : Nat) : Nat := (4 - length % 4) % 4

theorem filling_isLeast (length : Nat) : IsLeast {k | 4 ∣ length + k} (filling length) := by
  constructor
  · show 4 ∣ length + filling length
    unfold filling
    omega
  · intro k divides
    have whole : 4 ∣ length + k := divides
    unfold filling
    omega

theorem filling_four (length : Nat) : filling (length + 4) = filling length := by
  unfold filling
  omega

theorem filling_of_dvd {length : Nat} (whole : 4 ∣ length) : filling length = 0 := by
  unfold filling
  omega

theorem unpack_pack (bits : List Bool) :
    unpack? (pack bits) = some (bits ++ List.replicate (filling bits.length) false) := by
  -- The cases are the full group, the empty list and the three short groups.
  fun_induction pack bits with
  | case1 b₃ b₂ b₁ b₀ rest ih =>
      rw [unpack_digit, ih]
      simp only [Option.map_some, List.length_cons, filling_four, List.cons_append,
        List.nil_append]
  | case2 => rfl
  | case3 b₃ => exact unpack_digit b₃ false false false []
  | case4 b₃ b₂ => exact unpack_digit b₃ b₂ false false []
  | case5 b₃ b₂ b₁ => exact unpack_digit b₃ b₂ b₁ false []

theorem pack_append {front : List Bool} (whole : 4 ∣ front.length) (back : List Bool) :
    pack (front ++ back) = pack front ++ pack back := by
  fun_induction pack front with
  | case1 b₃ b₂ b₁ b₀ rest ih =>
      have shorter : 4 ∣ rest.length := by
        simp only [List.length_cons] at whole
        omega
      simp only [List.cons_append, pack, ih shorter]
  | case2 => rfl
  | case3 => exact absurd whole (show ¬ 4 ∣ 1 by decide)
  | case4 => exact absurd whole (show ¬ 4 ∣ 2 by decide)
  | case5 => exact absurd whole (show ¬ 4 ∣ 3 by decide)

theorem pack_flatten {rows : List (List Bool)} (whole : ∀ row ∈ rows, 4 ∣ row.length) :
    pack rows.flatten = (rows.map pack).flatten := by
  induction rows with
  | nil => rfl
  | cons row rest ih =>
      rw [List.flatten_cons, pack_append (whole row List.mem_cons_self),
        ih fun other member => whole other (List.mem_cons_of_mem row member), List.map_cons,
        List.flatten_cons]

theorem pack_length (bits : List Bool) : (pack bits).length = (bits.length + 3) / 4 := by
  fun_induction pack bits with
  | case1 b₃ b₂ b₁ b₀ rest ih =>
      simp only [List.length_cons, ih]
      omega
  | case2 => rfl
  | case3 => simp
  | case4 => simp
  | case5 => simp

theorem pack_lower (bits : List Bool) : ∀ c ∈ pack bits, c ∈ Hex.lowerDigits := by
  have written (b₃ b₂ b₁ b₀ : Bool) : Hex.digit (nibble b₃ b₂ b₁ b₀) ∈ Hex.lowerDigits :=
    Hex.digit_lower (nibble_lt b₃ b₂ b₁ b₀)
  fun_induction pack bits with
  | case1 b₃ b₂ b₁ b₀ rest ih =>
      intro c member
      rcases List.mem_cons.mp member with rfl | member
      · exact written b₃ b₂ b₁ b₀
      · exact ih c member
  | case2 => intro c member; cases member
  | case3 b₃ => simpa using written b₃ false false false
  | case4 b₃ b₂ => simpa using written b₃ b₂ false false
  | case5 b₃ b₂ b₁ => simpa using written b₃ b₂ b₁ false

/-- Digits that can be read give four bits each, and are what these bits are packed into, but
for their case. -/
theorem unpack_digits (digits : List Char) (shape : ∀ c ∈ digits, Hex.IsDigit c) :
    ∃ bits, unpack? digits = some bits ∧ bits.length = 4 * digits.length ∧
      pack bits = digits.map Char.toLower := by
  induction digits with
  | nil => exact ⟨[], rfl, rfl, rfl⟩
  | cons c rest ih =>
      rcases Hex.value_of_isDigit (shape c List.mem_cons_self) with ⟨n, read, small, written⟩
      obtain ⟨bits, behind, length, packed⟩ :=
        ih (fun d member => shape d (List.mem_cons_of_mem c member))
      refine ⟨nibbleBits n ++ bits, ?_, ?_, ?_⟩
      · rw [unpack_cons read, behind, Option.map_some]
      · simp only [List.length_append, nibbleBits_length, length, List.length_cons]
        omega
      · rw [pack_nibbleBits small, written, packed, List.map_cons]

theorem unpack_none {digits : List Char} {c : Char} (member : c ∈ digits)
    (shape : ¬ Hex.IsDigit c) : unpack? digits = none := by
  have unread : Hex.value? c = none := (Hex.value_none_iff c).mpr shape
  induction digits with
  | nil => cases member
  | cons d rest ih =>
      cases read : Hex.value? d with
      | none => simp [unpack?, read]
      | some n =>
          rcases List.mem_cons.mp member with rfl | member
          · rw [unread] at read
            cases read
          · rw [unpack_cons read, ih member, Option.map_none]

theorem bitsOf_digits {text : String} (shape : ∀ c ∈ text.toList, Hex.IsDigit c) :
    ∃ bits, bitsOf text = .ok bits ∧ bits.length = 4 * text.length ∧
      hexOfBits bits = text.toLower := by
  rcases unpack_digits text.toList shape with ⟨bits, read, length, packed⟩
  refine ⟨bits, by rw [bitsOf, read], by rw [length, String.length_toList], ?_⟩
  have lower : text.toLower.toList = text.toList.map Char.toLower := String.toList_map
  apply String.toList_injective
  rw [hexOfBits, String.toList_ofList, packed, lower]

theorem bitsOf_invalid {text : String} {c : Char} (member : c ∈ text.toList)
    (shape : ¬ Hex.IsDigit c) : bitsOf text = .error (.invalidHex text) := by
  rw [bitsOf, unpack_none member shape]

theorem digits_of_bitsOf {text : String} {bits : List Bool} (read : bitsOf text = .ok bits) :
    ∀ c ∈ text.toList, Hex.IsDigit c := by
  intro c member
  by_contra shape
  exact ok_error_absurd read (bitsOf_invalid member shape)

theorem bitsOf_ok {text : String} {bits : List Bool} (read : bitsOf text = .ok bits) :
    bits.length = 4 * text.length ∧ hexOfBits bits = text.toLower := by
  rcases bitsOf_digits (digits_of_bitsOf read) with ⟨bits', read', length, packed⟩
  rw [read] at read'
  cases read'
  exact ⟨length, packed⟩

theorem bitsOf_hexOfBits (bits : List Bool) :
    bitsOf (hexOfBits bits) = .ok (bits ++ List.replicate (filling bits.length) false) := by
  rw [bitsOf, hexOfBits, String.toList_ofList, unpack_pack]

theorem bitsOf_hexOfBits_of_dvd {bits : List Bool} (whole : 4 ∣ bits.length) :
    bitsOf (hexOfBits bits) = .ok bits := by
  rw [bitsOf_hexOfBits, filling_of_dvd whole, List.replicate_zero, List.append_nil]

theorem hexOfBits_inj {left right : List Bool} (whole : 4 ∣ left.length)
    (whole' : 4 ∣ right.length) : hexOfBits left = hexOfBits right ↔ left = right := by
  constructor
  · intro same
    have read := bitsOf_hexOfBits_of_dvd whole
    rw [same, bitsOf_hexOfBits_of_dvd whole'] at read
    exact (Except.ok.inj read).symm
  · rintro rfl
    rfl

theorem hexOfBits_length (bits : List Bool) :
    (hexOfBits bits).length = (bits.length + 3) / 4 := by
  rw [hexOfBits, String.length_ofList, pack_length]

theorem hexOfBits_lower (bits : List Bool) :
    ∀ c ∈ (hexOfBits bits).toList, c ∈ Hex.lowerDigits := by
  rw [hexOfBits, String.toList_ofList]
  exact pack_lower bits

/-- Reading undoes packing but for the bits that fill the last digit, and packing undoes reading
but for the case of the digits. Nothing but digits can be read. -/
theorem digits_codec :
    (∀ bits : List Bool,
      (∃ k, IsLeast {k | 4 ∣ bits.length + k} k ∧
        bitsOf (hexOfBits bits) = .ok (bits ++ List.replicate k false)) ∧
      (4 ∣ bits.length → bitsOf (hexOfBits bits) = .ok bits) ∧
      (hexOfBits bits).length = (bits.length + 3) / 4 ∧
      ∀ c ∈ (hexOfBits bits).toList, c ∈ Hex.lowerDigits) ∧
    (∀ text : String,
      ((∃ bits, bitsOf text = .ok bits) ↔ ∀ c ∈ text.toList, Hex.IsDigit c) ∧
      (∀ bits, bitsOf text = .ok bits →
        bits.length = 4 * text.length ∧ hexOfBits bits = text.toLower) ∧
      ((∃ c ∈ text.toList, ¬ Hex.IsDigit c) → bitsOf text = .error (.invalidHex text))) := by
  refine ⟨fun bits => ⟨?_, ?_, hexOfBits_length bits, hexOfBits_lower bits⟩,
    fun text => ⟨⟨?_, ?_⟩, ?_, ?_⟩⟩
  · exact ⟨filling bits.length, filling_isLeast bits.length, bitsOf_hexOfBits bits⟩
  · exact bitsOf_hexOfBits_of_dvd
  · intro readable
    rcases readable with ⟨bits, read⟩
    exact digits_of_bitsOf read
  · intro shape
    rcases bitsOf_digits shape with ⟨bits, read, -⟩
    exact ⟨bits, read⟩
  · intro bits
    exact bitsOf_ok
  · intro misshapen
    rcases misshapen with ⟨c, member, shape⟩
    exact bitsOf_invalid member shape

theorem digits_codec_mixed_case :
    bitsOf (hexOfBits [true, false, true, true]) = .ok [true, false, true, true] ∧
      (∃ bits, bitsOf "0fAb" = .ok bits ∧ bits.length = 16 ∧ hexOfBits bits = "0fab") ∧
      bitsOf "0g" = .error (.invalidHex "0g") := by
  have table : "0fAb".toList.all (fun c => decide (Hex.IsDigit c)) = true := by decide +kernel
  have shape : ∀ c ∈ "0fAb".toList, Hex.IsDigit c := fun c member => Hex.of_table table member
  have stranger : 'g' ∈ "0g".toList := by decide +kernel
  have lower : "0fAb".toLower = "0fab" := by decide +kernel
  rcases (digits_codec.2 "0fAb").1.mpr shape with ⟨bits, read⟩
  refine ⟨(digits_codec.1 _).2.1 (by decide), ⟨bits, read, ?_⟩, ?_⟩
  · rw [← lower]
    exact (digits_codec.2 "0fAb").2.1 bits read
  · exact (digits_codec.2 "0g").2.2 ⟨'g', stranger, by decide⟩

end ImageDigest.Fingerprint
