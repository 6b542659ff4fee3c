import ImageDigest.Color
import ImageDigest.Proofs.Text.Bytes

namespace ImageDigest.Rgb

open Text

variable {text : String} {cs : List Char}

structure Digits (cs : List Char) : Prop where
  length : cs.length = 6
  each : ∀ c ∈ cs, Hex.IsDigit c

def Spells (text : String) (digits : List Char) : Prop :=
  Digits digits ∧ (text.toList = digits ∨ text.toList = '#' :: digits)

section Grammar

theorem Digits.exists_pairs (digits : Digits cs) :
    ∃ r₁ r₀ g₁ g₀ b₁ b₀, cs = [r₁, r₀, g₁, g₀, b₁, b₀] ∧ (Hex.IsDigit r₁ ∧ Hex.IsDigit r₀) ∧
      (Hex.IsDigit g₁ ∧ Hex.IsDigit g₀) ∧ Hex.IsDigit b₁ ∧ Hex.IsDigit b₀ := by
  obtain ⟨length, each⟩ := digits
  rcases cs with _ | ⟨r₁, _ | ⟨r₀, _ | ⟨g₁, _ | ⟨g₀, _ | ⟨b₁, _ | ⟨b₀, _ | _⟩⟩⟩⟩⟩⟩
  case cons.cons.cons.cons.cons.cons.nil =>
    simp only [List.forall_mem_cons] at each
    exact ⟨r₁, r₀, g₁, g₀, b₁, b₀, rfl, ⟨each.1, each.2.1⟩, ⟨each.2.2.1, each.2.2.2.1⟩,
      each.2.2.2.2.1, each.2.2.2.2.2.1⟩
  all_goals simp at length

theorem Digits.read (digits : Digits cs) :
    ∃ c, ofHexDigits? cs = some c ∧ c.hex = String.ofList ('#' :: cs.map Char.toLower) := by
  obtain ⟨r₁, r₀, g₁, g₀, b₁, b₀, rfl, redPair, greenPair, bluePair⟩ := digits.exists_pairs
  obtain ⟨red, readRed, red_eq⟩ := Hex.byte?_digits redPair.1 redPair.2
  obtain ⟨green, readGreen, green_eq⟩ := Hex.byte?_digits greenPair.1 greenPair.2
  obtain ⟨blue, readBlue, blue_eq⟩ := Hex.byte?_digits bluePair.1 bluePair.2
  refine ⟨⟨red, green, blue⟩, ?_, ?_⟩
  · rw [ofHexDigits?, readRed, readGreen, readBlue]
    rfl
  · rw [hex, red_eq, green_eq, blue_eq]
    rfl

theorem digits_of_read {c : Rgb} (read : ofHexDigits? cs = some c) : Digits cs := by
  unfold ofHexDigits? at read
  split at read
  case h_1 r₁ r₀ g₁ g₀ b₁ b₀ =>
    simp only [Option.bind_eq_bind, Option.bind_eq_some_iff] at read
    obtain ⟨red, readRed, green, readGreen, blue, readBlue, -⟩ := read
    have redPair := Hex.isDigit_of_byte? readRed
    have greenPair := Hex.isDigit_of_byte? readGreen
    have bluePair := Hex.isDigit_of_byte? readBlue
    exact ⟨rfl, by simp [redPair, greenPair, bluePair]⟩
  case h_2 => cases read

theorem withoutSign_cases (cs : List Char) :
    withoutSign cs = cs ∨ cs = '#' :: withoutSign cs := by
  unfold withoutSign
  split
  · exact .inr rfl
  · exact .inl rfl

theorem Spells.withoutSign_eq (spells : Spells text cs) : withoutSign text.toList = cs := by
  obtain ⟨digits, plain | signed⟩ := spells
  · rcases withoutSign_cases text.toList with same | signed
    · exact same.trans plain
    · have sign : Hex.IsDigit '#' := digits.each '#' (plain ▸ signed ▸ List.mem_cons_self)
      exact absurd sign (by decide)
  · rw [signed]
    rfl

theorem spells_iff (text : String) :
    (∃ digits, Spells text digits) ↔ Digits (withoutSign text.toList) := by
  constructor
  · rintro ⟨digits, spells⟩
    rw [spells.withoutSign_eq]
    exact spells.1
  · intro digits
    exact ⟨_, digits, (withoutSign_cases text.toList).imp Eq.symm id⟩

theorem Spells.parse (spells : Spells text cs) :
    ∃ c, parse text = .ok c ∧ c.hex = String.ofList ('#' :: cs.map Char.toLower) := by
  obtain ⟨c, read, written⟩ := spells.1.read
  refine ⟨c, ?_, written⟩
  rw [Rgb.parse, spells.withoutSign_eq, read]

theorem parse_of_not_digits (other : ¬ Digits (withoutSign text.toList)) :
    parse text = .error (.invalidHex text) := by
  have unread : ofHexDigits? (withoutSign text.toList) = none :=
    Option.eq_none_iff_forall_ne_some.mpr fun _ read => other (digits_of_read read)
  rw [parse, unread]

theorem parse_ok_iff (text : String) :
    (∃ c, parse text = .ok c) ↔ ∃ digits, Spells text digits := by
  constructor
  · rintro ⟨c, read⟩
    rw [spells_iff]
    by_contra other
    rw [parse_of_not_digits other] at read
    cases read
  · rintro ⟨digits, spells⟩
    obtain ⟨c, read, -⟩ := spells.parse
    exact ⟨c, read⟩

theorem parse_hex (c : Rgb) : parse c.hex = .ok c := by
  have unsigned : withoutSign c.hex.toList =
      Hex.ofByte c.red ++ Hex.ofByte c.green ++ Hex.ofByte c.blue := by
    rw [hex, String.toList_ofList]
    rfl
  have read : ofHexDigits? (Hex.ofByte c.red ++ Hex.ofByte c.green ++ Hex.ofByte c.blue) =
      some c := by
    simp only [Hex.ofByte, List.cons_append, List.nil_append, ofHexDigits?, Hex.byte?_ofByte]
    rfl
  rw [parse, unsigned, read]

end Grammar

section Bytewise

/-- The channel whose two digits begin at a byte. There is nothing to read if a character is cut
there, and no channel if the digits are none. -/
def channel? (digits : String) (first : ℕ) : Option (Option UInt8) :=
  (slice? digits first (first + 2)).map fun pair => Hex.fromRadix? (bytes pair)

def isSixBytes (digits : String) : Bool :=
  digits.utf8ByteSize = 6 && (bytes digits).all Hex.isDigitByte

/-- Reading a color by the bytes of the text: six of them have to be digits, then they are cut into
channels. There is no answer if a character is cut. -/
def readBytes (text : String) : Option (Except ColorError Rgb) := do
  let digits := String.ofList (withoutSign text.toList)
  if isSixBytes digits then
    let red ← channel? digits 0
    let green ← channel? digits 2
    let blue ← channel? digits 4
    let color : Option Rgb := do return ⟨← red, ← green, ← blue⟩
    return color.elim (.error (.invalidHex text)) .ok
  else
    return .error (.invalidHex text)

theorem utf8ByteSize_digits (each : ∀ c ∈ cs, Hex.IsDigit c) :
    (String.ofList cs).utf8ByteSize = cs.length := by
  have single : cs.map Char.utf8Size = cs.map fun _ => 1 :=
    List.map_congr_left fun c member => Hex.utf8Size_digit (each c member)
  rw [utf8ByteSize_ofList, single, List.map_const', List.sum_replicate_nat, Nat.mul_one]

theorem isSixBytes_iff (cs : List Char) : isSixBytes (String.ofList cs) = true ↔ Digits cs := by
  rw [isSixBytes, Bool.and_eq_true, decide_eq_true_eq, Hex.all_bytes_iff]
  constructor
  · rintro ⟨size, each⟩
    exact ⟨(utf8ByteSize_digits each).symm.trans size, each⟩
  · intro digits
    exact ⟨(utf8ByteSize_digits digits.each).trans digits.length, digits.each⟩

theorem channel?_digits (front back : List Char) {high low : Char}
    (each : ∀ c ∈ front ++ [high, low] ++ back, Hex.IsDigit c) :
    channel? (String.ofList (front ++ [high, low] ++ back)) front.length =
      some (Hex.byte? high low) := by
  simp only [List.forall_mem_append, List.forall_mem_cons] at each
  obtain ⟨⟨before, left, right, -⟩, -⟩ := each
  have pair : ∀ c ∈ [high, low], Hex.IsDigit c := by
    simp [left, right]
  have cut : slice? (String.ofList (front ++ [high, low] ++ back)) front.length
      (front.length + 2) = some (String.ofList [high, low]) := by
    have part := slice?_append (String.ofList front) (String.ofList [high, low])
      (String.ofList back)
    rw [utf8ByteSize_digits before, utf8ByteSize_digits pair, ← String.ofList_append,
      ← String.ofList_append] at part
    exact part
  rw [channel?, cut, Option.map_some, Hex.fromRadix?_pair left right]

theorem readBytes_eq (text : String) : readBytes text = some (parse text) := by
  by_cases digits : Digits (withoutSign text.toList)
  · obtain ⟨r₁, r₀, g₁, g₀, b₁, b₀, six, -⟩ := digits.exists_pairs
    have each := digits.each
    rw [six] at each
    have red : channel? (String.ofList [r₁, r₀, g₁, g₀, b₁, b₀]) 0 = some (Hex.byte? r₁ r₀) :=
      channel?_digits [] [g₁, g₀, b₁, b₀] each
    have green : channel? (String.ofList [r₁, r₀, g₁, g₀, b₁, b₀]) 2 = some (Hex.byte? g₁ g₀) :=
      channel?_digits [r₁, r₀] [b₁, b₀] each
    have blue : channel? (String.ofList [r₁, r₀, g₁, g₀, b₁, b₀]) 4 = some (Hex.byte? b₁ b₀) :=
      channel?_digits [r₁, r₀, g₁, g₀] [] each
    rw [readBytes, if_pos ((isSixBytes_iff _).mpr digits), parse, six, red, green, blue]
    change some ((ofHexDigits? [r₁, r₀, g₁, g₀, b₁, b₀]).elim _ _) = _
    cases ofHexDigits? [r₁, r₀, g₁, g₀, b₁, b₀] with
    | none => rfl
    | some c => rfl
  · rw [readBytes, if_neg (mt (isSixBytes_iff _).mp digits), parse_of_not_digits digits]
    rfl

end Bytewise

/-- Exactly the texts of six digits behind at most one number sign are read, and no other text is
changed on the way into the error. Reading by bytes cuts no character, and what is read is written
with the same digits in lowercase. Every color is read back from its digits. -/
theorem hex_grammar :
    (∀ text : String,
      ((∃ c, parse text = .ok c) ↔ ∃ digits, Spells text digits) ∧
      readBytes text = some (parse text) ∧
      (∀ digits, Spells text digits →
        ∃ c, parse text = .ok c ∧ c.hex = String.ofList ('#' :: digits.map Char.toLower)) ∧
      ((¬ ∃ digits, Spells text digits) → parse text = .error (.invalidHex text))) ∧
    (∀ c : Rgb, parse c.hex = .ok c) ∧
    (∀ c : Color, parse c.hex = .ok c.rgb) ∧
    ∀ (rgb : Rgb) (count total : ℕ), parse (Color.counted rgb count total).hex = .ok rgb := by
  refine ⟨?_, parse_hex, fun c => parse_hex c.rgb, fun rgb _ _ => parse_hex rgb⟩
  intro text
  refine ⟨parse_ok_iff text, readBytes_eq text, fun _ spells => spells.parse, ?_⟩
  rw [spells_iff]
  exact parse_of_not_digits

theorem hex_grammar_mixed :
    Spells "#ABcdE9" ['A', 'B', 'c', 'd', 'E', '9'] ∧
    (∃ c, parse "#ABcdE9" = .ok c ∧ c.hex = "#abcde9") ∧
    (¬ ∃ digits, Spells "1é234" digits) ∧
    readBytes "1é234" = some (.error (.invalidHex "1é234")) := by
  have spells : Spells "#ABcdE9" ['A', 'B', 'c', 'd', 'E', '9'] :=
    ⟨⟨rfl, fun _ => Hex.of_table (by decide)⟩, .inr (by decide +kernel)⟩
  have other : ¬ ∃ digits, Spells "1é234" digits := by
    rw [spells_iff]
    intro digits
    exact absurd digits.length (by decide)
  obtain ⟨-, -, written, -⟩ := hex_grammar.1 "#ABcdE9"
  obtain ⟨-, bytewise, -, invalid⟩ := hex_grammar.1 "1é234"
  obtain ⟨c, read, lower⟩ := written _ spells
  have expected : String.ofList ('#' :: ['A', 'B', 'c', 'd', 'E', '9'].map Char.toLower) =
      "#abcde9" := by decide +kernel
  refine ⟨spells, ⟨c, read, lower.trans expected⟩, other, ?_⟩
  rw [bytewise, invalid other]

end ImageDigest.Rgb
