import ImageDigest.Text.Hex

namespace ImageDigest.Fingerprint

def bitValue (b : Bool) : Nat := if b then 1 else 0

def nibble (b₃ b₂ b₁ b₀ : Bool) : Nat :=
  8 * bitValue b₃ + 4 * bitValue b₂ + 2 * bitValue b₁ + bitValue b₀

def nibbleBits (n : Nat) : List Bool := [n.testBit 3, n.testBit 2, n.testBit 1, n.testBit 0]

/-- The digits of a list of bits. A last group of fewer than four is filled up with zeros. -/
def pack : List Bool → List Char
  | b₃ :: b₂ :: b₁ :: b₀ :: rest => Text.Hex.digit (nibble b₃ b₂ b₁ b₀) :: pack rest
  | [] => []
  | [b₃] => [Text.Hex.digit (nibble b₃ false false false)]
  | [b₃, b₂] => [Text.Hex.digit (nibble b₃ b₂ false false)]
  | [b₃, b₂, b₁] => [Text.Hex.digit (nibble b₃ b₂ b₁ false)]

def unpack? : List Char → Option (List Bool)
  | [] => some []
  | c :: rest => do
    let value ← Text.Hex.value? c
    return nibbleBits value ++ (← unpack? rest)

def hexOfBits (bits : List Bool) : String := String.ofList (pack bits)

end ImageDigest.Fingerprint
