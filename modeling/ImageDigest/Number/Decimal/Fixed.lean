import ImageDigest.Number.FloatValue

namespace ImageDigest.Number.Decimal

def padLeft (width : Nat) (fill : Char) (text : List Char) : List Char :=
  List.replicate (width - text.length) fill ++ text

def placed (places units : Nat) : List Char :=
  let digits := padLeft (places + 1) '0' (Nat.toDigits 10 units)
  let whole := digits.length - places
  digits.take whole ++ '.' :: digits.drop whole

/-- The exact value to the nearest unit of the last place, a tie to the even digit. A number
below zero keeps its sign when it rounds to zero. -/
def fixed (places : Nat) (x : Float) : String :=
  match FloatValue.ofFloat x with
  | .nan => "NaN"
  | .infinite negative => if negative then "-inf" else "inf"
  | .finite negative mantissa exponent =>
    let (num, den) := FloatValue.ratio mantissa exponent
    let text := placed places (halfEven (num * Nat.pow 10 places) den)
    String.ofList (if negative then '-' :: text else text)

end ImageDigest.Number.Decimal
