import ImageDigest.Number.Rounding

/-!
What a floating-point number stands for, read off its bits, and its rounding to an integer.
-/

namespace ImageDigest.Number

/-- `± mantissa · 2 ^ exponent`, an infinity, or no number at all. -/
inductive FloatValue where
  | finite (negative : Bool) (mantissa : Nat) (exponent : Int)
  | infinite (negative : Bool)
  | nan
  deriving DecidableEq, Repr

namespace FloatValue

def ofFloat (x : Float) : FloatValue :=
  let bits := x.toBits.toNat
  let negative := decide (Nat.pow 2 63 ≤ bits)
  let exponent : Nat := bits / Nat.pow 2 52 % 2048
  let fraction := bits % Nat.pow 2 52
  if exponent = 2047 then
    if fraction = 0 then .infinite negative else .nan
  else if exponent = 0 then .finite negative fraction (-1074)
  else .finite negative (Nat.pow 2 52 + fraction) ((exponent : Int) - 1075)

def ratio (mantissa : Nat) : Int → Nat × Nat
  | .ofNat e => (mantissa * Nat.pow 2 e, 1)
  | .negSucc e => (mantissa, Nat.pow 2 (e + 1))

/-- The nearest natural number, a half going up: numbers below zero and what is no number
give 0, and everything from `limit` on gives `limit`. -/
def clampedRound (limit : Nat) : FloatValue → Nat
  | .finite false mantissa exponent =>
    let (num, den) := ratio mantissa exponent
    min limit (halfUp num den)
  | .infinite false => limit
  | _ => 0

end FloatValue

/-- The smaller of two numbers; what is no number gives way to the other. -/
def leastNumber (x y : Float) : Float :=
  if x.isNaN then y else if y.isNaN then x else if y < x then y else x

end ImageDigest.Number
