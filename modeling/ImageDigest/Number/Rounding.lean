/-!
Rounding of exact quotients: to a natural number, and to the 53 significant bits of a
double-precision number.
-/

namespace ImageDigest.Number

/-- The natural number nearest to `num / den`; a half goes up. -/
def halfUp (num den : Nat) : Nat := (2 * num + den) / (2 * den)

def halfEven (num den : Nat) : Nat :=
  let quotient := num / den
  let twice := 2 * (num % den)
  if twice < den then quotient
  else if den < twice then quotient + 1
  else quotient + quotient % 2

/-- The exponent `e` with `2 ^ e ≤ x < 2 ^ (e + 1)`, for a positive `x`. -/
def binaryExponent (x : Rat) : Int :=
  let guess : Int := (x.num.natAbs.log2 : Int) - x.den.log2
  if x < (2 : Rat) ^ guess then guess - 1 else guess

/-- The number nearest to a nonnegative `x` among those with 53 significant bits; a tie goes
to the even significand. -/
def nearest (x : Rat) : Rat :=
  if x ≤ 0 then 0
  else
    let unit : Rat := (2 : Rat) ^ (binaryExponent x - 52)
    let scaled := x / unit
    (halfEven scaled.num.natAbs scaled.den : Rat) * unit

def nearestSqrt (x : Rat) : Rat :=
  if x ≤ 0 then 0
  else
    let half := Int.fdiv (binaryExponent x) 2 - 52
    let unit : Rat := (2 : Rat) ^ half
    let scaled := x / (unit * unit)
    let root := Nat.sqrt scaled.floor.toNat
    let middle : Rat := (root : Rat) + 1 / 2
    (if middle * middle < scaled then ((root + 1 : Nat) : Rat) else (root : Rat)) * unit

def roundHalfUp (x : Rat) : Nat := (x + 1 / 2).floor.toNat

end ImageDigest.Number
