import ImageDigest.Number.FloatValue

/-!
The shortest decimal that reads back as a given floating-point number, and its layout.
-/

namespace ImageDigest.Number.Decimal

/-- The rationals that round to `mantissa · 2 ^ exponent`. The ends belong to it exactly when
the mantissa is even. -/
structure RoundingInterval where
  low : Rat
  high : Rat
  closed : Bool

def RoundingInterval.of (mantissa : Nat) (exponent : Int) : RoundingInterval :=
  let unit : Rat := (2 : Rat) ^ exponent
  let value := (mantissa : Rat) * unit
  let below := if mantissa = Nat.pow 2 52 ∧ -1074 < exponent then unit / 4 else unit / 2
  ⟨value - below, value + unit / 2, mantissa % 2 = 0⟩

def RoundingInterval.holds (interval : RoundingInterval) (x : Rat) : Bool :=
  if interval.closed then interval.low ≤ x && x ≤ interval.high
  else interval.low < x && x < interval.high

/-- The exponent `k` with `10 ^ k ≤ x < 10 ^ (k + 1)`, for a positive `x` that is no further
than `fuel` powers of ten from `10 ^ k`. -/
def decimalExponent (x : Rat) : Nat → Int → Int
  | 0, k => k
  | fuel + 1, k =>
    if x < (10 : Rat) ^ k then decimalExponent x fuel (k - 1)
    else if (10 : Rat) ^ (k + 1) ≤ x then decimalExponent x fuel (k + 1)
    else k

/-- The neighbours of `value` on the grid of multiples of `10 ^ place` that lie in the interval,
the nearer one first; of two at one distance, the even one. -/
def candidate? (interval : RoundingInterval) (value : Rat) (place : Int) : Option Nat :=
  let unit : Rat := (10 : Rat) ^ place
  let low := (value / unit).floor.toNat
  let lowFits := interval.holds (low * unit)
  let highFits := interval.holds ((low + 1 : Nat) * unit)
  let twice := 2 * (value / unit - low)
  if lowFits && highFits then
    if twice < 1 then some low
    else if 1 < twice then some (low + 1)
    else some (low + low % 2)
  else if lowFits then some low
  else if highFits then some (low + 1)
  else none

/-- Digits and exponent of the shortest decimal `digits · 10 ^ place` in the rounding interval
of a positive number, found by trying 1 to 17 digits. -/
def shortest (mantissa : Nat) (exponent : Int) : Nat × Int :=
  let value := (mantissa : Rat) * (2 : Rat) ^ exponent
  let interval := RoundingInterval.of mantissa exponent
  let lead := decimalExponent value 400 0
  let found := (List.range 17).findSome? fun (extra : Nat) =>
    let place := lead - extra
    (candidate? interval value place).map (·, place)
  found.getD (0, 0)

def trimmed : Nat → Nat → Int → Nat × Int
  | 0, digits, place => (digits, place)
  | fuel + 1, digits, place =>
    if digits % 10 = 0 then trimmed fuel (digits / 10) (place + 1) else (digits, place)

/-- Which decimal magnitudes are written without an exponent: those whose point stands more than
`leastPoint` and at most `mostPoint` digits after the first. -/
structure Layout where
  leastPoint : Int
  mostPoint : Int

def zeros (count : Int) : List Char := List.replicate count.toNat '0'

def intText (n : Int) : List Char :=
  if n < 0 then '-' :: Nat.toDigits 10 n.natAbs else Nat.toDigits 10 n.natAbs

def Layout.write (layout : Layout) (digits : List Char) (place : Int) : List Char :=
  let point := (digits.length : Int) + place
  if 0 ≤ place ∧ point ≤ layout.mostPoint then digits ++ zeros place ++ ['.', '0']
  else if 0 < point ∧ point ≤ layout.mostPoint then
    digits.take point.toNat ++ '.' :: digits.drop point.toNat
  else if layout.leastPoint < point ∧ point ≤ 0 then
    '0' :: '.' :: zeros (-point) ++ digits
  else
    match digits with
    | [d] => d :: 'e' :: intText (point - 1)
    | d :: rest => d :: '.' :: rest ++ 'e' :: intText (point - 1)
    | [] => []

def shortestText? (layout : Layout) (x : Float) : Option String :=
  match FloatValue.ofFloat x with
  | .finite negative mantissa exponent =>
    let text :=
      if mantissa = 0 then ['0', '.', '0']
      else
        let (digits, place) := shortest mantissa exponent
        let (digits, place) := trimmed 17 digits place
        layout.write (Nat.toDigits 10 digits) place
    some (String.ofList (if negative then '-' :: text else text))
  | _ => none

end ImageDigest.Number.Decimal
