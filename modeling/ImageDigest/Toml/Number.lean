import ImageDigest.Number.Decimal.Read
import ImageDigest.Toml.Text

namespace ImageDigest.Toml

open Reader

/-- Digits, with single underscores between them. -/
def digitGroup (isDigit : Char → Bool) : Reader (List Char) := do
  let first ← satisfy isDigit
  let rest ← many (satisfy isDigit <|> (do skip '_'; satisfy isDigit))
  return first :: rest

def digits : Reader (List Char) := digitGroup Char.isDigit

def sign : Reader Bool := do
  let c ← option? (satisfy fun c => c = '+' || c = '-')
  return c = some '-'

/-- Digits without a leading zero, or a zero alone. -/
def wholeDigits : Reader (List Char) :=
  (do
    let ds ← digits
    if ds.head? = some '0' then failure
    return ds) <|> single (skip '0' *> pure '0')

def signed (negative : Bool) (n : Nat) : Int := if negative then -n else n

/-- The value of digits, up to a limit that no integer in range comes to. -/
def limitedValue (base : Nat) (digits : List Char) : Nat :=
  Number.valueUpTo (Nat.pow 2 64) base (digits.map fun c => (Text.Hex.value? c).getD 0)

def integerInRange (i : Int) : Reader Int :=
  if -9223372036854775808 ≤ i ∧ i ≤ 9223372036854775807 then pure i else failure

def decimalInteger : Reader Int := do
  let negative ← sign
  integerInRange (signed negative (limitedValue 10 (← wholeDigits)))

def basedInteger (letter : Char) (base : Nat) : Reader Int := do
  skipAll ['0', letter]
  let ds ← digitGroup fun c => (Text.Hex.value? c).any (· < base)
  integerInRange (limitedValue base ds)

def integer : Reader Int :=
  basedInteger 'x' 16 <|> basedInteger 'o' 8 <|> basedInteger 'b' 2 <|> decimalInteger

def fraction : Reader (List Char) := do
  skip '.'
  digits

def exponent : Reader Int := do
  let _ ← satisfy fun c => c = 'e' || c = 'E'
  let negative ← sign
  return signed negative (Number.Decimal.exponentValue (← digits))

/-- A number with a fraction, an exponent or both. One too large to be finite is refused. -/
def decimalFloat : Reader Float := do
  let negative ← sign
  let whole ← wholeDigits
  let part ← option? fraction
  let power ← option? exponent
  if part.isNone && power.isNone then failure
  let places := part.getD []
  let value := Number.Decimal.toFloat negative (whole ++ places) (power.getD 0 - places.length)
  if value == Number.Decimal.infinity then failure
  return value

def notANumber : Float := .ofBits 0x7FF8000000000000

def specialFloat : Reader Float := do
  let negative ← sign
  let value ← (skipAll ['i', 'n', 'f'] *> pure Number.Decimal.infinity)
    <|> (skipAll ['n', 'a', 'n'] *> pure notANumber)
  return if negative then -value else value

def float : Reader Float := decimalFloat <|> specialFloat

end ImageDigest.Toml
