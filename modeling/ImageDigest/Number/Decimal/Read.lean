import ImageDigest.Number.Digits
import ImageDigest.Number.FloatValue

namespace ImageDigest.Number.Decimal

def infinity : Float := .ofBits 0x7FF0000000000000

def digitValue (c : Char) : Nat := c.toNat - '0'.toNat

def digitsValue (digits : List Char) : Nat := valueOf 10 (digits.map digitValue)

/-- The value of the digits of an exponent, which stops growing at 65536: without as many zeros
in front of the exponent, the number has left the finite range. -/
def exponentValue (digits : List Char) : Nat := valueUpTo 65536 10 (digits.map digitValue)

/-- So many digits decide which number a decimal is nearest to: the middle between two
neighbouring numbers has fewer. -/
def decisiveDigits : Nat := 800

/-- The decisive digits, and a one behind them if another digit than zero is cut off. -/
def withoutTail (digits : List Char) : List Char :=
  let isZero := (digits.drop decisiveDigits).all (· = '0')
  digits.take decisiveDigits ++ if isZero then [] else ['1']

/-- The number nearest to `± digits · 10 ^ exponent`. Beyond the range of finite numbers this is
an infinity, and below the least positive number it is zero. -/
def toFloat (negative : Bool) (digits : List Char) (exponent : Int) : Float :=
  let significant := digits.dropWhile (· = '0')
  let kept := withoutTail significant
  let magnitude := significant.length + exponent
  let place := magnitude - kept.length
  let value :=
    if significant.isEmpty ∨ magnitude < -400 then 0
    else if 400 < magnitude then infinity
    else .ofScientific (digitsValue kept) (place < 0) place.natAbs
  if negative then -value else value

def splitSign : List Char → Bool × List Char
  | '-' :: rest => (true, rest)
  | '+' :: rest => (false, rest)
  | text => (false, text)

def exponent? : List Char → Option Int
  | [] => some 0
  | mark :: text =>
    let (negative, digits) := splitSign text
    if (mark = 'e' ∨ mark = 'E') ∧ digits ≠ [] ∧ digits.all Char.isDigit then
      some (if negative then -(exponentValue digits) else exponentValue digits)
    else none

/-- Digits with at most one point, before or after at least one of them, and an exponent. -/
def unsigned? (negative : Bool) (text : List Char) : Option Float :=
  let whole := text.takeWhile Char.isDigit
  let afterWhole := text.dropWhile Char.isDigit
  let afterPoint := if afterWhole.head? = some '.' then some afterWhole.tail else none
  let fraction := (afterPoint.getD []).takeWhile Char.isDigit
  let rest := (afterPoint.map fun digits => digits.dropWhile Char.isDigit).getD afterWhole
  if whole = [] ∧ fraction = [] then none
  else (exponent? rest).map fun exponent =>
    toFloat negative (whole ++ fraction) (exponent - fraction.length)

def named? (negative : Bool) (text : List Char) : Option Float :=
  let name := String.ofList (text.map Char.toLower)
  if name = "inf" ∨ name = "infinity" then some (if negative then -infinity else infinity)
  else if name = "nan" then some (0 / 0)
  else none

def float? (text : String) : Option Float :=
  let (negative, rest) := splitSign text.toList
  named? negative rest <|> unsigned? negative rest

end ImageDigest.Number.Decimal
