import ImageDigest.Toml.Number
import ImageDigest.Toml.Value

namespace ImageDigest.Toml

open Reader

def fixedDigits (count least most : Nat) : Reader Nat := fun s =>
  let ds := s.take count
  let n := Number.Decimal.digitsValue ds
  if ds.length = count ∧ ds.all Char.isDigit ∧ least ≤ n ∧ n ≤ most then some (n, s.drop count)
  else none

def isLeap (year : Nat) : Bool := year % 4 = 0 && (year % 100 ≠ 0 || year % 400 = 0)

def daysIn (year month : Nat) : Nat :=
  if month = 2 then if isLeap year then 29 else 28
  else if month = 4 ∨ month = 6 ∨ month = 9 ∨ month = 11 then 30
  else 31

def date : Reader Date := do
  let year ← fixedDigits 4 0 9999
  skip '-'
  let month ← fixedDigits 2 1 12
  skip '-'
  let day ← fixedDigits 2 1 (daysIn year month)
  return ⟨year, month, day⟩

/-- Nanoseconds; digits beyond the ninth are cut off. -/
def secondFraction : Reader Nat := do
  skip '.'
  let first ← satisfy Char.isDigit
  let rest ← takeWhile Char.isDigit
  let kept := (first :: rest).take 9
  return Number.Decimal.digitsValue kept * Nat.pow 10 (9 - kept.length)

def time : Reader Time := do
  let hour ← fixedDigits 2 0 23
  skip ':'
  let minute ← fixedDigits 2 0 59
  skip ':'
  let second ← fixedDigits 2 0 60
  let fraction ← option? secondFraction
  return ⟨hour, minute, second, fraction.getD 0⟩

def offset : Reader Offset :=
  (do
    let _ ← satisfy fun c => c = 'Z' || c = 'z'
    return .utc) <|>
  (do
    let mark ← satisfy fun c => c = '+' || c = '-'
    let hours ← fixedDigits 2 0 23
    skip ':'
    let minutes ← fixedDigits 2 0 59
    return .minutes (signed (mark = '-') (60 * hours + minutes)))

def timeOfDay : Reader (Time × Option Offset) := do
  let _ ← satisfy fun c => c = 'T' || c = 't' || c = ' '
  let t ← time
  return (t, ← option? offset)

def datetime : Reader Datetime :=
  (do
    let d ← date
    let rest ← option? timeOfDay
    return ⟨some d, rest.map Prod.fst, rest.bind Prod.snd⟩) <|>
  (do
    let t ← time
    return ⟨none, some t, none⟩)

/-- The date, the time or both that a text stands for as a whole. -/
def datetime? (text : String) : Option Datetime := do
  let (d, rest) ← datetime text.toList
  if rest.isEmpty then return d else none

end ImageDigest.Toml
