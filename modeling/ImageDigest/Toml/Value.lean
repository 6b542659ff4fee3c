import ImageDigest.Number.Decimal.Fixed

/-!
Values of the configuration language: scalars, dates and times, arrays and tables.
-/

namespace ImageDigest.Toml

structure Date where
  year : Nat
  month : Nat
  day : Nat
  deriving DecidableEq, Repr

structure Time where
  hour : Nat
  minute : Nat
  second : Nat
  nanosecond : Nat
  deriving DecidableEq, Repr

inductive Offset where
  | utc
  | minutes (m : Int)
  deriving DecidableEq, Repr

structure Datetime where
  date : Option Date
  time : Option Time
  offset : Option Offset
  deriving DecidableEq, Repr

/-- Tables are lists of entries with increasing keys. -/
inductive Value where
  | string (s : String)
  | integer (i : Int)
  | float (x : Float)
  | boolean (b : Bool)
  | datetime (d : Datetime)
  | array (items : List Value)
  | table (entries : List (String × Value))
  deriving Repr

abbrev Entries := List (String × Value)

def padded (width n : Nat) : List Char :=
  Number.Decimal.padLeft width '0' (Nat.toDigits 10 n)

def Date.text (d : Date) : List Char :=
  padded 4 d.year ++ '-' :: padded 2 d.month ++ '-' :: padded 2 d.day

def fractionText (nanosecond : Nat) : List Char :=
  if nanosecond = 0 then []
  else '.' :: ((padded 9 nanosecond).reverse.dropWhile (· = '0')).reverse

def Time.text (t : Time) : List Char :=
  padded 2 t.hour ++ ':' :: padded 2 t.minute ++ ':' :: padded 2 t.second
    ++ fractionText t.nanosecond

def Offset.text : Offset → List Char
  | .utc => ['Z']
  | .minutes m =>
    (if m < 0 then '-' else '+') :: padded 2 (m.natAbs / 60) ++ ':' :: padded 2 (m.natAbs % 60)

def Datetime.text (d : Datetime) : String :=
  let date := (d.date.map Date.text).getD []
  let mark := if d.date.isSome && d.time.isSome then ['T'] else []
  let time := (d.time.map Time.text).getD []
  String.ofList (date ++ mark ++ time ++ (d.offset.map Offset.text).getD [])

end ImageDigest.Toml
