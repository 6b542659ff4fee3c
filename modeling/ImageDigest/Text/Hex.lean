namespace ImageDigest.Text.Hex

def digit (n : Nat) : Char :=
  if n < 10 then Char.ofNat ('0'.toNat + n) else Char.ofNat ('a'.toNat + (n - 10))

def value? (c : Char) : Option Nat :=
  if '0' ≤ c ∧ c ≤ '9' then some (c.toNat - '0'.toNat)
  else if 'a' ≤ c ∧ c ≤ 'f' then some (c.toNat - 'a'.toNat + 10)
  else if 'A' ≤ c ∧ c ≤ 'F' then some (c.toNat - 'A'.toNat + 10)
  else none

def ofByte (b : UInt8) : List Char := [digit (b.toNat / 16), digit (b.toNat % 16)]

def byte? (high low : Char) : Option UInt8 := do
  return UInt8.ofNat (16 * (← value? high) + (← value? low))

/-- A number in as few digits as it takes, at least one. -/
def ofNat (n : Nat) : List Char := Nat.toDigits 16 n

end ImageDigest.Text.Hex
