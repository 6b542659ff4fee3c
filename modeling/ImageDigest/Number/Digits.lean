namespace ImageDigest.Number

def valueOf (base : Nat) (digits : List Nat) : Nat :=
  digits.foldl (fun n d => base * n + d) 0

/-- The same up to a limit: once the value has come to it, the digits that are left do not
count. -/
def valueUpTo (limit base : Nat) (digits : List Nat) : Nat :=
  digits.foldl (fun n d => if n < limit then base * n + d else n) 0

end ImageDigest.Number
