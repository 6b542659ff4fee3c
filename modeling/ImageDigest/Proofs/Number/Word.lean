import Mathlib.Algebra.Order.Ring.Int

namespace ImageDigest.Number

def signedWord? (n : ℤ) : Option ℤ := if -2 ^ 31 ≤ n ∧ n < 2 ^ 31 then some n else none

def longWord? (n : ℕ) : Option ℕ := if n < 2 ^ 64 then some n else none

theorem longWord_of_lt {n : ℕ} (room : n < 2 ^ 64) : longWord? n = some n := if_pos room

end ImageDigest.Number
