import ImageDigest.Codec.Deflate.Bits

/-!
Prefix codes that are told by the lengths of their words alone: shorter words come first, and
words of one length follow the order of their symbols.
-/

namespace ImageDigest.Codec.Deflate

open Reader

/-- How many words there are of one bit, of two bits and so on, and the symbols in the order of
their words. -/
structure Code where
  counts : List Nat
  symbols : Array Nat
  deriving DecidableEq, Repr

namespace Code

def longest : Nat := 15

/-- The code in which every symbol has a word of the given length, or none for a zero. -/
def ofLengths (lengths : List Nat) : Code :=
  let groups := (List.range longest).map fun n =>
    lengths.zipIdx.filterMap fun (length, symbol) =>
      if length = n + 1 then some symbol else none
  ⟨groups.map List.length, groups.flatten.toArray⟩

/-- Every sequence of bits that is long enough begins with one word. -/
def isComplete (code : Code) : Bool :=
  code.counts.foldl (fun words n => 2 * words + n) 0 = Nat.pow 2 code.counts.length

def isSparse (code : Code) : Bool :=
  code.symbols.isEmpty || (code.symbols.size = 1 && code.counts.head? = some 1)

/-- Takes one more bit of a word. Words of the next length begin at `first`, and their symbols
at `index`. -/
def symbolFrom (symbols : Array Nat) : List Nat → Nat → Nat → Nat → Reader Nat
  | [], _, _, _ => throw .broken
  | n :: counts, start, first, index => do
    let word := 2 * start + (← take 1)
    if word < first + n then return symbols.getD (index + (word - first)) 0
    else symbolFrom symbols counts word (2 * (first + n)) (index + n)

def symbol (code : Code) : Reader Nat := symbolFrom code.symbols code.counts 0 0 0

end Code

end ImageDigest.Codec.Deflate
