import ImageDigest.Buffer
import ImageDigest.Fingerprint.Bits
import ImageDigest.Number.Total
import ImageDigest.Settings.Basic

/-!
Perceptual fingerprints: 64 bits in 16 hexadecimal digits, taken from a small gray grid.
-/

namespace ImageDigest

def Algorithm.grid : Algorithm → Size
  | .difference => ⟨9, 8⟩
  | .average => ⟨8, 8⟩

structure Fingerprint where
  digits : String
  algorithm : Algorithm
  deriving DecidableEq, Repr

inductive FingerprintError where
  | lengthMismatch (left right : Nat)
  | invalidHex (digits : String)
  | empty
  | gridSize (expected actual : Size) (channels : Nat)
  | algorithmMismatch (left right : Algorithm)
  deriving DecidableEq, Repr

def FingerprintError.message : FingerprintError → String
  | .lengthMismatch left right => s!"hash lengths differ: {left} vs {right} hex digits"
  | .invalidHex digits => "invalid hex digit in hash " ++ Text.Quoted.write digits
  | .empty => "cannot compare empty hashes"
  | .gridSize expected actual channels =>
    s!"expected a {expected.width}x{expected.height} single-channel grid, got " ++
      s!"{actual.width}x{actual.height} with {channels} channels"
  | .algorithmMismatch left right =>
    "cannot compare a " ++ left.name ++ " hash with a " ++ right.name ++ " hash"

namespace Fingerprint

def bitCount : Nat := 64

def cells (width height : Nat) : List (Nat × Nat) :=
  (List.range height).flatMap fun y => (List.range width).map fun x => (x, y)

/-- Which cells are darker than their right neighbour. -/
def differenceBits (grid : Buffer) : List Bool :=
  (cells 8 8).map fun (x, y) => grid.firstChannel x y < grid.firstChannel (x + 1) y

def brightness (grid : Buffer) : Nat := Number.total (grid.data.toList.map UInt8.toNat)

/-- Which cells are at least as bright as the mean of the grid. -/
def averageBits (grid : Buffer) : List Bool :=
  grid.data.toList.map fun v => decide (brightness grid ≤ v.toNat * grid.data.size)

def bits (grid : Buffer) : Algorithm → List Bool
  | .difference => differenceBits grid
  | .average => averageBits grid

def ofGrid (grid : Buffer) (algorithm : Algorithm) : Except FingerprintError Fingerprint :=
  if grid.size = algorithm.grid ∧ grid.channels = 1 then
    .ok ⟨hexOfBits (bits grid algorithm), algorithm⟩
  else .error (.gridSize algorithm.grid grid.size grid.channels)

end Fingerprint

end ImageDigest
