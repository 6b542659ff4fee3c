import ImageDigest.Fingerprint.Basic

namespace ImageDigest

structure Similarity where
  similarity : Float
  distance : Nat
  deriving DecidableEq, Repr

namespace Fingerprint

def hamming (a b : List Bool) : Nat := (a.zip b).countP fun (x, y) => x != y

def similarityOf (distance length : Nat) : Similarity :=
  ⟨1 - Float.ofNat distance / Float.ofNat length, distance⟩

def bitsOf (digits : String) : Except FingerprintError (List Bool) :=
  match unpack? digits.toList with
  | some bits => .ok bits
  | none => .error (.invalidHex digits)

/-- Compares hexadecimal digits bit by bit, once their lengths agree and they are not empty. -/
def compareDigits (a b : String) : Except FingerprintError Similarity :=
  if a.utf8ByteSize ≠ b.utf8ByteSize then
    .error (.lengthMismatch a.utf8ByteSize b.utf8ByteSize)
  else if a.isEmpty then .error .empty
  else do
    let left ← bitsOf a
    let right ← bitsOf b
    return similarityOf (hamming left right) left.length

def compare (a b : Fingerprint) : Except FingerprintError Similarity :=
  if a.algorithm = b.algorithm then compareDigits a.digits b.digits
  else .error (.algorithmMismatch a.algorithm b.algorithm)

end Fingerprint

end ImageDigest
