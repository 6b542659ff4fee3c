import ImageDigest.Fingerprint.Similarity

namespace ImageDigest

/-- A fingerprint's position, and the later positions that match it. -/
structure DuplicateGroup where
  index : Nat
  duplicates : List Nat
  deriving DecidableEq, Repr

namespace Fingerprint

/-- The positions, counted from `first`, of those fingerprints whose similarity to `a` reaches
the threshold. -/
def matchesFrom (threshold : Float) (a : Fingerprint) :
    Nat → List Fingerprint → Except FingerprintError (List Nat)
  | _, [] => .ok []
  | first, b :: rest => do
    let result ← compare a b
    let later ← matchesFrom threshold a (first + 1) rest
    return if threshold ≤ result.similarity then first :: later else later

/-- The groups of a list whose first element stands at position `first`. -/
def groupsFrom (threshold : Float) :
    Nat → List Fingerprint → Except FingerprintError (List DuplicateGroup)
  | _, [] => .ok []
  | first, a :: rest => do
    let duplicates ← matchesFrom threshold a (first + 1) rest
    let later ← groupsFrom threshold (first + 1) rest
    return if duplicates.isEmpty then later else ⟨first, duplicates⟩ :: later

/-- Every pair is compared once, from its earlier member; fingerprints without a match are left
out. -/
def duplicates (threshold : Float) (hashes : List Fingerprint) :
    Except FingerprintError (List DuplicateGroup) :=
  groupsFrom threshold 0 hashes

end Fingerprint

end ImageDigest
