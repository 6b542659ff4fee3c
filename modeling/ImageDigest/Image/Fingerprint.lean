import ImageDigest.Fingerprint.Duplicate
import ImageDigest.Image.Error
import ImageDigest.Image.Sample

namespace ImageDigest.Image

def fingerprintSample : Nat := 100

/-- Samples the image, makes it gray, and stretches it onto the grid. -/
def fingerprint (codec : Codec) (algorithm : Algorithm) (b : Buffer) :
    Traced ImageError Fingerprint := do
  let sampled ← (sample codec fingerprintSample b).mapError .codec
  let gray ← (codec.tracedGrayscale sampled).mapError .codec
  let grid ← (codec.tracedResize gray ⟨algorithm.grid, .fill⟩).mapError .codec
  Traced.ofExcept ((Fingerprint.ofGrid grid algorithm).mapError .fingerprint)

def fingerprints (codec : Codec) (algorithm : Algorithm) (images : List Buffer) :
    Except ImageError (List Fingerprint) :=
  images.mapM fun b => (fingerprint codec algorithm b).result

def similarity (codec : Codec) (algorithm : Algorithm) (a b : Buffer) :
    Except ImageError Similarity := do
  let left ← (fingerprint codec algorithm a).result
  let right ← (fingerprint codec algorithm b).result
  (left.compare right).mapError .fingerprint

def areSimilar (codec : Codec) (settings : FingerprintSettings) (a b : Buffer) :
    Except ImageError Bool := do
  let result ← similarity codec settings.algorithm a b
  return settings.similarityThreshold ≤ result.similarity

def duplicates (codec : Codec) (settings : FingerprintSettings) (images : List Buffer) :
    Except ImageError (List DuplicateGroup) := do
  let hashes ← fingerprints codec settings.algorithm images
  (Fingerprint.duplicates settings.similarityThreshold hashes).mapError .fingerprint

end ImageDigest.Image
