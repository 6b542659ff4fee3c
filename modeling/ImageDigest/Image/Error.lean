import ImageDigest.Codec.Basic
import ImageDigest.Fingerprint.Basic
import ImageDigest.Sharpness

namespace ImageDigest

inductive ImageError where
  | codec (cause : CodecError)
  | fingerprint (cause : FingerprintError)
  | sharpness (cause : SharpnessError)
  deriving DecidableEq, Repr

def ImageError.message : ImageError → String
  | .codec cause => cause.message
  | .fingerprint cause => cause.message
  | .sharpness cause => cause.message

end ImageDigest
