import ImageDigest.Settings.Basic

namespace ImageDigest

inductive SettingsFault where
  | colorCount
  | iterations
  | sampleSize
  | bucketStep
  | monochromaticThreshold
  | similarityThreshold
  | divisor
  | cap
  | maxPixels
  deriving DecidableEq, Repr

def SettingsFault.message : SettingsFault → String
  | .colorCount => "palette.color_count must be at least 1"
  | .iterations => "palette.iterations must be at least 1"
  | .sampleSize => "palette.sample_size must be at least 1"
  | .bucketStep => "palette.bucket_step must be 1-255"
  | .monochromaticThreshold => "palette.monochromatic_threshold must be 0-1"
  | .similarityThreshold => "hashing.similarity_threshold must be 0-1"
  | .divisor => "quality.divisor must be positive"
  | .cap => "quality.cap must be in (0, 100]"
  | .maxPixels => "quality.max_pixels must be 0 (unbounded) or at least 9"

def inUnit (x : Float) : Bool := 0 ≤ x && x ≤ 1

namespace Settings

/-- Every condition on the settings, with the fault that its failure is. -/
def conditions (s : Settings) : List (Bool × SettingsFault) :=
  [(s.palette.colorCount ≠ 0, .colorCount),
   (s.palette.iterations ≠ 0, .iterations),
   (s.palette.sampleSize ≠ 0, .sampleSize),
   (s.palette.bucketStep ≠ 0, .bucketStep),
   (inUnit s.palette.monochromaticThreshold, .monochromaticThreshold),
   (inUnit s.fingerprint.similarityThreshold, .similarityThreshold),
   (0 < s.sharpness.divisor, .divisor),
   (0 < s.sharpness.cap && s.sharpness.cap ≤ 100, .cap),
   (s.sharpness.maxPixels = 0 || 9 ≤ s.sharpness.maxPixels, .maxPixels)]

def fault? (s : Settings) : Option SettingsFault :=
  (s.conditions.find? fun c => !c.1).map Prod.snd

def isValid (s : Settings) : Bool := s.fault?.isNone

end Settings

end ImageDigest
