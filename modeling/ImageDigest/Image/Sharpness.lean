import ImageDigest.Codec.Traced
import ImageDigest.Geometry.Ceiling
import ImageDigest.Image.Error

namespace ImageDigest.Image

def scoreAsIs (settings : SharpnessSettings) (b : Buffer) : Traced ImageError Score :=
  Traced.ofExcept ((Score.ofBuffer settings b).mapError .sharpness)

def scoreReduced (codec : Codec) (settings : SharpnessSettings) (ceiling : Nat) (b : Buffer) :
    Traced ImageError Score := do
  let reduced ← (codec.tracedResize b ⟨b.size.ceiling ceiling, .fill⟩).mapError .codec
  scoreAsIs settings reduced

/-- Above the ceiling the image is reduced first, if the settings ask for it. -/
def score (codec : Codec) (settings : SharpnessSettings) (b : Buffer) : Traced ImageError Score :=
  match settings.ceiling?, settings.oversize with
  | some ceiling, .downsample =>
    if ceiling < b.pixelCount then scoreReduced codec settings ceiling b
    else scoreAsIs settings b
  | _, _ => scoreAsIs settings b

def scores (codec : Codec) (settings : SharpnessSettings) (images : List Buffer) :
    List (Except ImageError Score) :=
  images.map fun b => (score codec settings b).result

end ImageDigest.Image
