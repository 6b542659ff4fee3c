import ImageDigest.Palette.Bucket
import ImageDigest.Palette.Cluster
import ImageDigest.Palette.Pick
import ImageDigest.Settings.Basic

/-!
Palettes: the ranked colors of a sample, and the analysis drawn from them.
-/

namespace ImageDigest

structure Palette where
  colors : List Color
  dominant : Option Color
  average : Option Color
  sampleSize : Nat
  deriving BEq, Repr

structure Analysis where
  palette : Palette
  vibrant : Option Color
  darkVibrant : Option Color
  lightVibrant : Option Color
  isGrayscale : Bool
  isMonochromatic : Bool
  deriving BEq, Repr

namespace Palette

def quantize (settings : PaletteSettings) (pixels : List Rgb) : List Color :=
  match settings.quantizer with
  | .clusters => byClusters pixels settings.colorCount settings.iterations
  | .buckets => byBuckets pixels settings.colorCount settings.bucketStep

def ofSample (settings : PaletteSettings) (pixels : List Rgb) : Palette :=
  let colors := quantize settings pixels
  { colors := colors
    dominant := colors.head?
    average := average? pixels
    sampleSize := pixels.length }

def dominantShare (p : Palette) : Float :=
  match p.dominant with
  | some c =>
    if p.sampleSize = 0 then 0
    else Float.ofNat (c.count?.getD 0) / Float.ofNat p.sampleSize
  | none => 0

def isMonochromatic (p : Palette) (threshold : Float) : Bool :=
  p.dominant.isSome && threshold ≤ p.dominantShare

end Palette

def Analysis.ofSample (settings : PaletteSettings) (pixels : List Rgb) : Analysis :=
  let palette := Palette.ofSample settings pixels
  { palette := palette
    vibrant := Palette.vibrant palette.colors
    darkVibrant := Palette.darkVibrant palette.colors
    lightVibrant := Palette.lightVibrant palette.colors
    isGrayscale := Palette.isGrayscale pixels
    isMonochromatic := palette.isMonochromatic settings.monochromaticThreshold }

end ImageDigest
