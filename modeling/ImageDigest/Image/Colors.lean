import ImageDigest.Image.Sample
import ImageDigest.Palette.Basic

namespace ImageDigest.Image

def samplePixels (codec : Codec) (settings : PaletteSettings) (b : Buffer) :
    Traced CodecError (List Rgb) := do
  let sampled ← sample codec settings.sampleSize b
  return sampled.rgbPixels

def palette (codec : Codec) (settings : PaletteSettings) (b : Buffer) :
    Traced CodecError Palette := do
  return .ofSample settings (← samplePixels codec settings b)

def analysis (codec : Codec) (settings : PaletteSettings) (b : Buffer) :
    Traced CodecError Analysis := do
  return .ofSample settings (← samplePixels codec settings b)

end ImageDigest.Image
