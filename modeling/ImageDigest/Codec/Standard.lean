import ImageDigest.Codec.Lanczos
import ImageDigest.Codec.Luma
import ImageDigest.Codec.Picture
import ImageDigest.Codec.Png.Image

namespace ImageDigest.Codec.Standard

abbrev Raster (layout : Layout) : Type := { b : Buffer // b.channels = layout.channels }

structure Deep where
  size : Size
  layout : Layout
  samples : Array UInt16

def narrow (sample : UInt16) : UInt8 := UInt8.ofNat ((sample.toNat + 128) / 257)

def Deep.narrowed (image : Deep) : Buffer :=
  .tabulate image.size image.layout.channels
    (fun x y channel =>
      narrow (image.samples.getD ((y * image.size.width + x) * image.layout.channels + channel) 0))
    image.layout.channels_pos image.layout.channels_le

def ofRaw (layout : Layout) (size : Size) (samples : Array UInt8) : Option (Raster layout) :=
  if length : samples.size = size.area * layout.channels then
    some ⟨⟨size, layout.channels, samples, layout.channels_pos, layout.channels_le, length⟩, rfl⟩
  else none

def load (bytes : List UInt8) : Except String (Picture Raster Deep) :=
  let unknown := .error "not a supported image"
  match Png.image? bytes with
  | none => unknown
  | some ⟨⟨size, true, layout⟩, bytes⟩ => .ok (.deep ⟨size, layout, (Png.words bytes).toArray⟩)
  | some ⟨⟨size, false, layout⟩, bytes⟩ =>
    match ofRaw layout size bytes.toArray with
    | some image => .ok (.raster layout image)
    | none => unknown

def eightBit : Picture Raster Deep → Buffer
  | .raster _ image => image.val
  | .deep image => image.narrowed

def pictures : PictureLibrary where
  Raster := Raster
  Deep := Deep
  load := load
  ofRaw := ofRaw
  raw image := image.val.data
  size picture := (eightBit picture).size
  hasColor image := image.layout.hasColor
  hasAlpha image := image.layout.hasAlpha
  converted layout picture :=
    ⟨Luma.convert layout (eightBit picture), Luma.convert_channels layout (eightBit picture)⟩
  stretched image target := ⟨Lanczos.resample image.val target, image.property⟩

end ImageDigest.Codec.Standard

namespace ImageDigest

def Codec.standard : Codec := Codec.Standard.pictures.codec

end ImageDigest
