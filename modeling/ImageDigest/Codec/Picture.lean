import ImageDigest.Codec.Basic
import ImageDigest.Codec.Layout

/-!
Codecs on top of a library of pictures.
-/

namespace ImageDigest

/-- Pictures of 8-bit samples in one of the four layouts, and pictures of any other samples. -/
inductive Picture (Raster : Layout → Type) (Deep : Type) where
  | raster (layout : Layout) (image : Raster layout)
  | deep (image : Deep)

structure PictureLibrary where
  Raster : Layout → Type
  Deep : Type
  load : List UInt8 → Except String (Picture Raster Deep)
  ofRaw : (layout : Layout) → Size → Array UInt8 → Option (Raster layout)
  raw : {layout : Layout} → Raster layout → Array UInt8
  size : Picture Raster Deep → Size
  hasColor : Deep → Bool
  hasAlpha : Deep → Bool
  converted : (layout : Layout) → Picture Raster Deep → Raster layout
  stretched : {layout : Layout} → Raster layout → Size → Raster layout

namespace PictureLibrary

variable (library : PictureLibrary)

def wrap (b : Buffer) : Except CodecError ((layout : Layout) × library.Raster layout) :=
  match Layout.ofChannels? b.channels with
  | none => .error (.invalidBuffer (.unsupportedChannels b.channels))
  | some layout =>
    match library.ofRaw layout b.size b.data with
    | some image => .ok ⟨layout, image⟩
    | none => .error (.resize s!"buffer does not match {b.size.width}x{b.size.height}")

/-- The channels and the 8-bit samples of a picture. Other samples are narrowed, and keep their
colors and their alpha. -/
def flattened : Picture library.Raster library.Deep → Nat × Array UInt8
  | .raster layout image => (layout.channels, library.raw image)
  | .deep image =>
    let layout := Layout.of (library.hasColor image) (library.hasAlpha image)
    (layout.channels, library.raw (library.converted layout (.deep image)))

def unwrap (picture : Picture library.Raster library.Deep) : Except CodecError Buffer :=
  let (channels, samples) := library.flattened picture
  (Buffer.ofData (library.size picture) channels samples).mapError .invalidBuffer

def decode (bytes : List UInt8) : Except CodecError Buffer := do
  let picture ← (library.load bytes).mapError .undecodable
  library.unwrap picture

/-- Resamples unless the size stays the same. An empty buffer is refused before an empty
target. -/
def resize (b : Buffer) (request : ResizeRequest) : Except CodecError Buffer :=
  let target := request.target b.size
  if b.isEmpty then .error (.resize "cannot resize an empty buffer")
  else if target.width = 0 ∨ target.height = 0 then
    .error (.resize s!"invalid target size {target.width}x{target.height}")
  else if target = b.size then .ok b
  else do
    let ⟨layout, image⟩ ← library.wrap b
    library.unwrap (.raster layout (library.stretched image target))

def grayscale (b : Buffer) : Except CodecError Buffer :=
  if b.channels = 1 then .ok b
  else do
    let ⟨layout, image⟩ ← library.wrap b
    library.unwrap (.raster .gray (library.converted .gray (.raster layout image)))

def codec : Codec where
  decode := library.decode
  resize := library.resize
  grayscale := library.grayscale

end PictureLibrary

end ImageDigest
