import ImageDigest.Codec.Basic

/-!
A codec that copies the nearest source pixel and weighs channels in whole thousandths. It
decodes nothing.
-/

namespace ImageDigest.Codec.Nearest

def sourceIndex (source target i : Nat) : Nat := i * source / target

def resample (b : Buffer) (target : Size) : Buffer :=
  .tabulate target b.channels
    (fun x y k =>
      let column := sourceIndex b.size.width target.width x
      let row := sourceIndex b.size.height target.height y
      b.byteAt ((row * b.size.width + column) * b.channels + k))
    b.channels_pos b.channels_le

/-- The most bytes that a vector holds. -/
def vectorLimit : Nat := Nat.pow 2 63 - 1

/-- Nothing where no vector holds the bytes of the target: the program stops there. -/
def resize (b : Buffer) (request : ResizeRequest) : Option (Except CodecError Buffer) :=
  let target := request.target b.size
  if b.isEmpty || target.width = 0 || target.height = 0 then some (.error (.resize "empty resize"))
  else if target.area * b.channels ≤ vectorLimit then some (.ok (resample b target))
  else none

/-- The weights of the channels are 0.299, 0.587 and 0.114; a half rounds up. -/
def luma (c : Rgb) : UInt8 :=
  UInt8.ofNat ((299 * c.red.toNat + 587 * c.green.toNat + 114 * c.blue.toNat + 500) / 1000)

def grayscale (b : Buffer) : Buffer :=
  .gray b.size fun x y => luma (b.rgbAt (y * b.size.width + x))

end ImageDigest.Codec.Nearest

namespace ImageDigest

/-- This codec answers every request, as if a vector held any number of bytes. -/
def Codec.nearest : Codec where
  decode _ := .error (.undecodable "no image format is known")
  resize b request :=
    match Codec.Nearest.resize b request with
    | some answer => answer
    | none => .ok (Codec.Nearest.resample b (request.target b.size))
  grayscale b := .ok (Codec.Nearest.grayscale b)

end ImageDigest
