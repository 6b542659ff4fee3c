import ImageDigest.Codec.Layout
import ImageDigest.Number.FloatValue

namespace ImageDigest.Codec.Luma

def redWeight : Float32 := .ofBits 0x3e59c05b

def greenWeight : Float32 := .ofBits 0x3f3715fc

def blueWeight : Float32 := .ofBits 0x3d93cf75

def normalized (v : UInt8) : Float32 := v.toFloat32 * (1 / 255)

def ofRgb (c : Rgb) : UInt8 :=
  let sum := normalized c.red * redWeight + normalized c.green * greenWeight
    + normalized c.blue * blueWeight
  UInt8.ofNat ((Number.FloatValue.ofFloat (sum * 255).toFloat).clampedRound 255)

/-- Gray buffers lose their alpha; the colors of others become gray values. -/
def gray (b : Buffer) (i : Nat) : UInt8 :=
  if b.channels ≤ 2 then b.byteAt (i * b.channels) else ofRgb (b.rgbAt i)

/-- Pixels without alpha are opaque. -/
def alpha (b : Buffer) (i : Nat) : UInt8 :=
  if b.channels % 2 = 0 then b.byteAt (i * b.channels + (b.channels - 1)) else 255

def sample (layout : Layout) (b : Buffer) (i channel : Nat) : UInt8 :=
  if layout.hasAlpha ∧ channel + 1 = layout.channels then alpha b i
  else if layout.hasColor then Buffer.channelOf (b.rgbAt i) channel
  else gray b i

def convert (layout : Layout) (b : Buffer) : Buffer :=
  if b.channels = layout.channels then b
  else .tabulate b.size layout.channels
    (fun x y channel => sample layout b (y * b.size.width + x) channel)
    layout.channels_pos layout.channels_le

theorem convert_size (layout : Layout) (b : Buffer) : (convert layout b).size = b.size := by
  unfold convert
  split <;> rfl

theorem convert_channels (layout : Layout) (b : Buffer) :
    (convert layout b).channels = layout.channels := by
  unfold convert
  split
  case isTrue same => exact same
  case isFalse => rfl

end ImageDigest.Codec.Luma
