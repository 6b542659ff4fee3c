import ImageDigest.Color

/-!
Pixel buffers: rows of pixels without padding, with one to four interleaved 8-bit channels.
One or two channels are gray without or with alpha, three or four are color without or with
alpha.
-/

namespace ImageDigest

structure Size where
  width : Nat
  height : Nat
  deriving DecidableEq, Repr

namespace Size

def area (s : Size) : Nat := s.width * s.height

def transpose (s : Size) : Size := ⟨s.height, s.width⟩

end Size

inductive BufferError where
  | unsupportedChannels (channels : Nat)
  | lengthMismatch (size : Size) (channels actual : Nat)
  deriving DecidableEq, Repr

def BufferError.message : BufferError → String
  | .unsupportedChannels channels => s!"unsupported channel count: {channels} (expected 1-4)"
  | .lengthMismatch size channels actual =>
    s!"buffer length {actual} does not match {size.width}x{size.height}x{channels}" ++
      s!" = {size.area * channels}"

structure Buffer where
  size : Size
  channels : Nat
  data : Array UInt8
  channels_pos : 1 ≤ channels := by omega
  channels_le : channels ≤ 4 := by omega
  data_size : data.size = size.area * channels
  deriving DecidableEq, Repr

namespace Buffer

/-- Checks the channel count first, then the length of the data. -/
def ofData (size : Size) (channels : Nat) (data : Array UInt8) : Except BufferError Buffer :=
  if bounds : 1 ≤ channels ∧ channels ≤ 4 then
    if length : data.size = size.area * channels then
      .ok ⟨size, channels, data, bounds.1, bounds.2, length⟩
    else .error (.lengthMismatch size channels data.size)
  else .error (.unsupportedChannels channels)

def pixelCount (b : Buffer) : Nat := b.size.area

def isEmpty (b : Buffer) : Bool := b.pixelCount = 0

/-- The byte at `i`; 0 past the end. -/
def byteAt (b : Buffer) (i : Nat) : UInt8 := b.data.getD i 0

def firstChannel (b : Buffer) (x y : Nat) : UInt8 :=
  b.byteAt ((y * b.size.width + x) * b.channels)

def rgbAt (b : Buffer) (i : Nat) : Rgb :=
  let first := i * b.channels
  if b.channels ≤ 2 then .ofGray (b.byteAt first)
  else ⟨b.byteAt first, b.byteAt (first + 1), b.byteAt (first + 2)⟩

def rgbPixels (b : Buffer) : List Rgb := (List.range b.pixelCount).map b.rgbAt

def tabulate (size : Size) (channels : Nat) (sample : Nat → Nat → Nat → UInt8)
    (positive : 1 ≤ channels) (atMost : channels ≤ 4) : Buffer where
  size := size
  channels := channels
  data := Array.ofFn (n := size.area * channels) fun i =>
    let pixel := i.val / channels
    sample (pixel % size.width) (pixel / size.width) (i.val % channels)
  channels_pos := positive
  channels_le := atMost
  data_size := Array.size_ofFn

def gray (size : Size) (sample : Nat → Nat → UInt8) : Buffer :=
  tabulate size 1 (fun x y _ => sample x y) (by decide) (by decide)

def channelOf (c : Rgb) : Nat → UInt8
  | 0 => c.red
  | 1 => c.green
  | _ => c.blue

def filled (size : Size) (c : Rgb) : Buffer :=
  tabulate size 3 (fun _ _ k => channelOf c k) (by decide) (by decide)

end Buffer

end ImageDigest
