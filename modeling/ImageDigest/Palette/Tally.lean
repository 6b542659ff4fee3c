import ImageDigest.Color
import ImageDigest.Number.FloatValue
import ImageDigest.Number.Total

namespace ImageDigest.Palette

abbrev Tally := Rgb × Nat

/-- What a counter of 32 bits shows after `n` steps: behind its last number it starts anew. -/
def counter (n : Nat) : Nat := (UInt32.ofNat n).toNat

def channelSum (channel : Rgb → UInt8) (pixels : List Rgb) : Nat :=
  Number.total (pixels.map fun p => (channel p).toNat)

/-- The mean of one channel, for a given count of the pixels. Their sum is a word of 64 bits; it is
divided in floating point and rounded to a byte. -/
def meanChannel (channel : Rgb → UInt8) (count : Nat) (pixels : List Rgb) : UInt8 :=
  let sum := (UInt64.ofNat (channelSum channel pixels)).toNat
  let quotient := Float.ofNat sum / Float.ofNat count
  UInt8.ofNat ((Number.FloatValue.ofFloat quotient).clampedRound 255)

def meanOver (count : Nat) (pixels : List Rgb) : Rgb :=
  ⟨meanChannel Rgb.red count pixels, meanChannel Rgb.green count pixels,
    meanChannel Rgb.blue count pixels⟩

def mean (pixels : List Rgb) : Rgb := meanOver pixels.length pixels

/-- The tallies that count anything, by decreasing count; equal counts keep their order. -/
def ranked (tallies : List Tally) : List Tally :=
  (tallies.filter fun t => 0 < t.2).mergeSort fun a b => decide (b.2 ≤ a.2)

def rank (total : Nat) (tallies : List Tally) : List Color :=
  (ranked tallies).map fun t => Color.counted t.1 t.2 total

end ImageDigest.Palette
