import ImageDigest.Buffer
import ImageDigest.Number.FloatValue

/-!
Resampling with a windowed sinc of three lobes: first along the columns, then along the rows.
-/

namespace ImageDigest.Codec.Lanczos

def pi : Float := 3.141592653589793

def sinc (t : Float) : Float :=
  if t == 0 then 1 else (t * pi).sin / (t * pi)

def kernel (x : Float) : Float := if x.abs < 3 then sinc x * sinc (x / 3) else 0

/-- The source positions that an output position reads, from `first` on, with their weights. -/
structure Taps where
  first : Nat
  weights : List Float

def firstTap (source target o : Nat) : Nat :=
  min (((2 * o + 1) * source - 6 * max source target) / (2 * target)) (source - 1)

def tapsEnd (source target o : Nat) : Nat :=
  let reach := (2 * o + 1) * source + 6 * max source target
  min source (max (firstTap source target o + 1) ((reach + 2 * target - 1) / (2 * target)))

/-- The taps of output position `o` when `source` positions become `target` positions; their
weights sum to one. -/
def taps (source target o : Nat) : Taps :=
  let ratio := Float.ofNat source / Float.ofNat target
  let scale := if ratio < 1 then 1 else ratio
  let center := (Float.ofNat o + 0.5) * ratio - 0.5
  let first := firstTap source target o
  let raw := (List.range' first (tapsEnd source target o - first)).map fun i =>
    kernel ((Float.ofNat i - center) / scale)
  let total := raw.foldl (· + ·) 0
  ⟨first, raw.map (· / total)⟩

def Taps.blend (t : Taps) (sample : Nat → Float) : Float :=
  (t.weights.foldl (fun (sum, i) w => (sum + sample i * w, i + 1)) ((0 : Float), t.first)).1

def noTaps : Taps := ⟨0, []⟩

/-- Every sample after the pass along the columns, unrounded, in the order of the data. -/
def columnPass (b : Buffer) (height : Nat) : Array Float :=
  let rows := Array.ofFn (n := height) fun y => taps b.size.height height y.val
  let stride := b.size.width * b.channels
  Array.ofFn (n := height * stride) fun i =>
    (rows.getD (i.val / stride) noTaps).blend fun row =>
      (b.byteAt (row * stride + i.val % stride)).toFloat

def toByte (x : Float) : UInt8 := UInt8.ofNat ((Number.FloatValue.ofFloat x).clampedRound 255)

def resample (b : Buffer) (target : Size) : Buffer :=
  let columns := Array.ofFn (n := target.width) fun x => taps b.size.width target.width x.val
  let between := columnPass b target.height
  .tabulate target b.channels
    (fun x y k => toByte ((columns.getD x noTaps).blend fun column =>
      between.getD ((y * b.size.width + column) * b.channels + k) 0))
    b.channels_pos b.channels_le

end ImageDigest.Codec.Lanczos
