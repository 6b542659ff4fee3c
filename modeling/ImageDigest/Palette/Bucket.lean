import ImageDigest.Palette.Tally

namespace ImageDigest.Palette

/-- The nearest multiple of `step`, a half going up, and no more than 255. -/
def roundToStep (step : Nat) (v : UInt8) : UInt8 :=
  UInt8.ofNat (min 255 ((v.toNat + step / 2) / step * step))

def runs {α : Type} [DecidableEq α] : List α → List (α × Nat) :=
  List.foldr (fun a tail =>
    match tail with
    | (b, n) :: rest => if a = b then (b, n + 1) :: rest else (a, 1) :: (b, n) :: rest
    | [] => [(a, 1)]) []

def colorRuns (pixels : List Rgb) : List (Rgb × Nat) :=
  runs (pixels.mergeSort fun c d => decide (c.code ≤ d.code))

def frequencies (pixels : List Rgb) : List Tally :=
  (colorRuns pixels).map fun t => (t.1, counter t.2)

/-- The `k` most frequent rounded colors; of equally frequent ones the smaller come first. -/
def byBuckets (pixels : List Rgb) (k step : Nat) : List Color :=
  if step = 0 then []
  else (rank pixels.length (frequencies (pixels.map (Rgb.mapChannels (roundToStep step))))).take k

end ImageDigest.Palette
