import ImageDigest.Palette.Tally

/-!
Clustering around centroids: seeds at evenly spaced positions of the sample, then a fixed
number of passes that assign every pixel to its nearest centroid and move each centroid to the
mean of its pixels.
-/

namespace ImageDigest.Palette

def squaredGap (v w : UInt8) : Nat :=
  let gap := ((v.toNat : Int) - w.toNat).natAbs
  gap * gap

def distance (c d : Rgb) : Nat :=
  squaredGap c.red d.red + squaredGap c.green d.green + squaredGap c.blue d.blue

def leastDistance (centroids : List Rgb) (pixel : Rgb) : Nat :=
  ((centroids.map fun c => distance c pixel).min?).getD 0

/-- The position of the closest centroid, the first of those at one distance. -/
def nearest (centroids : List Rgb) (pixel : Rgb) : Nat :=
  let least := leastDistance centroids pixel
  centroids.findIdx fun c => distance c pixel = least

/-- `k` positions at most, spread evenly over `n`. The products are words of 64 bits. -/
def seedPositions (n k : Nat) : List Nat :=
  let count := min k n
  (List.range count).map fun i => (UInt64.ofNat (i * n)).toNat / count

def seeds (pixels : List Rgb) (k : Nat) : List Rgb :=
  let sample := pixels.toArray
  (seedPositions sample.size k).map fun i => sample.getD i default

def assign (centroids pixels : List Rgb) : List (Nat × Rgb) :=
  pixels.map fun p => (nearest centroids p, p)

def members (assigned : List (Nat × Rgb)) (i : Nat) : List Rgb :=
  (assigned.filter fun a => a.1 = i).map Prod.snd

/-- Where a centroid moves, given its pixels: to their mean, and nowhere if none are counted. -/
def moved (centroid : Rgb) (pixels : List Rgb) : Rgb :=
  let count := counter pixels.length
  if count = 0 then centroid else meanOver count pixels

/-- One pass: the moved centroids, each with the count of the pixels that it moved for. -/
def clusters (pixels centroids : List Rgb) : List Tally :=
  let assigned := assign centroids pixels
  centroids.zipIdx.map fun (c, i) =>
    let own := members assigned i
    (moved c own, counter own.length)

def pass (pixels centroids : List Rgb) : List Rgb := (clusters pixels centroids).map Prod.fst

/-- The centroids after a number of passes. Where a pass moves none of them, no later one does. -/
def afterPasses (pixels : List Rgb) : Nat → List Rgb → List Rgb
  | 0, current => current
  | passes + 1, current =>
    let next := pass pixels current
    if next = current then current else afterPasses pixels passes next

def centroids (pixels : List Rgb) (k passes : Nat) : List Rgb :=
  afterPasses pixels passes (seeds pixels k)

theorem afterPasses_of_pass_eq {pixels current : List Rgb} (settled : pass pixels current = current)
    (passes : Nat) : afterPasses pixels passes current = current := by
  cases passes with
  | zero => rfl
  | succ passes => rw [afterPasses, if_pos settled]

theorem afterPasses_succ (pixels : List Rgb) (passes : Nat) (current : List Rgb) :
    afterPasses pixels (passes + 1) current = pass pixels (afterPasses pixels passes current) := by
  induction passes generalizing current with
  | zero =>
    by_cases settled : pass pixels current = current
    · rw [afterPasses_of_pass_eq settled, afterPasses_of_pass_eq settled, settled]
    · exact if_neg settled
  | succ passes ih =>
    by_cases settled : pass pixels current = current
    · rw [afterPasses_of_pass_eq settled, afterPasses_of_pass_eq settled, settled]
    · rw [afterPasses, if_neg settled, ih, afterPasses, if_neg settled]

theorem centroids_zero (pixels : List Rgb) (k : Nat) : centroids pixels k 0 = seeds pixels k := rfl

theorem centroids_succ (pixels : List Rgb) (k passes : Nat) :
    centroids pixels k (passes + 1) = pass pixels (centroids pixels k passes) :=
  afterPasses_succ pixels passes (seeds pixels k)

/-- The ranked clusters of the last of `iterations` passes. Without a pass nothing is counted. -/
def byClusters (pixels : List Rgb) (k : Nat) : Nat → List Color
  | 0 => []
  | passes + 1 => rank pixels.length (clusters pixels (centroids pixels k passes))

end ImageDigest.Palette
