namespace ImageDigest

inductive Quantizer where
  | clusters
  | buckets
  deriving DecidableEq, Repr

/-- What the bits of a fingerprint compare: a cell with its right neighbour, or a cell with
the mean of the grid. -/
inductive Algorithm where
  | difference
  | average
  deriving DecidableEq, Repr

inductive Oversize where
  | downsample
  | reject
  deriving DecidableEq, Repr

def Quantizer.name : Quantizer → String
  | .clusters => "kmeans"
  | .buckets => "bucket"

def Algorithm.name : Algorithm → String
  | .difference => "dhash"
  | .average => "ahash"

def Oversize.name : Oversize → String
  | .downsample => "downsample"
  | .reject => "reject"

structure PaletteSettings where
  colorCount : Nat := 5
  iterations : Nat := 10
  sampleSize : Nat := 100
  quantizer : Quantizer := .clusters
  bucketStep : Nat := 10
  monochromaticThreshold : Float := 0.8
  deriving DecidableEq, Repr

structure FingerprintSettings where
  algorithm : Algorithm := .difference
  similarityThreshold : Float := 0.9
  deriving DecidableEq, Repr

structure SharpnessSettings where
  divisor : Float := 10
  cap : Float := 100
  maxPixels : Nat := 40000000
  oversize : Oversize := .downsample
  deriving DecidableEq, Repr

structure ProcessingSettings where
  maxProcesses : Option Nat := none
  deriving DecidableEq, Repr

structure Settings where
  palette : PaletteSettings := {}
  fingerprint : FingerprintSettings := {}
  sharpness : SharpnessSettings := {}
  processing : ProcessingSettings := {}
  deriving DecidableEq, Repr

/-- The pixel ceiling; 0 sets none. -/
def SharpnessSettings.ceiling? (s : SharpnessSettings) : Option Nat :=
  if s.maxPixels = 0 then none else some s.maxPixels

/-- The number of workers on a machine with `cores` cores: all of them unless limited, never
more, and at least one. -/
def ProcessingSettings.workers (s : ProcessingSettings) (cores : Nat) : Nat :=
  match s.maxProcesses with
  | none => cores
  | some limit => min (max limit 1) cores

end ImageDigest
