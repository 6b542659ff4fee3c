import ImageDigest.Settings.Basic
import ImageDigest.Toml.Value

/-!
Settings as configuration values, and back. A section is a table of its fields or an array of
the leading ones; what is left out keeps its stock value.
-/

namespace ImageDigest.Settings

open Toml

def sectionFields? (names : List String) : Value → Option Entries
  | .table entries => if entries.all fun e => names.contains e.1 then some entries else none
  | .array items => if items.length ≤ names.length then some (names.zip items) else none
  | _ => none

def field? {α : Type} (fields : Entries) (name : String) (decode : Value → Option α)
    (stock : α) : Option α :=
  match fields.lookup name with
  | some v => decode v
  | none => some stock

def natural? : Value → Option Nat
  | .integer i => if 0 ≤ i then some i.toNat else none
  | _ => none

def naturalUpTo? (most : Nat) (v : Value) : Option Nat := (natural? v).filter (· ≤ most)

/-- A number; an integer will do. -/
def number? : Value → Option Float
  | .float x => some x
  | .integer i => some (Float.ofInt i)
  | _ => none

def isEmptyCollection : Value → Bool
  | .table entries => entries.isEmpty
  | .array items => items.isEmpty
  | _ => false

/-- One of several choices, by its name alone or as the only key of a table, over nothing. -/
def choice? {α : Type} (name : α → String) (choices : List α) : Value → Option α
  | .string s => choices.find? fun c => name c = s
  | .table [(key, content)] =>
    if isEmptyCollection content then choices.find? fun c => name c = key else none
  | _ => none

def quantizer? : Value → Option Quantizer := choice? Quantizer.name [.clusters, .buckets]

def algorithm? : Value → Option Algorithm := choice? Algorithm.name [.difference, .average]

def oversize? : Value → Option Oversize := choice? Oversize.name [.downsample, .reject]

def paletteNames : List String :=
  ["color_count", "iterations", "sample_size", "strategy", "bucket_step",
   "monochromatic_threshold"]

def palette? (v : Value) : Option PaletteSettings := do
  let stock : PaletteSettings := {}
  let fields ← sectionFields? paletteNames v
  return {
    colorCount := ← field? fields "color_count" natural? stock.colorCount
    iterations := ← field? fields "iterations" natural? stock.iterations
    sampleSize := ← field? fields "sample_size" (naturalUpTo? 4294967295) stock.sampleSize
    quantizer := ← field? fields "strategy" quantizer? stock.quantizer
    bucketStep := ← field? fields "bucket_step" (naturalUpTo? 255) stock.bucketStep
    monochromaticThreshold :=
      ← field? fields "monochromatic_threshold" number? stock.monochromaticThreshold }

def fingerprintNames : List String := ["algorithm", "similarity_threshold"]

def fingerprint? (v : Value) : Option FingerprintSettings := do
  let stock : FingerprintSettings := {}
  let fields ← sectionFields? fingerprintNames v
  return {
    algorithm := ← field? fields "algorithm" algorithm? stock.algorithm
    similarityThreshold :=
      ← field? fields "similarity_threshold" number? stock.similarityThreshold }

def sharpnessNames : List String := ["divisor", "cap", "max_pixels", "oversize"]

def sharpness? (v : Value) : Option SharpnessSettings := do
  let stock : SharpnessSettings := {}
  let fields ← sectionFields? sharpnessNames v
  return {
    divisor := ← field? fields "divisor" number? stock.divisor
    cap := ← field? fields "cap" number? stock.cap
    maxPixels := ← field? fields "max_pixels" natural? stock.maxPixels
    oversize := ← field? fields "oversize" oversize? stock.oversize }

def processingNames : List String := ["max_processes"]

def processing? (v : Value) : Option ProcessingSettings := do
  let fields ← sectionFields? processingNames v
  return { maxProcesses := ← field? fields "max_processes" (fun v => some <$> natural? v) none }

def sectionNames : List String := ["palette", "hashing", "quality", "processing"]

/-- The settings that a value describes, unless it has unknown keys or values of a wrong kind. -/
def ofValue? (v : Value) : Option Settings := do
  let fields ← sectionFields? sectionNames v
  return {
    palette := ← field? fields "palette" palette? {}
    fingerprint := ← field? fields "hashing" fingerprint? {}
    sharpness := ← field? fields "quality" sharpness? {}
    processing := ← field? fields "processing" processing? {} }

def paletteValue (s : PaletteSettings) : Value :=
  .table
    [("bucket_step", .integer s.bucketStep),
     ("color_count", .integer s.colorCount),
     ("iterations", .integer s.iterations),
     ("monochromatic_threshold", .float s.monochromaticThreshold),
     ("sample_size", .integer s.sampleSize),
     ("strategy", .string s.quantizer.name)]

def fingerprintValue (s : FingerprintSettings) : Value :=
  .table
    [("algorithm", .string s.algorithm.name),
     ("similarity_threshold", .float s.similarityThreshold)]

def sharpnessValue (s : SharpnessSettings) : Value :=
  .table
    [("cap", .float s.cap),
     ("divisor", .float s.divisor),
     ("max_pixels", .integer s.maxPixels),
     ("oversize", .string s.oversize.name)]

def processingValue (s : ProcessingSettings) : Value :=
  .table (s.maxProcesses.toList.map fun (n : Nat) => ("max_processes", .integer n))

def toValue (s : Settings) : Value :=
  .table
    [("hashing", fingerprintValue s.fingerprint),
     ("palette", paletteValue s.palette),
     ("processing", processingValue s.processing),
     ("quality", sharpnessValue s.sharpness)]

def stockValue : Value := toValue {}

end ImageDigest.Settings
