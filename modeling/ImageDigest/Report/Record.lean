import ImageDigest.Fingerprint.Duplicate
import ImageDigest.Palette.Basic
import ImageDigest.Report.Json
import ImageDigest.Sharpness

namespace ImageDigest.Report

/-- Count and percentage are there only for colors that stand for part of a sample. -/
def colorRecord (c : Color) : Json :=
  let channels :=
    [("r", Json.ofNat c.rgb.red.toNat),
     ("g", Json.ofNat c.rgb.green.toNat),
     ("b", Json.ofNat c.rgb.blue.toNat),
     ("hex", .string c.hex)]
  let share (s : Share) := [("count", Json.ofNat s.count), ("percentage", Json.ofFloat s.percent)]
  .object (channels ++ (c.share.map share).getD [])

def paletteRecord (p : Palette) : Json :=
  .object
    [("colors", .array (p.colors.map colorRecord)),
     ("dominant_color", Json.orNull colorRecord p.dominant),
     ("average_color", Json.orNull colorRecord p.average),
     ("sample_size", Json.ofNat p.sampleSize)]

def labeled (label : String) (fields : List (String × Json)) : Json :=
  .object (("path", .string label) :: fields)

def analysisRecord (label : String) (a : Analysis) : Json :=
  labeled label
    [("palette", paletteRecord a.palette),
     ("vibrant", Json.orNull colorRecord a.vibrant),
     ("dark_vibrant", Json.orNull colorRecord a.darkVibrant),
     ("light_vibrant", Json.orNull colorRecord a.lightVibrant),
     ("is_grayscale", .boolean a.isGrayscale),
     ("is_monochromatic", .boolean a.isMonochromatic)]

def fingerprintRecord (label : String) (h : Fingerprint) : Json :=
  labeled label [("hash", .string h.digits), ("algorithm", .string h.algorithm.name)]

def scoreRecord (label : String) (s : Score) : Json := labeled label [("score", Json.ofNat s.value)]

def comparisonRecord (r : Similarity) : Json :=
  .object [("similarity", Json.ofFloat r.similarity), ("distance", Json.ofNat r.distance)]

def groupRecord (g : DuplicateGroup) : Json :=
  .object
    [("index", Json.ofNat g.index), ("duplicates", .array (g.duplicates.map Json.ofNat))]

def duplicatesRecord (labels : List String) (groups : List DuplicateGroup) : Json :=
  .object [("files", .array (labels.map Json.string)), ("groups", .array (groups.map groupRecord))]

end ImageDigest.Report
