import ImageDigest.Fingerprint.Duplicate
import ImageDigest.Number.Decimal.Fixed
import ImageDigest.Number.Total
import ImageDigest.Palette.Basic
import ImageDigest.Sharpness

namespace ImageDigest.Report

open Number.Decimal

def position (n : Nat) : String := String.ofList (padLeft 3 '0' (Nat.toDigits 10 n))

def column (n : Nat) : String := String.ofList (padLeft 3 ' ' (Nat.toDigits 10 n))

def indent : String := "    "

def percentText (x : Float) : String :=
  String.ofList (padLeft 5 ' ' (fixed 1 x).toList ++ ['%'])

def colorLine (n : Nat) (c : Color) : String :=
  indent ++ position n ++ " " ++ c.hex ++ "  " ++ (c.percent?.map percentText).getD ""

def hexOrDash (c : Option Color) : String := (c.map Color.hex).getD "-"

def yesNo (b : Bool) : String := if b then "yes" else "no"

def detailLine (name value : String) : String := indent ++ name ++ ": " ++ value

def analysisLines (label : String) (a : Analysis) : List String :=
  label :: (a.palette.colors.zipIdx 1).map (fun (c, n) => colorLine n c) ++
    [detailLine "Dominant" (hexOrDash a.palette.dominant),
     detailLine "Average" (hexOrDash a.palette.average),
     detailLine "Vibrant" (hexOrDash a.vibrant),
     detailLine "Dark vibrant" (hexOrDash a.darkVibrant),
     detailLine "Light vibrant" (hexOrDash a.lightVibrant),
     detailLine "Grayscale" (yesNo a.isGrayscale),
     detailLine "Monochromatic" (yesNo a.isMonochromatic)]

def fingerprintLine (label : String) (h : Fingerprint) : String :=
  h.digits ++ "  " ++ h.algorithm.name ++ "  " ++ label

def scoreLine (label : String) (s : Score) : String := column s.value ++ "  " ++ label

def similarLine (r : Similarity) (threshold : Float) : String :=
  detailLine "Similar"
    (yesNo (decide (threshold ≤ r.similarity)) ++ " (threshold " ++ fixed 3 threshold ++ ")")

def comparisonLines (left right : String) (r : Similarity) (threshold : Float) : List String :=
  [left ++ " \u2194 " ++ right,
   detailLine "Distance" s!"{r.distance} / {Fingerprint.bitCount}",
   detailLine "Similarity" (fixed 3 r.similarity),
   similarLine r threshold]

def labelAt (labels : List String) (i : Nat) : String := (labels[i]?).getD "?"

/-- The first member of a group under its number, and the others below it. -/
def groupLines (labels : List String) (n : Nat) (g : DuplicateGroup) : List String :=
  (position n ++ " " ++ labelAt labels g.index) ::
    g.duplicates.map fun i => indent ++ labelAt labels i

def counted (n : Nat) (word : String) : String :=
  if n = 1 then s!"{n} {word}" else s!"{n} {word}s"

def summaryLine (groups : List DuplicateGroup) : String :=
  counted groups.length "group" ++ ", " ++
    counted (Number.total (groups.map fun g => g.duplicates.length)) "duplicate"

def duplicateLines (labels : List String) (groups : List DuplicateGroup) : List String :=
  let lines := (groups.zipIdx 1).flatMap fun (g, n) => groupLines labels n g
  (if lines.isEmpty then [] else lines ++ [""]) ++ [summaryLine groups]

end ImageDigest.Report
