import ImageDigest.CommandLine.ImageFile
import ImageDigest.CommandLine.Request
import ImageDigest.Image.Colors
import ImageDigest.Image.Sharpness
import ImageDigest.Report.Lines
import ImageDigest.Report.Record
import ImageDigest.Settings.Load
import ImageDigest.Settings.StockText

namespace ImageDigest.CommandLine

inductive Failure where
  | usage
  | settings (cause : SettingsError)
  | unreadable (path : String)
  | undecodable (path : String) (cause : CodecError)
  | image (cause : ImageError)
  deriving DecidableEq, Repr

def Failure.message : Failure → String
  | .usage => "the arguments make no command"
  | .settings cause => cause.message
  | .unreadable path => path ++ ": cannot be read"
  | .undecodable path cause => path ++ ": " ++ cause.message
  | .image cause => cause.message

/-- What was printed until the end, and the failure that ended it, if one did. -/
structure Outcome where
  output : String
  failure : Option Failure
  deriving DecidableEq, Repr

namespace Outcome

def success (output : String) : Outcome := ⟨output, none⟩

def ofExcept : Except Failure String → Outcome
  | .ok output => .success output
  | .error failure => ⟨"", some failure⟩

def before (first : Outcome) (next : Unit → Outcome) : Outcome :=
  match first.failure with
  | some _ => first
  | none => ⟨first.output ++ (next ()).output, (next ()).failure⟩

/-- 0 for success, 2 for misused arguments, and 1 for every other failure. -/
def exitCode (o : Outcome) : Nat :=
  match o.failure with
  | none => 0
  | some .usage => 2
  | some _ => 1

end Outcome

def printed (lines : List String) : String := String.join (lines.map (· ++ "\n"))

def versionText : String := printed ["pixprint 0.1.0"]

def shown (json : Bool) (record : Report.Json) (lines : List String) : String :=
  printed (if json then [record.text] else lines)

def decodeFile (codec : Codec) (files : Files) (path : String) : Except Failure Buffer :=
  match contentAt files path with
  | some content => (codec.decode content).mapError (.undecodable path)
  | none => .error (.unreadable path)

def eachFile (report : String → Except Failure String) : List String → Outcome
  | [] => .success ""
  | path :: rest => (Outcome.ofExcept (report path)).before fun _ => eachFile report rest

section Commands

variable (codec : Codec) (files : Files) (json : Bool) (settings : Settings)

def paletteReport (path : String) : Except Failure String := do
  let b ← decodeFile codec files path
  let a ← ((Image.analysis codec settings.palette b).result).mapError (.image ∘ .codec)
  return shown json (Report.analysisRecord path a) (Report.analysisLines path a)

def hashReport (path : String) : Except Failure String := do
  let b ← decodeFile codec files path
  let h ← ((Image.fingerprint codec settings.fingerprint.algorithm b).result).mapError .image
  return shown json (Report.fingerprintRecord path h) [Report.fingerprintLine path h]

def qualityReport (path : String) : Except Failure String := do
  let b ← decodeFile codec files path
  let s ← ((Image.score codec settings.sharpness b).result).mapError .image
  return shown json (Report.scoreRecord path s) [Report.scoreLine path s]

def comparisonReport (left right : String) : Except Failure String := do
  let a ← decodeFile codec files left
  let b ← decodeFile codec files right
  let r ← (Image.similarity codec settings.fingerprint.algorithm a b).mapError .image
  return shown json (Report.comparisonRecord r)
    (Report.comparisonLines left right r settings.fingerprint.similarityThreshold)

/-- The duplicates among labeled files; files without a fingerprint are left out. -/
def duplicatesReport (labeled : List LabeledFile) : Except Failure String := do
  let (labels, hashes) := hashFiles codec settings.fingerprint.algorithm labeled
  let groups ← (Fingerprint.duplicates settings.fingerprint.similarityThreshold
    hashes).mapError (.image ∘ .fingerprint)
  return shown json (Report.duplicatesRecord labels groups) (Report.duplicateLines labels groups)

def runCommand : Command → Outcome
  | .palette paths => eachFile (paletteReport codec files json settings) paths
  | .hash paths => eachFile (hashReport codec files json settings) paths
  | .compare left right => .ofExcept (comparisonReport codec files json settings left right)
  | .quality paths => eachFile (qualityReport codec files json settings) paths
  | .duplicates paths =>
    .ofExcept (duplicatesReport codec json settings (paths.flatMap (expand files)))
  | .stockSettings => .success Settings.stockText

end Commands

def settingsOf (files : Files) (o : Options) : Except SettingsError Settings := do
  let loaded ← match o.config with
    | some path => Settings.load (contentAt files path)
    | none => pure {}
  loaded.withOverrides o.algorithm o.threshold

def runRequest (codec : Codec) (files : Files) : Request → Outcome
  | .version => .success versionText
  | .run options command =>
    match settingsOf files options with
    | .ok settings => runCommand codec files options.json settings command
    | .error cause => ⟨"", some (.settings cause)⟩

def run (codec : Codec) (files : Files) (arguments : List String) : Outcome :=
  match Request.ofArguments? arguments with
  | some request => runRequest codec files request
  | none => ⟨"", some .usage⟩

end ImageDigest.CommandLine
