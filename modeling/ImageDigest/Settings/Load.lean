import ImageDigest.Settings.Decode
import ImageDigest.Settings.Valid
import ImageDigest.Toml.Document
import ImageDigest.Toml.Merge

namespace ImageDigest

inductive SettingsError where
  | unreadable
  | malformed
  | invalid (fault : SettingsFault)
  deriving DecidableEq, Repr

def SettingsError.message : SettingsError → String
  | .unreadable => "IO error: the configuration cannot be read"
  | .malformed => "TOML parse error: the configuration is malformed"
  | .invalid fault => "Config validation error: " ++ fault.message

namespace Settings

def validate (s : Settings) : Except SettingsError Settings :=
  match s.fault? with
  | some fault => .error (.invalid fault)
  | none => .ok s

def overStock (overlay : Toml.Value) : Except SettingsError Settings :=
  match ofValue? (Toml.merge stockValue overlay) with
  | some s => s.validate
  | none => .error .malformed

def parse (text : String) : Except SettingsError Settings :=
  match Toml.parse? text with
  | some overlay => overStock overlay
  | none => .error .malformed

/-- The settings in the contents of a file, if there is one and it holds text. -/
def load (file : Option (List UInt8)) : Except SettingsError Settings :=
  match file.bind fun bytes => String.fromUTF8? ⟨bytes.toArray⟩ with
  | some text => parse text
  | none => .error .unreadable

def withOverrides (s : Settings) (algorithm : Option Algorithm) (threshold : Option Float) :
    Except SettingsError Settings :=
  validate { s with fingerprint := {
    algorithm := algorithm.getD s.fingerprint.algorithm
    similarityThreshold := threshold.getD s.fingerprint.similarityThreshold } }

end Settings

end ImageDigest
