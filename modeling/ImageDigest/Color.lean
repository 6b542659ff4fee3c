import ImageDigest.Text.Hex
import ImageDigest.Text.Quoted

namespace ImageDigest

structure Rgb where
  red : UInt8
  green : UInt8
  blue : UInt8
  deriving DecidableEq, Repr, Inhabited

namespace Rgb

def ofGray (v : UInt8) : Rgb := ⟨v, v, v⟩

def mapChannels (f : UInt8 → UInt8) (c : Rgb) : Rgb := ⟨f c.red, f c.green, f c.blue⟩

def code (c : Rgb) : Nat := 65536 * c.red.toNat + 256 * c.green.toNat + c.blue.toNat

def hex (c : Rgb) : String :=
  String.ofList ('#' :: Text.Hex.ofByte c.red ++ Text.Hex.ofByte c.green ++ Text.Hex.ofByte c.blue)

def ofHexDigits? : List Char → Option Rgb
  | [r₁, r₀, g₁, g₀, b₁, b₀] => do
    return ⟨← Text.Hex.byte? r₁ r₀, ← Text.Hex.byte? g₁ g₀, ← Text.Hex.byte? b₁ b₀⟩
  | _ => none

/-- At most one number sign is no part of the digits. -/
def withoutSign : List Char → List Char
  | '#' :: digits => digits
  | digits => digits

def strongest (c : Rgb) : Float := (max c.red (max c.green c.blue)).toFloat / 255

def weakest (c : Rgb) : Float := (min c.red (min c.green c.blue)).toFloat / 255

def saturation (c : Rgb) : Float :=
  if c.strongest == 0 then 0 else (c.strongest - c.weakest) / c.strongest

def lightness (c : Rgb) : Float := (c.strongest + c.weakest) / 2

end Rgb

inductive ColorError where
  | invalidHex (text : String)
  deriving DecidableEq, Repr

def ColorError.message : ColorError → String
  | .invalidHex text =>
    "invalid hex color: " ++ Text.Quoted.write text ++
      " (expected 6 hex digits, optional leading '#')"

/-- Reads six hexadecimal digits of either case, after at most one number sign. -/
def Rgb.parse (text : String) : Except ColorError Rgb :=
  match Rgb.ofHexDigits? (Rgb.withoutSign text.toList) with
  | some c => .ok c
  | none => .error (.invalidHex text)

/-- How many pixels of a sample a color stands for, and their share in percent. -/
structure Share where
  count : Nat
  percent : Float
  deriving BEq, Repr

/-- The share of `count` out of `total` pixels; nothing of an empty sample. -/
def Share.of (count total : Nat) : Share :=
  ⟨count, if total = 0 then 0 else Float.ofNat count / Float.ofNat total * 100⟩

structure Color where
  rgb : Rgb
  share : Option Share := none
  deriving BEq, Repr

namespace Color

def counted (rgb : Rgb) (count total : Nat) : Color := ⟨rgb, some (Share.of count total)⟩

def hex (c : Color) : String := c.rgb.hex

def count? (c : Color) : Option Nat := c.share.map Share.count

def percent? (c : Color) : Option Float := c.share.map Share.percent

def sameRgb (c d : Color) : Bool := c.rgb = d.rgb

end Color

end ImageDigest
