import ImageDigest.Buffer

namespace ImageDigest

inductive Layout where
  | gray
  | grayAlpha
  | color
  | colorAlpha
  deriving DecidableEq, Repr

namespace Layout

def channels : Layout → Nat
  | .gray => 1
  | .grayAlpha => 2
  | .color => 3
  | .colorAlpha => 4

def ofChannels? : Nat → Option Layout
  | 1 => some .gray
  | 2 => some .grayAlpha
  | 3 => some .color
  | 4 => some .colorAlpha
  | _ => none

def of (hasColor hasAlpha : Bool) : Layout :=
  match hasColor, hasAlpha with
  | false, false => .gray
  | false, true => .grayAlpha
  | true, false => .color
  | true, true => .colorAlpha

def hasColor : Layout → Bool
  | .gray | .grayAlpha => false
  | .color | .colorAlpha => true

def hasAlpha : Layout → Bool
  | .gray | .color => false
  | .grayAlpha | .colorAlpha => true

theorem channels_pos (layout : Layout) : 1 ≤ layout.channels := by
  cases layout <;> decide

theorem channels_le (layout : Layout) : layout.channels ≤ 4 := by
  cases layout <;> decide

end Layout

end ImageDigest
