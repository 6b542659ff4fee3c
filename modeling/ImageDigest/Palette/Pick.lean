import ImageDigest.Palette.Tally

namespace ImageDigest.Palette

section Best

variable {α β : Type} [LT β] [DecidableLT β]

/-- The better of what is held and an element with its score; a tie goes to what is held, and an
element without a score never wins. -/
def better (score : α → Option β) (held : Option (α × β)) (item : α) : Option (α × β) :=
  match score item, held with
  | none, held => held
  | some s, none => some (item, s)
  | some s, some (best, b) => if b < s then some (item, s) else some (best, b)

def firstBest (score : α → Option β) (items : List α) : Option α :=
  (items.foldl (better score) none).map Prod.fst

end Best

def darkLimit : Float := 0.4

def lightLimit : Float := 0.6

/-- Colors no more saturated than this are never picked as dark or light vibrant. -/
def saturationLimit : Float := 0.3

def darkScore (c : Color) : Option Float :=
  let s := c.rgb.saturation
  let l := c.rgb.lightness
  if l < darkLimit && saturationLimit < s then some (s * (darkLimit - l)) else none

def lightScore (c : Color) : Option Float :=
  let s := c.rgb.saturation
  let l := c.rgb.lightness
  if lightLimit < l && saturationLimit < s then some (s * (l - lightLimit)) else none

def vibrant (colors : List Color) : Option Color :=
  firstBest (fun c => some c.rgb.saturation) colors

def darkVibrant (colors : List Color) : Option Color := firstBest darkScore colors

def lightVibrant (colors : List Color) : Option Color := firstBest lightScore colors

def average? (pixels : List Rgb) : Option Color :=
  if pixels.isEmpty then none else some ⟨mean pixels, none⟩

def grayTolerance : Nat := 5

def closeTo (v w : UInt8) : Bool := ((v.toNat : Int) - w.toNat).natAbs ≤ grayTolerance

def isGray (c : Rgb) : Bool :=
  closeTo c.red c.green && closeTo c.green c.blue && closeTo c.red c.blue

def isGrayscale (pixels : List Rgb) : Bool :=
  9 * pixels.length < 10 * pixels.countP isGray

end ImageDigest.Palette
