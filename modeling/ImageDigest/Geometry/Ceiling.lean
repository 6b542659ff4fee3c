import ImageDigest.Buffer
import ImageDigest.Number.Rounding

/-!
The largest size with a source's aspect ratio and at most a given number of pixels.
-/

namespace ImageDigest.Size

def ceilingScale (source : Size) (maxPixels : Nat) : Rat :=
  let budget := Number.nearest (maxPixels : Rat)
  let area := Number.nearest (source.area : Rat)
  Number.nearestSqrt (Number.nearest (budget / area))

def ceilingEdge (scale : Rat) (edge : Nat) : Nat :=
  max (Number.nearest ((edge : Rat) * scale)).floor.toNat 1

/-- An edge of one pixel hands the whole budget to the other. -/
def spendOnOther (source : Size) (maxPixels : Nat) (s : Size) : Size :=
  if s.width = 1 then ⟨1, max (min maxPixels source.height) 1⟩
  else if s.height = 1 then ⟨max (min maxPixels source.width) 1, 1⟩
  else s

/-- Takes single pixels off the longer edge until the area is within the budget. -/
def shrinkTo (maxPixels : Nat) (s : Size) : Size :=
  if _h : maxPixels < s.area ∧ (1 < s.width ∨ 1 < s.height) then
    if s.height ≤ s.width then shrinkTo maxPixels ⟨s.width - 1, s.height⟩
    else shrinkTo maxPixels ⟨s.width, s.height - 1⟩
  else s
  termination_by s.width + s.height
  decreasing_by all_goals (simp_wf; omega)

def ceilingWith (scale : Rat) (source : Size) (maxPixels : Nat) : Size :=
  shrinkTo maxPixels (spendOnOther source maxPixels
    ⟨ceilingEdge scale source.width, ceilingEdge scale source.height⟩)

def ceiling (source : Size) (maxPixels : Nat) : Size :=
  if source.area ≤ maxPixels then source
  else ceilingWith (ceilingScale source maxPixels) source maxPixels

end ImageDigest.Size
