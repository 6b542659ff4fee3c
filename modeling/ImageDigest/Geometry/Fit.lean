import ImageDigest.Buffer
import ImageDigest.Number.Rounding

namespace ImageDigest.Size

def quotients (source bounds : Size) : List Rat :=
  [(bounds.width, source.width), (bounds.height, source.height)].filterMap fun (bound, edge) =>
    if edge = 0 then none else some (Number.nearest ((bound : Rat) / edge))

def least : List Rat → Rat
  | [] => 0
  | [x] => x
  | x :: rest => if x ≤ least rest then x else least rest

/-- The factor that brings the tighter edge onto its bound. -/
def fitScale (source bounds : Size) : Rat := least (quotients source bounds)

/-- A scaled edge, at least one pixel unless the edge is zero, and within its bound. -/
def fitEdge (scale : Rat) (edge bound : Nat) : Nat :=
  let scaled := Number.roundHalfUp (Number.nearest ((edge : Rat) * scale))
  min (max scaled (min 1 edge)) (max bound 1)

def fitWith (scale : Rat) (source bounds : Size) : Size :=
  ⟨fitEdge scale source.width bounds.width, fitEdge scale source.height bounds.height⟩

def fitsIn (source bounds : Size) : Bool :=
  source.width ≤ bounds.width && source.height ≤ bounds.height

/-- A source that fits stays as it is, so nothing is scaled up. -/
def fit (source bounds : Size) : Size :=
  if source.fitsIn bounds then source else fitWith (fitScale source bounds) source bounds

end ImageDigest.Size
