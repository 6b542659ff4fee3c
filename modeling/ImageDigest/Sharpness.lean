import ImageDigest.Buffer
import ImageDigest.Number.FloatValue
import ImageDigest.Number.Total
import ImageDigest.Settings.Basic

/-!
Sharpness: the mean squared Laplacian over the inner pixels of a buffer's first channel, scaled
to a score from 0 to 100.
-/

namespace ImageDigest

structure Score where
  value : Nat
  value_le : value ≤ 100
  deriving DecidableEq, Repr

def Score.ofNat (n : Nat) : Score := ⟨min n 100, Nat.min_le_right n 100⟩

inductive SharpnessError where
  | tooLarge (pixels ceiling : Nat)
  deriving DecidableEq, Repr

def SharpnessError.message : SharpnessError → String
  | .tooLarge pixels ceiling => s!"buffer has {pixels} pixels, above the {ceiling} pixel ceiling"

namespace Buffer

def laplacian (b : Buffer) (x y : Nat) : Int :=
  let sample (x y : Nat) : Int := (b.firstChannel x y).toNat
  4 * sample x y - sample x (y - 1) - sample x (y + 1) - sample (x - 1) y - sample (x + 1) y

def interior (b : Buffer) : List (Nat × Nat) :=
  (List.range' 1 (b.size.height - 2)).flatMap fun y =>
    (List.range' 1 (b.size.width - 2)).map fun x => (x, y)

def squaredLaplacian (b : Buffer) (x y : Nat) : Nat :=
  let value := (b.laplacian x y).natAbs
  value * value

def squaredLaplacianSum (b : Buffer) : Nat :=
  Number.total (b.interior.map fun (x, y) => b.squaredLaplacian x y)

/-- The mean squared Laplacian; a buffer below three pixels in width or height has none. -/
def laplacianVariance (b : Buffer) : Option Float :=
  if b.size.width < 3 ∨ b.size.height < 3 then none
  else
    let pixels := (b.size.width - 2) * (b.size.height - 2)
    some (Float.ofNat b.squaredLaplacianSum / Float.ofNat pixels)

end Buffer

namespace Score

def ofVariance (settings : SharpnessSettings) (variance : Float) : Score :=
  let raw := Number.leastNumber (variance.sqrt / settings.divisor) settings.cap
  .ofNat ((Number.FloatValue.ofFloat raw).clampedRound 255)

def ofSamples (settings : SharpnessSettings) (b : Buffer) : Score :=
  match b.laplacianVariance with
  | some variance => ofVariance settings variance
  | none => .ofNat 0

def ofBuffer (settings : SharpnessSettings) (b : Buffer) : Except SharpnessError Score :=
  match settings.ceiling? with
  | some ceiling =>
    if ceiling < b.pixelCount then .error (.tooLarge b.pixelCount ceiling)
    else .ok (ofSamples settings b)
  | none => .ok (ofSamples settings b)

end Score

end ImageDigest
