import ImageDigest.Number.FloatValue
import Mathlib.Data.Rat.Cast.Defs

namespace ImageDigest.Number.FloatValue

def rational? : FloatValue → Option ℚ
  | .finite negative mantissa exponent =>
    let (num, den) := ratio mantissa exponent
    some (if negative then -((num : ℚ) / den) else (num : ℚ) / den)
  | .infinite _ => none
  | .nan => none

end ImageDigest.Number.FloatValue
