import ImageDigest.Codec.Traced

/-!
Samples: copies of an image that are small enough to analyze.
-/

namespace ImageDigest.Image

/-- The image, shrunk to fit a square. One that fits, or has no pixels, stays as it is and
costs no call. -/
def sample (codec : Codec) (edge : Nat) (b : Buffer) : Traced CodecError Buffer :=
  if b.isEmpty || b.size.fit ⟨edge, edge⟩ = b.size then pure b
  else codec.tracedResize b ⟨⟨edge, edge⟩, .fit⟩

end ImageDigest.Image
