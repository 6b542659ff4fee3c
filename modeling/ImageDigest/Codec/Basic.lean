import ImageDigest.Geometry.Fit

namespace ImageDigest

/-- `fit` keeps the aspect ratio inside a box and never scales up; `fill` stretches to exactly
the given size. -/
inductive ResizeMode where
  | fit
  | fill
  deriving DecidableEq, Repr

structure ResizeRequest where
  size : Size
  mode : ResizeMode
  deriving DecidableEq, Repr

def ResizeRequest.target (request : ResizeRequest) (source : Size) : Size :=
  match request.mode with
  | .fit => source.fit request.size
  | .fill => request.size

inductive CodecError where
  | undecodable (reason : String)
  | resize (reason : String)
  | invalidBuffer (fault : BufferError)
  deriving DecidableEq, Repr

def CodecError.message : CodecError → String
  | .undecodable reason => "Decode failed: " ++ reason
  | .resize reason => "Resize failed: " ++ reason
  | .invalidBuffer fault => "Codec produced an invalid buffer: " ++ fault.message

structure Codec where
  decode : List UInt8 → Except CodecError Buffer
  resize : Buffer → ResizeRequest → Except CodecError Buffer
  grayscale : Buffer → Except CodecError Buffer

inductive CodecCall where
  | resize (source : Size) (request : ResizeRequest)
  | grayscale (channels : Nat)
  deriving DecidableEq, Repr

end ImageDigest
