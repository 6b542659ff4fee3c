import ImageDigest.Codec.Basic

/-!
Computations that keep a record of their codec calls, the failing ones included.
-/

namespace ImageDigest

structure Traced (ε α : Type) where
  calls : List CodecCall
  result : Except ε α

namespace Traced

variable {ε ε' α β : Type}

def pure (a : α) : Traced ε α := ⟨[], .ok a⟩

def bind (x : Traced ε α) (f : α → Traced ε β) : Traced ε β :=
  match x.result with
  | .ok a => ⟨x.calls ++ (f a).calls, (f a).result⟩
  | .error e => ⟨x.calls, .error e⟩

instance : Monad (Traced ε) where
  pure := Traced.pure
  bind := Traced.bind

def ofExcept (result : Except ε α) : Traced ε α := ⟨[], result⟩

def mapError (f : ε → ε') (x : Traced ε α) : Traced ε' α := ⟨x.calls, x.result.mapError f⟩

end Traced

namespace Codec

def tracedResize (codec : Codec) (b : Buffer) (request : ResizeRequest) :
    Traced CodecError Buffer :=
  ⟨[.resize b.size request], codec.resize b request⟩

def tracedGrayscale (codec : Codec) (b : Buffer) : Traced CodecError Buffer :=
  ⟨[.grayscale b.channels], codec.grayscale b⟩

end Codec

end ImageDigest
