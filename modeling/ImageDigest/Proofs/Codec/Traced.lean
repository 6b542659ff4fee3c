import ImageDigest.Codec.Traced

namespace ImageDigest.Traced

variable {ε ε' α β : Type}

@[simp] theorem result_pure (a : α) : (Pure.pure a : Traced ε α).result = .ok a := rfl

@[simp] theorem calls_pure (a : α) : (Pure.pure a : Traced ε α).calls = [] := rfl

@[simp] theorem result_bind (x : Traced ε α) (f : α → Traced ε β) :
    (x >>= f).result = x.result >>= fun a => (f a).result := by
  change (bind x f).result = _
  unfold bind
  cases x.result <;> rfl

theorem calls_bind_ok {x : Traced ε α} {a : α} (done : x.result = .ok a) (f : α → Traced ε β) :
    (x >>= f).calls = x.calls ++ (f a).calls := by
  change (bind x f).calls = _
  simp only [bind, done]

theorem calls_bind_error {x : Traced ε α} {e : ε} (failed : x.result = .error e)
    (f : α → Traced ε β) : (x >>= f).calls = x.calls := by
  change (bind x f).calls = _
  simp only [bind, failed]

theorem calls_bind_silent (x : Traced ε α) {f : α → Traced ε β} (silent : ∀ a, (f a).calls = []) :
    (x >>= f).calls = x.calls := by
  cases outcome : x.result with
  | error e => exact calls_bind_error outcome f
  | ok a => rw [calls_bind_ok outcome, silent, List.append_nil]

@[simp] theorem result_ofExcept (result : Except ε α) : (ofExcept result).result = result := rfl

@[simp] theorem calls_ofExcept (result : Except ε α) : (ofExcept result).calls = [] := rfl

@[simp] theorem result_mapError (f : ε → ε') (x : Traced ε α) :
    (x.mapError f).result = x.result.mapError f := rfl

@[simp] theorem calls_mapError (f : ε → ε') (x : Traced ε α) :
    (x.mapError f).calls = x.calls := rfl

end ImageDigest.Traced

namespace ImageDigest.Codec

@[simp] theorem result_tracedResize (codec : Codec) (b : Buffer) (request : ResizeRequest) :
    (codec.tracedResize b request).result = codec.resize b request := rfl

@[simp] theorem calls_tracedResize (codec : Codec) (b : Buffer) (request : ResizeRequest) :
    (codec.tracedResize b request).calls = [.resize b.size request] := rfl

@[simp] theorem result_tracedGrayscale (codec : Codec) (b : Buffer) :
    (codec.tracedGrayscale b).result = codec.grayscale b := rfl

@[simp] theorem calls_tracedGrayscale (codec : Codec) (b : Buffer) :
    (codec.tracedGrayscale b).calls = [.grayscale b.channels] := rfl

end ImageDigest.Codec
