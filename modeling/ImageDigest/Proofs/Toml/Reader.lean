import ImageDigest.Toml.Reader

namespace ImageDigest.Toml.Reader

variable {α β : Type} {P : α → Prop} {Q : β → Prop} {r r' : Reader α} {a : α}

def Ensures (r : Reader α) (P : α → Prop) : Prop := ∀ s a rest, r s = some (a, rest) → P a

theorem ensures_true (r : Reader α) : Ensures r fun _ => True := fun _ _ _ _ => trivial

theorem ensures_pure (holds : P a) : Ensures (pure a) P := by
  intro s b rest done
  cases done
  exact holds

theorem ensures_failure : Ensures failure P := fun _ _ _ done => nomatch done

theorem Ensures.bind {f : α → Reader β} (first : Ensures r P)
    (next : ∀ a, P a → Ensures (f a) Q) : Ensures (r >>= f) Q := by
  intro s b rest done
  obtain ⟨⟨a, middle⟩, read, done⟩ := Option.bind_eq_some_iff.mp done
  exact next a (first s a middle read) middle b rest done

theorem Ensures.after {f : α → Reader β} (r : Reader α) (next : ∀ a, Ensures (f a) Q) :
    Ensures (r >>= f) Q :=
  (ensures_true r).bind fun a _ => next a

theorem Ensures.map {f : α → β} (read : Ensures r P) (each : ∀ a, P a → Q (f a)) :
    Ensures (f <$> r) Q := by
  intro s b rest done
  obtain ⟨⟨a, middle⟩, first, done⟩ := Option.bind_eq_some_iff.mp done
  cases done
  exact each a (read s a _ first)

theorem Ensures.orElse (left : Ensures r P) (right : Ensures r' P) : Ensures (r <|> r') P := by
  intro s a rest done
  change (r s).orElse (fun _ => r' s) = some (a, rest) at done
  cases first : r s with
  | none =>
      rw [first, Option.orElse_none] at done
      exact right s a rest done
  | some found =>
      rw [first, Option.orElse_some] at done
      exact left s a rest (first.trans done)

theorem ensures_option? (each : Ensures r P) :
    Ensures (option? r) fun found => ∀ a ∈ found, P a := by
  apply Ensures.orElse
  · exact each.map fun a holds found same => Option.some.inj same ▸ holds
  · exact ensures_pure nofun

theorem ensures_manyFrom (each : Ensures r P) (marks : List Char) :
    Ensures (manyFrom r marks) fun values => ∀ a ∈ values, P a := by
  induction marks with
  | nil => exact ensures_pure nofun
  | cons mark rest ih =>
      apply Ensures.orElse
      · refine each.bind fun a holds => ih.bind fun later behind => ensures_pure ?_
        exact List.forall_mem_cons.mpr ⟨holds, behind⟩
      · exact ensures_pure nofun

theorem ensures_many (each : Ensures r P) : Ensures (many r) fun values => ∀ a ∈ values, P a :=
  fun s values rest done => ensures_manyFrom each s s values rest done

theorem ensures_separated (each : Ensures r P) (separator : Reader Unit) :
    Ensures (separated r separator) fun values => ∀ a ∈ values, P a := by
  have later : Ensures (do separator; r) P := Ensures.after separator fun _ => each
  refine each.bind fun a holds => (ensures_many later).bind fun rest behind => ensures_pure ?_
  exact List.forall_mem_cons.mpr ⟨holds, behind⟩

end ImageDigest.Toml.Reader
