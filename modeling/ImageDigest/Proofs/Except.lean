import Mathlib.Data.List.Forall2

namespace ImageDigest

variable {ε ε' α β : Type}

theorem ok_error_absurd {x : Except ε α} {a : α} {e : ε} (done : x = .ok a)
    (failed : x = .error e) : False := by
  rw [done] at failed
  cases failed

@[simp] theorem ok_bind (a : α) (f : α → Except ε β) : (Except.ok a >>= f) = f a := rfl

@[simp] theorem error_bind (e : ε) (f : α → Except ε β) : (Except.error e >>= f) = .error e := rfl

@[simp] theorem mapError_of_ok (f : ε → ε') (a : α) :
    (Except.ok a : Except ε α).mapError f = .ok a := rfl

@[simp] theorem mapError_of_error (f : ε → ε') (e : ε) :
    (Except.error e : Except ε α).mapError f = .error (f e) := rfl

theorem bind_ok {x : Except ε α} {f : α → Except ε β} {b : β} (done : (x >>= f) = .ok b) :
    ∃ a, x = .ok a ∧ f a = .ok b := by
  cases x with
  | error e => cases done
  | ok a => exact ⟨a, rfl, done⟩

theorem bind_error {x : Except ε α} {f : α → Except ε β} {e : ε}
    (failed : (x >>= f) = .error e) : x = .error e ∨ ∃ a, x = .ok a ∧ f a = .error e := by
  cases x with
  | error _ => exact .inl (congrArg Except.error (Except.error.inj failed))
  | ok a => exact .inr ⟨a, rfl, failed⟩

theorem mapError_ok {f : ε → ε'} {x : Except ε α} {a : α} (done : x.mapError f = .ok a) :
    x = .ok a := by
  cases x with
  | error e => cases done
  | ok b => exact congrArg Except.ok (Except.ok.inj done)

theorem mapError_error {f : ε → ε'} {x : Except ε α} {e' : ε'}
    (failed : x.mapError f = .error e') : ∃ e, x = .error e ∧ f e = e' := by
  cases x with
  | error e => exact ⟨e, rfl, Except.error.inj failed⟩
  | ok b => cases failed

theorem mapM_ok {f : α → Except ε β} {members : List α} {values : List β}
    (done : members.mapM f = .ok values) :
    List.Forall₂ (fun a b => f a = .ok b) members values := by
  induction members generalizing values with
  | nil =>
      cases done
      exact .nil
  | cons head tail ih =>
      rw [List.mapM_cons] at done
      rcases bind_ok done with ⟨b, first, done⟩
      rcases bind_ok done with ⟨rest, behind, done⟩
      cases done
      exact .cons first (ih behind)

theorem exists_left_of_mem {Belongs : α → β → Prop} {members : List α} {values : List β} {b : β}
    (related : List.Forall₂ Belongs members values) (member : b ∈ values) :
    ∃ a ∈ members, Belongs a b := by
  induction related with
  | nil => cases member
  | cons first _ ih =>
      rcases List.mem_cons.mp member with rfl | later
      · exact ⟨_, List.mem_cons_self, first⟩
      · rcases ih later with ⟨a, inside, belongs⟩
        exact ⟨a, List.mem_cons_of_mem _ inside, belongs⟩

theorem mapM_ok_at {f : α → Except ε β} {members : List α} {values : List β} {i : Nat} {a : α}
    (done : members.mapM f = .ok values) (found : members[i]? = some a) :
    ∃ b, values[i]? = some b ∧ f a = .ok b := by
  rcases List.forall₂_iff_get.mp (mapM_ok done) with ⟨length, each⟩
  rcases List.getElem?_eq_some_iff.mp found with ⟨inside, rfl⟩
  have inside' : i < values.length := length ▸ inside
  exact ⟨values[i], List.getElem?_eq_getElem inside', each i inside inside'⟩

theorem mapM_ok_source {f : α → Except ε β} {members : List α} {values : List β} {i : Nat} {b : β}
    (done : members.mapM f = .ok values) (found : values[i]? = some b) :
    ∃ a, members[i]? = some a ∧ f a = .ok b := by
  rcases List.forall₂_iff_get.mp (mapM_ok done) with ⟨length, each⟩
  rcases List.getElem?_eq_some_iff.mp found with ⟨inside, rfl⟩
  have inside' : i < members.length := length ▸ inside
  exact ⟨members[i], List.getElem?_eq_getElem inside', each i inside' inside⟩

theorem mapM_error {f : α → Except ε β} {members : List α} {e : ε}
    (failed : members.mapM f = .error e) : ∃ a ∈ members, f a = .error e := by
  induction members with
  | nil => cases failed
  | cons head tail ih =>
      rw [List.mapM_cons] at failed
      rcases bind_error failed with first | ⟨b, -, failed⟩
      · exact ⟨head, List.mem_cons_self, first⟩
      · rcases bind_error failed with behind | ⟨rest, -, failed⟩
        · rcases ih behind with ⟨a, member, failing⟩
          exact ⟨a, List.mem_cons_of_mem head member, failing⟩
        · cases failed

end ImageDigest
