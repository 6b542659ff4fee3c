import ImageDigest.Proofs.Toml.Value
import ImageDigest.Toml.Merge

namespace ImageDigest.Toml

variable {overlay : Entries} {key other : String} {v : Value}

theorem merge_tables (base overlay : Entries) :
    merge (.table base) (.table overlay) = .table (mergeEntries base overlay) := by
  rw [merge]

theorem merge_of_plain {below : Value} (plain : ∀ entries, below ≠ .table entries) (v : Value) :
    merge below v = v := by
  cases v with
  | table overlay =>
      cases below with
      | table base => exact absurd rfl (plain base)
      | _ => rw [merge]; exact plain
  | _ => rw [merge]; intro entries same; cases same

theorem merge_plain (below : Value) (plain : ∀ entries, v ≠ .table entries) :
    merge below v = v := by
  cases v with
  | table overlay => exact absurd rfl (plain overlay)
  | _ => rw [merge]; exact plain

theorem lookup_setKey_self (key : String) (v : Value) (entries : Entries) :
    (setKey key v entries).lookup key = some v := by
  induction entries with
  | nil => exact lookup_cons_self
  | cons head rest ih =>
      rcases head with ⟨k, w⟩
      rw [setKey]
      split
      case isTrue before =>
          rw [lookup_cons_of_ne before.ne', ih]
      case isFalse =>
          split
          case isTrue same => rw [same, lookup_cons_self]
          case isFalse => exact lookup_cons_self

theorem lookup_setKey_of_ne (differ : other ≠ key) (v : Value) (entries : Entries) :
    (setKey key v entries).lookup other = entries.lookup other := by
  induction entries with
  | nil => exact lookup_cons_of_ne differ
  | cons head rest ih =>
      rcases head with ⟨k, w⟩
      rw [setKey]
      split
      case isTrue =>
          by_cases same : other = k
          · rw [same, lookup_cons_self, lookup_cons_self]
          · rw [lookup_cons_of_ne same, lookup_cons_of_ne same, ih]
      case isFalse =>
          split
          case isTrue same =>
              have differ' : other ≠ k := by rwa [same]
              rw [lookup_cons_of_ne differ', lookup_cons_of_ne differ']
          case isFalse => exact lookup_cons_of_ne differ

/-- The value of a key laid over what stands below it, if anything does. -/
def laidOver (v : Value) : Option Value → Value
  | some below => merge below v
  | none => v

theorem mergeEntries_cons (base : Entries) (key : String) (v : Value) (rest : Entries) :
    mergeEntries base ((key, v) :: rest) =
      mergeEntries (setKey key (laidOver v (base.lookup key)) base) rest := by
  rw [mergeEntries]
  cases base.lookup key <;> rfl

/-- A key of the upper table has its value laid over the lower one, and every other key stays. -/
theorem lookup_mergeEntries (base : Entries) (distinct : DistinctKeys overlay) (key : String) :
    (mergeEntries base overlay).lookup key =
      (overlay.lookup key).elim (base.lookup key) fun v => some (laidOver v (base.lookup key)) := by
  induction overlay generalizing base with
  | nil => rw [mergeEntries]; rfl
  | cons head rest ih =>
      rcases head with ⟨k, w⟩
      obtain ⟨absent, behind⟩ := distinctKeys_cons.mp distinct
      rw [mergeEntries_cons, ih _ behind]
      by_cases same : key = k
      · subst same
        rw [lookup_eq_none_iff.mpr absent, lookup_cons_self]
        exact lookup_setKey_self _ _ _
      · rw [lookup_cons_of_ne same, lookup_setKey_of_ne same]

theorem mem_keys_mergeEntries (base : Entries) (distinct : DistinctKeys overlay) (key : String) :
    key ∈ (mergeEntries base overlay).map Prod.fst ↔
      key ∈ base.map Prod.fst ∨ key ∈ overlay.map Prod.fst := by
  have found := lookup_mergeEntries base distinct key
  have absent {entries : Entries} : key ∈ entries.map Prod.fst ↔ entries.lookup key ≠ none := by
    rw [ne_eq, lookup_eq_none_iff, not_not]
  rw [absent, absent, absent, found]
  cases overlay.lookup key with
  | none => simp only [Option.elim_none, ne_eq, not_true_eq_false, or_false]
  | some v => simp only [Option.elim_some, ne_eq, reduceCtorEq, not_false_eq_true, or_true]

end ImageDigest.Toml
