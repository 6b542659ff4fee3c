import ImageDigest.Toml.Value
import Mathlib.Data.List.Nodup
import Mathlib.Data.String.Basic

namespace ImageDigest.Toml

section Keys

variable {α : Type} {entries rest : List (String × α)} {key other : String} {a b : α}

def Increasing (entries : List (String × α)) : Prop := entries.Pairwise fun e e' => e.1 < e'.1

def DistinctKeys (entries : List (String × α)) : Prop := (entries.map Prod.fst).Nodup

theorem Increasing.distinct (increasing : Increasing entries) : DistinctKeys entries := by
  have keys : (entries.map Prod.fst).Pairwise (· < ·) := List.pairwise_map.mpr increasing
  exact keys.imp ne_of_lt

theorem distinctKeys_cons :
    DistinctKeys ((key, a) :: rest) ↔ key ∉ rest.map Prod.fst ∧ DistinctKeys rest :=
  List.nodup_cons

@[simp] theorem lookup_cons_self : ((key, a) :: rest).lookup key = some a := by
  rw [List.lookup_cons, beq_self_eq_true]

theorem lookup_cons_of_ne (differ : key ≠ other) :
    ((other, b) :: rest).lookup key = rest.lookup key := by
  rw [List.lookup_cons, beq_false_of_ne differ]

theorem mem_of_lookup (found : entries.lookup key = some a) : (key, a) ∈ entries := by
  obtain ⟨before, behind, rfl, -⟩ := List.lookup_eq_some_iff.mp found
  exact List.mem_append_right before List.mem_cons_self

theorem lookup_eq_none_iff : entries.lookup key = none ↔ key ∉ entries.map Prod.fst := by
  rw [List.lookup_eq_none_iff, List.mem_map, not_exists]
  constructor
  · intro absent e found
    have differ := absent e found.1
    exact bne_iff_ne.mp differ found.2.symm
  · intro absent e member
    exact bne_iff_ne.mpr fun same => absent e ⟨member, same.symm⟩

end Keys

namespace Value

/-- Every table in the value has its keys in order, and so each of them once. -/
inductive WellFormed : Value → Prop where
  | string (s : String) : WellFormed (.string s)
  | integer (i : Int) : WellFormed (.integer i)
  | float (x : Float) : WellFormed (.float x)
  | boolean (b : Bool) : WellFormed (.boolean b)
  | datetime (d : Datetime) : WellFormed (.datetime d)
  | array {items : List Value} (each : ∀ v ∈ items, WellFormed v) : WellFormed (.array items)
  | table {entries : Entries} (increasing : Increasing entries)
      (each : ∀ e ∈ entries, WellFormed e.2) : WellFormed (.table entries)

theorem WellFormed.distinct {entries : Entries} (wellFormed : (Value.table entries).WellFormed) :
    DistinctKeys entries := by
  cases wellFormed with
  | table increasing each => exact increasing.distinct

theorem WellFormed.of_lookup {entries : Entries} {key : String} {v : Value}
    (wellFormed : (Value.table entries).WellFormed) (found : entries.lookup key = some v) :
    v.WellFormed := by
  cases wellFormed with
  | table increasing each => exact each _ (mem_of_lookup found)

def at? : List String → Value → Option Value
  | [], v => some v
  | key :: rest, .table entries => (entries.lookup key).bind (at? rest)
  | _ :: _, _ => none

end Value

end ImageDigest.Toml
