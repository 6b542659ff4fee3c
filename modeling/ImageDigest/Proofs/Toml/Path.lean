import ImageDigest.Proofs.Toml.Merge

/-! What stands at the end of a path once one value is laid over another. -/

namespace ImageDigest.Toml

variable {entries entries' overlay : Entries} {key : String} {path : List String} {v w : Value}

def Value.IsTable (v : Value) : Prop := ∃ entries, v = .table entries

section Order

theorem lookup_of_mem (distinct : DistinctKeys entries) (member : (key, v) ∈ entries) :
    entries.lookup key = some v := by
  induction entries with
  | nil => cases member
  | cons head rest ih =>
      rcases head with ⟨k, w⟩
      obtain ⟨absent, behind⟩ := distinctKeys_cons.mp distinct
      rcases List.mem_cons.mp member with same | member
      · cases same
        exact lookup_cons_self
      · have differ : key ≠ k := by
          intro same
          exact absent (List.mem_map.mpr ⟨(key, v), member, same⟩)
        rw [lookup_cons_of_ne differ, ih behind member]

theorem eq_of_lookup_eq (increasing : Increasing entries) (increasing' : Increasing entries')
    (same : ∀ key, entries.lookup key = entries'.lookup key) : entries = entries' := by
  have members (e : String × Value) : e ∈ entries ↔ e ∈ entries' := by
    constructor
    · intro member
      exact mem_of_lookup ((same e.1).symm.trans (lookup_of_mem increasing.distinct member))
    · intro member
      exact mem_of_lookup ((same e.1).trans (lookup_of_mem increasing'.distinct member))
  have perm : entries.Perm entries' :=
    (List.perm_ext_iff_of_nodup increasing.distinct.of_map increasing'.distinct.of_map).mpr members
  refine List.Perm.eq_of_pairwise ?_ increasing increasing' perm
  intro e e' _ _ before after
  exact absurd after before.asymm

theorem table_congr (wellFormed : (Value.table entries).WellFormed)
    (wellFormed' : (Value.table entries').WellFormed)
    (same : ∀ key, entries.lookup key = entries'.lookup key) :
    Value.table entries = .table entries' := by
  cases wellFormed with
  | table increasing _ =>
      cases wellFormed' with
      | table increasing' _ =>
          exact congrArg Value.table (eq_of_lookup_eq increasing increasing' same)

theorem mem_setKey {e : String × Value} (member : e ∈ setKey key v entries) :
    e = (key, v) ∨ e ∈ entries := by
  induction entries with
  | nil => exact .inl (List.mem_singleton.mp member)
  | cons head rest ih =>
      rw [setKey] at member
      split at member
      case isTrue =>
        rcases List.mem_cons.mp member with rfl | member
        · exact .inr List.mem_cons_self
        · exact (ih member).imp_right (List.mem_cons_of_mem head)
      case isFalse =>
        split at member
        case isTrue same =>
          rcases List.mem_cons.mp member with rfl | member
          · exact .inl (by rw [same])
          · exact .inr (List.mem_cons_of_mem head member)
        case isFalse => exact List.mem_cons.mp member

theorem increasing_setKey (increasing : Increasing entries) :
    Increasing (setKey key v entries) := by
  induction entries with
  | nil => exact List.pairwise_singleton _ _
  | cons head rest ih =>
      obtain ⟨least, behind⟩ := List.pairwise_cons.mp increasing
      rw [setKey]
      split
      case isTrue before =>
        refine List.pairwise_cons.mpr ⟨?_, ih behind⟩
        intro e member
        rcases mem_setKey member with rfl | member
        · exact before
        · exact least e member
      case isFalse notBefore =>
        split
        case isTrue => exact List.pairwise_cons.mpr ⟨least, behind⟩
        case isFalse differ =>
          have first : key < head.1 := lt_of_le_of_ne (not_lt.mp notBefore) (Ne.symm differ)
          refine List.pairwise_cons.mpr ⟨?_, increasing⟩
          intro e member
          rcases List.mem_cons.mp member with rfl | member
          · exact first
          · exact first.trans (least e member)

end Order

section WellFormed

theorem wellFormed_setKey (wellFormed : (Value.table entries).WellFormed) (own : v.WellFormed) :
    (Value.table (setKey key v entries)).WellFormed := by
  cases wellFormed with
  | table increasing each =>
      refine .table (increasing_setKey increasing) ?_
      intro e member
      rcases mem_setKey member with rfl | member
      · exact own
      · exact each e member

theorem wellFormed_mergeEntries (wellFormed : (Value.table entries).WellFormed)
    (each : ∀ e ∈ overlay, ∀ base : Value, base.WellFormed → (merge base e.2).WellFormed)
    (plain : ∀ e ∈ overlay, e.2.WellFormed) :
    (Value.table (mergeEntries entries overlay)).WellFormed := by
  induction overlay generalizing entries with
  | nil => rwa [mergeEntries]
  | cons head rest ih =>
      rcases head with ⟨key, v⟩
      obtain ⟨own, others⟩ := List.forall_mem_cons.mp each
      obtain ⟨alone, behind⟩ := List.forall_mem_cons.mp plain
      rw [mergeEntries_cons]
      refine ih (wellFormed_setKey wellFormed ?_) others behind
      cases lower : entries.lookup key with
      | none => exact alone
      | some below => exact own below (wellFormed.of_lookup lower)

theorem wellFormed_merge {base : Value} (wellFormed : base.WellFormed) (upper : v.WellFormed) :
    (merge base v).WellFormed := by
  induction upper generalizing base with
  | table increasing each ih =>
      cases wellFormed with
      | table increasing' each' =>
          rw [merge_tables]
          exact wellFormed_mergeEntries (.table increasing' each') (fun e member _ => ih e member)
            each
      | _ =>
          rw [merge_of_plain (by intro entries same; cases same)]
          exact .table increasing each
  | _ =>
      rw [merge_plain _ (by intro entries same; cases same)]
      constructor <;> assumption

end WellFormed

section Paths

variable {base upper : Value}

theorem at?_table (key : String) (rest : List String) (entries : Entries) :
    (Value.table entries).at? (key :: rest) = (entries.lookup key).bind (Value.at? rest) := by
  rw [Value.at?]

theorem isTable_of_at? {rest : List String} (found : upper.at? (key :: rest) = some v) :
    upper.IsTable := by
  cases upper with
  | table entries => exact ⟨entries, rfl⟩
  | _ => cases found

theorem lookup_merged (distinct : DistinctKeys overlay) (found : overlay.lookup key = some v) :
    (mergeEntries entries overlay).lookup key = some (laidOver v (entries.lookup key)) := by
  rw [lookup_mergeEntries entries distinct, found, Option.elim_some]

theorem lookup_kept (distinct : DistinctKeys overlay) (absent : overlay.lookup key = none) :
    (mergeEntries entries overlay).lookup key = entries.lookup key := by
  rw [lookup_mergeEntries entries distinct, absent, Option.elim_none]

theorem at?_merge_of_plain (wellFormed : upper.WellFormed) (found : upper.at? path = some v)
    (plain : ¬ v.IsTable) : (merge base upper).at? path = some v := by
  induction path generalizing base upper with
  | nil =>
      cases found
      exact congrArg some (merge_plain base fun entries same => plain ⟨entries, same⟩)
  | cons key rest ih =>
      obtain ⟨overlay, rfl⟩ := isTable_of_at? found
      by_cases table : base.IsTable
      · obtain ⟨entries, rfl⟩ := table
        rw [at?_table] at found
        obtain ⟨w, here, further⟩ := Option.bind_eq_some_iff.mp found
        rw [merge_tables, at?_table, lookup_merged wellFormed.distinct here, Option.bind_some]
        cases entries.lookup key with
        | none => exact further
        | some below => exact ih (wellFormed.of_lookup here) further
      · rwa [merge_of_plain fun entries same => table ⟨entries, same⟩]

/-- The two values have tables at every proper prefix of a path that leads anywhere in the upper
one. -/
def Opens (base upper : Value) (path : List String) : Prop :=
  ∀ front, front <+: path → front ≠ path → ∀ v, upper.at? front = some v →
    v.IsTable ∧ ∃ below, base.at? front = some below ∧ below.IsTable

theorem Opens.tables {rest : List String} (opens : Opens base upper (key :: rest)) :
    upper.IsTable ∧ base.IsTable := by
  obtain ⟨table, below, same, table'⟩ := opens [] List.nil_prefix (List.cons_ne_nil key rest).symm
    upper (by rw [Value.at?])
  rw [Value.at?] at same
  cases same
  exact ⟨table, table'⟩

theorem Opens.behind {rest : List String} {below : Value}
    (opens : Opens (.table entries) (.table overlay) (key :: rest))
    (found : overlay.lookup key = some v) (lower : entries.lookup key = some below) :
    Opens below v rest := by
  intro front prior proper w here
  have step := opens (key :: front) (List.cons_prefix_cons.mpr ⟨rfl, prior⟩)
    (fun same => proper (List.cons.inj same).2) w
  rw [at?_table, at?_table, found, lower, Option.bind_some, Option.bind_some] at step
  exact step here

theorem Opens.lower {rest : List String}
    (opens : Opens (.table entries) (.table overlay) (key :: rest))
    (found : overlay.lookup key = some v) (absent : v.at? rest = none) :
    ∃ below, entries.lookup key = some below := by
  cases rest with
  | nil => cases absent
  | cons next rest =>
      have step := opens [key] (List.cons_prefix_cons.mpr ⟨rfl, List.nil_prefix⟩)
        (fun same => List.cons_ne_nil next rest (List.cons.inj same).2.symm) v
      rw [at?_table, at?_table, found, Option.bind_some] at step
      obtain ⟨-, below, here, -⟩ := step rfl
      obtain ⟨first, lower, -⟩ := Option.bind_eq_some_iff.mp here
      exact ⟨first, lower⟩

theorem at?_merge_of_absent (wellFormed : upper.WellFormed) (absent : upper.at? path = none)
    (opens : Opens base upper path) : (merge base upper).at? path = base.at? path := by
  induction path generalizing base upper with
  | nil => rw [Value.at?] at absent; cases absent
  | cons key rest ih =>
      obtain ⟨⟨overlay, rfl⟩, ⟨entries, rfl⟩⟩ := opens.tables
      rw [merge_tables, at?_table, at?_table]
      cases here : overlay.lookup key with
      | none => rw [lookup_kept wellFormed.distinct here]
      | some v =>
          rw [lookup_merged wellFormed.distinct here]
          rw [at?_table, here, Option.bind_some] at absent
          obtain ⟨below, lower⟩ := opens.lower here absent
          rw [lower]
          exact ih (wellFormed.of_lookup here) absent (opens.behind here lower)

end Paths

section Laws

variable {base : Value}

theorem merge_self (wellFormed : v.WellFormed) : merge v v = v := by
  induction wellFormed with
  | @table entries increasing each ih =>
      have wellFormed : (Value.table entries).WellFormed := .table increasing each
      have merged := wellFormed_merge wellFormed wellFormed
      rw [merge_tables] at merged ⊢
      refine table_congr merged wellFormed fun key => ?_
      cases here : entries.lookup key with
      | none => rw [lookup_kept increasing.distinct here, here]
      | some own =>
          rw [lookup_merged increasing.distinct here, here]
          exact congrArg some (ih _ (mem_of_lookup here))
  | _ => exact merge_plain _ (by intro entries same; cases same)

theorem mergeEntries_mergeEntries (wellFormed : (Value.table entries).WellFormed)
    (upper : (Value.table overlay).WellFormed)
    (each : ∀ e ∈ overlay, ∀ base : Value, base.WellFormed →
      merge (merge base e.2) e.2 = merge base e.2) :
    Value.table (mergeEntries (mergeEntries entries overlay) overlay) =
      .table (mergeEntries entries overlay) := by
  have once := wellFormed_merge wellFormed upper
  have twice := wellFormed_merge once upper
  rw [merge_tables] at once
  rw [merge_tables, merge_tables] at twice
  refine table_congr twice once fun key => ?_
  cases here : overlay.lookup key with
  | none => rw [lookup_kept upper.distinct here]
  | some own =>
      rw [lookup_merged upper.distinct here, lookup_merged upper.distinct here]
      cases lower : entries.lookup key with
      | none => exact congrArg some (merge_self (upper.of_lookup here))
      | some below =>
          exact congrArg some (each _ (mem_of_lookup here) below (wellFormed.of_lookup lower))

theorem merge_merge (wellFormed : base.WellFormed) (upper : v.WellFormed) :
    merge (merge base v) v = merge base v := by
  induction upper generalizing base with
  | @table overlay increasing each ih =>
      have upper : (Value.table overlay).WellFormed := .table increasing each
      by_cases table : base.IsTable
      · obtain ⟨entries, rfl⟩ := table
        rw [merge_tables, merge_tables]
        exact mergeEntries_mergeEntries wellFormed upper fun e member _ => ih e member
      · rw [merge_of_plain fun entries same => table ⟨entries, same⟩]
        exact merge_self upper
  | _ =>
      rw [merge_plain _ (by intro entries same; cases same),
        merge_plain _ (by intro entries same; cases same)]

theorem merge_nil (table : base.IsTable) : merge base (.table []) = base := by
  obtain ⟨entries, rfl⟩ := table
  rw [merge_tables, mergeEntries]

/-- Laying one value over another decides path by path. What the upper value has at a path, and is
no table, the merged value has there; where the upper value has nothing and no proper prefix of the
path leads to anything but tables, the lower value shows; two tables make a table with the keys of
both. Laying a value over itself, laying it over a second time and laying no entries over a table
change nothing. -/
theorem merge_by_path (base upper : Value) (wellFormed : base.WellFormed)
    (wellFormed' : upper.WellFormed) :
    (∀ path v, upper.at? path = some v → ¬ v.IsTable → (merge base upper).at? path = some v) ∧
    (∀ path, upper.at? path = none → Opens base upper path →
      (merge base upper).at? path = base.at? path) ∧
    (∀ entries overlay, base = .table entries → upper = .table overlay →
      ∃ merged, merge base upper = .table merged ∧
        ∀ key, key ∈ merged.map Prod.fst ↔
          key ∈ entries.map Prod.fst ∨ key ∈ overlay.map Prod.fst) ∧
    merge base base = base ∧
    merge (merge base upper) upper = merge base upper ∧
    (base.IsTable → merge base (.table []) = base) := by
  refine ⟨?_, ?_, ?_, merge_self wellFormed, merge_merge wellFormed wellFormed', merge_nil⟩
  · intro path v found plain
    exact at?_merge_of_plain wellFormed' found plain
  · intro path absent opens
    exact at?_merge_of_absent wellFormed' absent opens
  · rintro entries overlay rfl rfl
    exact ⟨_, merge_tables entries overlay, mem_keys_mergeEntries entries wellFormed'.distinct⟩

theorem merge_by_path_siblings :
    (merge (.table [("a", .table [("x", .integer 1), ("y", .integer 2)])])
      (.table [("a", .table [("y", .integer 3)]), ("b", .table [])])).at? ["a", "y"] =
        some (.integer 3) ∧
    (merge (.table [("a", .table [("x", .integer 1), ("y", .integer 2)])])
      (.table [("a", .table [("y", .integer 3)]), ("b", .table [])])).at? ["a", "x"] =
        some (.integer 1) := by
  have lower : (Value.table [("x", .integer 1), ("y", .integer 2)]).WellFormed :=
    .table (List.pairwise_pair.mpr (by decide)) (by simp [Value.WellFormed.integer])
  have upper : (Value.table [("y", .integer 3)]).WellFormed :=
    .table (List.pairwise_singleton _ _) (by simp [Value.WellFormed.integer])
  have base : (Value.table [("a", .table [("x", .integer 1), ("y", .integer 2)])]).WellFormed :=
    .table (List.pairwise_singleton _ _) (by simp [lower])
  have empty : (Value.table []).WellFormed := .table List.Pairwise.nil (by simp)
  have overlay : (Value.table [("a", .table [("y", .integer 3)]), ("b", .table [])]).WellFormed :=
    .table (List.pairwise_pair.mpr (by decide)) (by simp [upper, empty])
  obtain ⟨plain, absent, -⟩ := merge_by_path _ _ base overlay
  refine ⟨plain ["a", "y"] (.integer 3) rfl (by rintro ⟨entries, same⟩; cases same), ?_⟩
  refine absent ["a", "x"] rfl ?_
  intro front prior proper v found
  rcases List.prefix_cons_iff.mp prior with rfl | ⟨inner, rfl, behind⟩
  · cases found
    exact ⟨⟨_, rfl⟩, _, rfl, ⟨_, rfl⟩⟩
  · rcases List.prefix_cons_iff.mp behind with rfl | ⟨last, rfl, ending⟩
    · cases found
      exact ⟨⟨_, rfl⟩, _, rfl, ⟨_, rfl⟩⟩
    · exact absurd (by rw [List.prefix_nil.mp ending]) proper

end Laws

end ImageDigest.Toml
