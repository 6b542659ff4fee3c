import ImageDigest.Proofs.Toml.Value
import ImageDigest.Toml.Tree

/-! Documents while they are being read never get a key twice, so what they stand for in the end is
well formed. -/

namespace ImageDigest.Toml

namespace Node

/-- Every table has each of its keys once, and what is plain is a well-formed value. -/
inductive WellFormed : Node → Prop where
  | leaf {v : Value} (plain : v.WellFormed) : WellFormed (.leaf v)
  | array {items : List Node} (each : ∀ node ∈ items, WellFormed node) : WellFormed (.array items)
  | inline {entries : List (String × Node)} (distinct : DistinctKeys entries)
      (each : ∀ e ∈ entries, WellFormed e.2) : WellFormed (.inline entries)
  | table {origin : Origin} {entries : List (String × Node)} (distinct : DistinctKeys entries)
      (each : ∀ e ∈ entries, WellFormed e.2) : WellFormed (.table origin entries)
  | tables {items : List Node} (each : ∀ node ∈ items, WellFormed node) : WellFormed (.tables items)

def Keeps (f : Node → Option Node) : Prop :=
  ∀ node changed, node.WellFormed → f node = some changed → changed.WellFormed

section Entries

variable {entries : List (String × Node)} {key : String} {node : Node}

theorem wellFormed_empty (origin : Origin) : (Node.table origin []).WellFormed :=
  .table List.nodup_nil nofun

theorem mem_setEntry {e : String × Node} (member : e ∈ setEntry key node entries) :
    e = (key, node) ∨ e ∈ entries := by
  induction entries with
  | nil => exact .inl (List.mem_singleton.mp member)
  | cons head rest ih =>
      rw [setEntry] at member
      split at member
      case isTrue same =>
        rcases List.mem_cons.mp member with rfl | member
        · exact .inl (by rw [same])
        · exact .inr (List.mem_cons_of_mem head member)
      case isFalse =>
        rcases List.mem_cons.mp member with rfl | member
        · exact .inr List.mem_cons_self
        · exact (ih member).imp_right (List.mem_cons_of_mem head)

theorem distinct_setEntry (distinct : DistinctKeys entries) :
    DistinctKeys (setEntry key node entries) := by
  induction entries with
  | nil => exact List.nodup_singleton key
  | cons head rest ih =>
      obtain ⟨absent, behind⟩ := distinctKeys_cons.mp distinct
      rw [setEntry]
      split
      case isTrue => exact distinctKeys_cons.mpr ⟨absent, behind⟩
      case isFalse differ =>
        refine distinctKeys_cons.mpr ⟨?_, ih behind⟩
        intro present
        obtain ⟨e, member, same⟩ := List.mem_map.mp present
        rcases mem_setEntry member with rfl | member
        · exact differ same.symm
        · exact absent (List.mem_map.mpr ⟨e, member, same⟩)

theorem wellFormed_setEntry (origin : Origin) (wellFormed : node.WellFormed)
    (distinct : DistinctKeys entries) (each : ∀ e ∈ entries, e.2.WellFormed) :
    (Node.table origin (setEntry key node entries)).WellFormed := by
  refine .table (distinct_setEntry distinct) ?_
  intro e member
  rcases mem_setEntry member with rfl | member
  · exact wellFormed
  · exact each e member

theorem wellFormed_append (origin : Origin) (wellFormed : node.WellFormed)
    (absent : key ∉ entries.map Prod.fst) (distinct : DistinctKeys entries)
    (each : ∀ e ∈ entries, e.2.WellFormed) :
    (Node.table origin (entries ++ [(key, node)])).WellFormed := by
  constructor
  · rw [DistinctKeys, List.map_append]
    refine List.Nodup.append distinct (List.nodup_singleton key) ?_
    exact List.disjoint_singleton.mpr absent
  · intro e member
    rcases List.mem_append.mp member with member | member
    · exact each e member
    · rw [List.mem_singleton.mp member]
      exact wellFormed

end Entries

section Changes

variable {f : Node → Option Node}

theorem keeps_addValue (dotted : Bool) (key : String) {v : Node} (wellFormed : v.WellFormed) :
    Keeps (addValue dotted key v) := by
  intro node changed whole done
  cases whole with
  | table distinct each =>
      rw [addValue] at done
      split at done
      case isTrue free =>
        cases done
        have absent := lookup_eq_none_iff.mp (Option.isNone_iff_eq_none.mp free.2)
        exact wellFormed_append _ wellFormed absent distinct each
      case isFalse => cases done
  | _ => cases done

theorem keeps_openTable (key : String) : Keeps (openTable key) := by
  intro node changed whole done
  cases whole with
  | @table origin entries distinct each =>
      rw [openTable] at done
      split at done
      case h_1 absent =>
        cases done
        exact wellFormed_append _ (wellFormed_empty _) (lookup_eq_none_iff.mp absent) distinct each
      case h_2 es found =>
        cases done
        have inner := each _ (mem_of_lookup found)
        have kept (e : String × Node) (member : e ∈ entries.filter (·.1 ≠ key)) :
            e ∈ entries ∧ e.1 ≠ key :=
          ⟨List.mem_of_mem_filter member, of_decide_eq_true (List.mem_filter.mp member).2⟩
        have absent : key ∉ (entries.filter (·.1 ≠ key)).map Prod.fst := by
          intro present
          obtain ⟨e, member, same⟩ := List.mem_map.mp present
          exact (kept e member).2 same
        have others : DistinctKeys (entries.filter (·.1 ≠ key)) :=
          distinct.sublist (List.filter_sublist.map Prod.fst)
        refine wellFormed_append _ ?_ absent others fun e member => each e (kept e member).1
        cases inner with
        | table distinct' each' => exact .table distinct' each'
      case h_3 => cases done
  | _ => cases done

theorem keeps_openElement (key : String) : Keeps (openElement key) := by
  intro node changed whole done
  cases whole with
  | @table origin entries distinct each =>
      rw [openElement] at done
      split at done
      case h_1 absent =>
        cases done
        have element : (Node.tables [.table .header []]).WellFormed := by
          refine .tables ?_
          intro node member
          rw [List.mem_singleton.mp member]
          exact wellFormed_empty _
        exact wellFormed_append _ element (lookup_eq_none_iff.mp absent) distinct each
      case h_2 items found =>
        cases done
        have inner := each _ (mem_of_lookup found)
        refine wellFormed_setEntry _ ?_ distinct each
        cases inner with
        | tables elements =>
            refine .tables ?_
            exact List.forall_mem_cons.mpr ⟨wellFormed_empty _, elements⟩
      case h_3 => cases done
  | _ => cases done

theorem changeHead_keeps (keeps : Keeps f) {items changed : List Node}
    (each : ∀ node ∈ items, node.WellFormed) (done : changeHead f items = some changed) :
    ∀ node ∈ changed, node.WellFormed := by
  cases items with
  | nil => cases done
  | cons latest earlier =>
      obtain ⟨head, first, done⟩ := Option.bind_eq_some_iff.mp done
      cases done
      obtain ⟨wellFormed, behind⟩ := List.forall_mem_cons.mp each
      exact List.forall_mem_cons.mpr ⟨keeps latest head wellFormed first, behind⟩

theorem keeps_update (dotted : Bool) (keeps : Keeps f) (path : Path) :
    Keeps (update dotted f path) := by
  induction path with
  | nil =>
      intro node changed whole done
      rw [update] at done
      exact keeps node changed whole done
  | cons key rest ih =>
      intro node changed whole done
      cases whole with
      | @table origin entries distinct each =>
          have entered : ((entries.lookup key).getD
              (.table (if dotted then .dottedKey else .aboveHeader) [])).WellFormed := by
            cases found : entries.lookup key with
            | none => exact wellFormed_empty _
            | some node => exact each _ (mem_of_lookup found)
          have placed {inner : Node} (wellFormed : inner.WellFormed) :
              (Node.table origin (setEntry key inner entries)).WellFormed :=
            wellFormed_setEntry origin wellFormed distinct each
          rw [update] at done
          split at done
          case h_1 origin' es found =>
            rw [found] at entered
            split at done
            case isTrue => cases done
            case isFalse =>
              obtain ⟨inner, below, done⟩ := Option.bind_eq_some_iff.mp done
              cases done
              exact placed (ih _ inner entered below)
          case h_2 items found =>
            rw [found] at entered
            obtain ⟨inner, below, done⟩ := Option.bind_eq_some_iff.mp done
            cases done
            obtain ⟨later, further, rfl⟩ := Option.map_eq_some_iff.mp below
            cases entered with
            | tables elements => exact placed (.tables (changeHead_keeps ih elements further))
          case h_3 => cases done
      | _ => cases done

theorem keeps_assign (path : Path) {v : Node} (wellFormed : v.WellFormed) :
    Keeps (assign path v) := by
  intro node changed whole done
  obtain ⟨key, -, done⟩ := Option.bind_eq_some_iff.mp done
  exact keeps_update true (keeps_addValue _ key wellFormed) _ node changed whole done

theorem keeps_declare (element : Bool) (path : Path) : Keeps (declare element path) := by
  intro node changed whole done
  obtain ⟨key, -, done⟩ := Option.bind_eq_some_iff.mp done
  cases element with
  | true => exact keeps_update false (keeps_openElement key) _ node changed whole done
  | false => exact keeps_update false (keeps_openTable key) _ node changed whole done

end Changes

end Node

section Values

theorem mem_insertSorted {entry e : String × Value} {entries : Entries} :
    e ∈ insertSorted entry entries ↔ e = entry ∨ e ∈ entries := by
  induction entries with
  | nil => exact List.mem_cons
  | cons other rest ih =>
      rw [insertSorted]
      split
      case isTrue => rw [List.mem_cons, ih, List.mem_cons, or_left_comm]
      case isFalse => exact List.mem_cons

theorem increasing_insertSorted {entry : String × Value} {entries : Entries}
    (increasing : Increasing entries) (absent : entry.1 ∉ entries.map Prod.fst) :
    Increasing (insertSorted entry entries) := by
  induction entries with
  | nil => exact List.pairwise_singleton _ _
  | cons other rest ih =>
      obtain ⟨least, behind⟩ := List.pairwise_cons.mp increasing
      rw [List.map_cons, List.mem_cons, not_or] at absent
      rw [insertSorted]
      split
      case isTrue before =>
        refine List.pairwise_cons.mpr ⟨?_, ih behind absent.2⟩
        intro e member
        rcases mem_insertSorted.mp member with rfl | member
        · exact before
        · exact least e member
      case isFalse notBefore =>
        have first : entry.1 < other.1 := lt_of_le_of_ne (not_lt.mp notBefore) absent.1
        refine List.pairwise_cons.mpr ⟨?_, increasing⟩
        intro e member
        rcases List.mem_cons.mp member with rfl | member
        · exact first
        · exact first.trans (least e member)

variable {entries : List (String × Node)} {items : List Node}

theorem keys_toEntries? {values : Entries} (done : toEntries? entries = some values)
    (key : String) : key ∈ values.map Prod.fst ↔ key ∈ entries.map Prod.fst := by
  induction entries generalizing values with
  | nil =>
      rw [toEntries?] at done
      cases done
      exact Iff.rfl
  | cons head rest ih =>
      rcases head with ⟨k, node⟩
      rw [toEntries?] at done
      obtain ⟨v, -, done⟩ := Option.bind_eq_some_iff.mp done
      obtain ⟨later, behind, done⟩ := Option.bind_eq_some_iff.mp done
      cases done
      have found := ih behind
      simp only [List.mem_map, mem_insertSorted, List.map_cons, List.mem_cons] at found ⊢
      rw [← found]
      constructor
      · intro present
        obtain ⟨e, rfl | member, same⟩ := present
        · exact .inl same.symm
        · exact .inr ⟨e, member, same⟩
      · intro present
        rcases present with rfl | ⟨e, member, same⟩
        · exact ⟨(key, v), .inl rfl, rfl⟩
        · exact ⟨e, .inr member, same⟩

theorem wellFormed_toEntries? {values : Entries} (distinct : DistinctKeys entries)
    (each : ∀ e ∈ entries, ∀ v, e.2.toValue? = some v → v.WellFormed)
    (done : toEntries? entries = some values) : (Value.table values).WellFormed := by
  induction entries generalizing values with
  | nil =>
      rw [toEntries?] at done
      cases done
      exact .table List.Pairwise.nil nofun
  | cons head rest ih =>
      rcases head with ⟨key, node⟩
      obtain ⟨absent, behind⟩ := distinctKeys_cons.mp distinct
      obtain ⟨own, others⟩ := List.forall_mem_cons.mp each
      rw [toEntries?] at done
      obtain ⟨v, read, done⟩ := Option.bind_eq_some_iff.mp done
      obtain ⟨later, more, done⟩ := Option.bind_eq_some_iff.mp done
      cases done
      have fresh : key ∉ later.map Prod.fst := fun present =>
        absent ((keys_toEntries? more key).mp present)
      cases ih behind others more with
      | table increasing elements =>
          refine .table (increasing_insertSorted increasing fresh) ?_
          intro e member
          rcases mem_insertSorted.mp member with rfl | member
          · exact own v read
          · exact elements e member

theorem wellFormed_toItems? {values : List Value}
    (each : ∀ node ∈ items, ∀ v, node.toValue? = some v → v.WellFormed)
    (done : toItems? items = some values) : ∀ v ∈ values, v.WellFormed := by
  induction items generalizing values with
  | nil =>
      rw [toItems?] at done
      cases done
      exact nofun
  | cons node rest ih =>
      obtain ⟨own, others⟩ := List.forall_mem_cons.mp each
      rw [toItems?] at done
      obtain ⟨v, read, done⟩ := Option.bind_eq_some_iff.mp done
      obtain ⟨later, more, done⟩ := Option.bind_eq_some_iff.mp done
      cases done
      exact List.forall_mem_cons.mpr ⟨own v read, ih others more⟩

theorem wellFormed_dateOf? {v : Value} (done : dateOf? entries = some v) : v.WellFormed := by
  unfold dateOf? at done
  split at done
  case h_1 =>
    obtain ⟨d, -, rfl⟩ := Option.map_eq_some_iff.mp done
    exact .datetime d
  case h_2 => cases done

/-- A table stands for its entries, or for the date under the key that marks one. -/
theorem wellFormed_entries {v : Value} (distinct : DistinctKeys entries)
    (each : ∀ e ∈ entries, ∀ v, e.2.toValue? = some v → v.WellFormed)
    (done : (if beginsWithDate entries then dateOf? entries
      else (toEntries? entries).map .table) = some v) : v.WellFormed := by
  split at done
  case isTrue => exact wellFormed_dateOf? done
  case isFalse =>
    obtain ⟨values, more, rfl⟩ := Option.map_eq_some_iff.mp done
    exact wellFormed_toEntries? distinct each more

theorem wellFormed_toValue? {node : Node} {v : Value} (wellFormed : node.WellFormed)
    (done : node.toValue? = some v) : v.WellFormed := by
  induction wellFormed generalizing v with
  | leaf plain =>
      rw [Node.toValue?] at done
      cases done
      exact plain
  | array _ ih =>
      rw [Node.toValue?] at done
      obtain ⟨values, more, rfl⟩ := Option.map_eq_some_iff.mp done
      exact .array (wellFormed_toItems? (fun node member v => ih node member) more)
  | inline distinct _ ih =>
      rw [Node.toValue?] at done
      exact wellFormed_entries distinct (fun e member v => ih e member) done
  | table distinct _ ih =>
      rw [Node.toValue?] at done
      exact wellFormed_entries distinct (fun e member v => ih e member) done
  | tables _ ih =>
      rw [Node.toValue?] at done
      obtain ⟨values, more, rfl⟩ := Option.map_eq_some_iff.mp done
      refine .array ?_
      intro v member
      exact wellFormed_toItems? (fun node member v => ih node member) more v
        (List.mem_reverse.mp member)

end Values

end ImageDigest.Toml
