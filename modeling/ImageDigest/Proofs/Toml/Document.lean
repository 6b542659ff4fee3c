import ImageDigest.Proofs.Toml.Reader
import ImageDigest.Proofs.Toml.Tree
import ImageDigest.Toml.Document

namespace ImageDigest.Toml

open Reader

theorem ensures_plainValue : Ensures plainValue Node.WellFormed := by
  have scalar {α : Type} (r : Reader α) {f : α → Value} (plain : ∀ a, (f a).WellFormed) :
      Ensures (f <$> r) Value.WellFormed := (ensures_true r).map fun a _ => plain a
  have read : Ensures (.string <$> quotedText <|> .boolean <$> boolean <|> .datetime <$> datetime
      <|> .float <$> float <|> .integer <$> integer) Value.WellFormed := by
    refine (scalar _ .string).orElse ?_
    refine (scalar _ .boolean).orElse ?_
    refine (scalar _ .datetime).orElse ?_
    exact (scalar _ .float).orElse (scalar _ .integer)
  exact read.map fun v plain => .leaf plain

theorem foldlM_keeps {α β : Type} {f : β → α → Option β} {members : List α}
    {start final : β} (Kept : β → Prop)
    (step : ∀ b a changed, a ∈ members → Kept b → f b a = some changed → Kept changed)
    (kept : Kept start) (done : members.foldlM f start = some final) : Kept final := by
  induction members generalizing start with
  | nil =>
      cases done
      exact kept
  | cons a rest ih =>
      rw [List.foldlM_cons] at done
      obtain ⟨changed, first, done⟩ := Option.bind_eq_some_iff.mp done
      refine ih ?_ (step start a changed List.mem_cons_self kept first) done
      exact fun b a' changed member => step b a' changed (List.mem_cons_of_mem a member)

section Collections

variable {item : Reader Node}

theorem ensures_arrayOf (each : Ensures item Node.WellFormed) :
    Ensures (arrayOf item) Node.WellFormed := by
  have padded : Ensures (do gap; let v ← item; gap; return v) Node.WellFormed :=
    .after _ fun _ => each.bind fun v wellFormed => .after _ fun _ => ensures_pure wellFormed
  have listed : Ensures (do
      let items ← separated (do gap; let v ← item; gap; return v) (skip ',')
      let _ ← option? (skip ',')
      return items) fun items => ∀ v ∈ items, v.WellFormed :=
    (ensures_separated padded _).bind fun items each => .after _ fun _ => ensures_pure each
  refine .after _ fun _ => (ensures_option? listed).bind fun items each => ?_
  refine .after _ fun _ => .after _ fun _ => ensures_pure (.array ?_)
  cases items with
  | none => exact nofun
  | some items => exact each items rfl

theorem ensures_pairOf (each : Ensures item Node.WellFormed) :
    Ensures (pairOf item) fun pair => pair.2.WellFormed := by
  refine .after _ fun path => .after _ fun _ => .after _ fun _ => ?_
  exact each.bind fun v wellFormed => .after _ fun _ => ensures_pure wellFormed

theorem wellFormed_inlineTable? {pairs : List (Path × Node)} {node : Node}
    (each : ∀ pair ∈ pairs, pair.2.WellFormed) (done : inlineTable? pairs = some node) :
    node.WellFormed := by
  obtain ⟨whole, folded, done⟩ := Option.bind_eq_some_iff.mp done
  have kept : whole.WellFormed := by
    refine foldlM_keeps Node.WellFormed ?_ (Node.wellFormed_empty .header) folded
    intro node pair changed member wellFormed step
    exact Node.keeps_assign pair.1 (each pair member) node changed wellFormed step
  cases kept with
  | table distinct each =>
      cases done
      exact .inline distinct each
  | _ => cases done

theorem ensures_inlineTableOf (each : Ensures item Node.WellFormed) :
    Ensures (inlineTableOf item) Node.WellFormed := by
  have pairs := ensures_option? (ensures_separated (ensures_pairOf each) (skip ','))
  refine .after _ fun _ => pairs.bind fun pairs each => .after _ fun _ => .after _ fun _ => ?_
  cases made : inlineTable? (pairs.getD []) with
  | none => exact ensures_failure
  | some node =>
      refine ensures_pure (wellFormed_inlineTable? ?_ made)
      cases pairs with
      | none => exact nofun
      | some pairs => exact each pairs rfl

end Collections

theorem ensures_value (depth : Nat) : Ensures (value depth) Node.WellFormed := by
  induction depth with
  | zero => exact ensures_plainValue
  | succ depth ih =>
      exact (ensures_arrayOf ih).orElse ((ensures_inlineTableOf ih).orElse ensures_plainValue)

section Lines

def Line.WellFormed : Line → Prop
  | .declare _ _ => True
  | .assign _ v => v.WellFormed

theorem ensures_assignment : Ensures assignment Line.WellFormed :=
  (ensures_pairOf (ensures_value depthLimit)).bind fun _ wellFormed => ensures_pure wellFormed

theorem ensures_header : Ensures header Line.WellFormed := by
  apply Ensures.orElse
  · exact .after _ fun _ => .after _ fun _ => .after _ fun _ => ensures_pure trivial
  · exact .after _ fun _ => .after _ fun _ => .after _ fun _ => ensures_pure trivial

theorem ensures_linesFrom (fuel : Nat) :
    Ensures (linesFrom fuel) fun lines => ∀ line ∈ lines, line.WellFormed := by
  induction fuel with
  | zero => exact ensures_failure
  | succ fuel ih =>
      have first := ensures_option? (ensures_header.orElse ensures_assignment)
      refine .after _ fun _ => first.bind fun line each => .after _ fun _ => .after _ fun _ => ?_
      have own : ∀ l ∈ line.toList, l.WellFormed := by
        intro l member
        exact each l (Option.mem_toList.mp member)
      refine .after _ fun final => ?_
      cases final with
      | true => exact ensures_pure own
      | false =>
          refine .after _ fun _ => ih.bind fun later behind => ensures_pure ?_
          exact List.forall_mem_append.mpr ⟨own, behind⟩

theorem wellFormed_lines? {text : List Char} {lines : List Line} (done : lines? text = some lines) :
    ∀ line ∈ lines, line.WellFormed := by
  obtain ⟨⟨read, rest⟩, found, rfl⟩ := Option.map_eq_some_iff.mp done
  exact ensures_linesFrom _ _ read rest found

theorem wellFormed_add {draft changed : Draft} {line : Line} (wellFormed : line.WellFormed)
    (kept : draft.root.WellFormed) (done : draft.add line = some changed) :
    changed.root.WellFormed := by
  cases line with
  | declare element path =>
      obtain ⟨root, declared, same⟩ := Option.bind_eq_some_iff.mp done
      cases same
      exact Node.keeps_declare element path _ root kept declared
  | assign path v =>
      obtain ⟨root, assigned, same⟩ := Option.bind_eq_some_iff.mp done
      cases same
      exact Node.keeps_update false (Node.keeps_assign path wellFormed) _ _ root kept assigned

theorem wellFormed_parse? {text : String} {v : Value} (done : parse? text = some v) :
    v.WellFormed := by
  obtain ⟨lines, read, done⟩ := Option.bind_eq_some_iff.mp done
  obtain ⟨draft, added, done⟩ := Option.bind_eq_some_iff.mp done
  have kept : draft.root.WellFormed := by
    refine foldlM_keeps (fun draft => draft.root.WellFormed) ?_ ?_ added
    · intro draft line changed member
      exact wellFormed_add (wellFormed_lines? read line member)
    · exact Node.wellFormed_empty .header
  exact wellFormed_toValue? kept done

end Lines

end ImageDigest.Toml
