import ImageDigest.Proofs.Settings.Decode
import ImageDigest.Proofs.Toml.Document
import ImageDigest.Proofs.Toml.Merge
import ImageDigest.Settings.Load

/-! Settings read from a value laid over the stock settings are those read from the value alone. -/

namespace ImageDigest.Settings

open Toml

section Neutral

variable {α : Type} {decode : Value → Option α} {stock : α} {below : Value} {name : String}
  {base overlay : Entries}

/-- A lower value that reads as the stock, and makes no difference to what is read from a value
laid over it. -/
structure Neutral (decode : Value → Option α) (stock : α) (below : Value) : Prop where
  alone : decode below = some stock
  under : ∀ v : Value, v.WellFormed → decode (merge below v) = decode v

theorem neutral_of_plain (plain : ∀ entries, below ≠ .table entries)
    (alone : decode below = some stock) : Neutral decode stock below where
  alone := alone
  under := fun v _ => by rw [merge_of_plain plain]

theorem field?_mergeEntries (wellFormed : (Value.table overlay).WellFormed)
    (neutral : ∀ below, base.lookup name = some below → Neutral decode stock below) :
    field? (mergeEntries base overlay) name decode stock = field? overlay name decode stock := by
  have found := lookup_mergeEntries base wellFormed.distinct name
  cases upper : overlay.lookup name with
  | none =>
      rw [upper, Option.elim_none] at found
      rw [field?_of_lookup_none upper]
      cases lower : base.lookup name with
      | none => exact field?_of_lookup_none (found.trans lower)
      | some below => rw [field?_of_lookup_some (found.trans lower), (neutral below lower).alone]
  | some v =>
      rw [upper, Option.elim_some] at found
      rw [field?_of_lookup_some upper, field?_of_lookup_some found]
      cases lower : base.lookup name with
      | none => rfl
      | some below => exact (neutral below lower).under v (wellFormed.of_lookup upper)

end Neutral

section Sections

variable {α β : Type} {names : List String} {read : Entries → Option α} {stock : α}
  {base overlay : Entries}

theorem neutral_section (known : ∀ key ∈ base.map Prod.fst, key ∈ names)
    (alone : (sectionFields? names (.table base) >>= read) = some stock)
    (reads : ∀ overlay, (Value.table overlay).WellFormed →
      read (mergeEntries base overlay) = read overlay) :
    Neutral (fun v => sectionFields? names v >>= read) stock (.table base) where
  alone := alone
  under := by
    intro v wellFormed
    cases v with
    | table overlay =>
        have accepted : (∀ key ∈ (mergeEntries base overlay).map Prod.fst, key ∈ names) ↔
            ∀ key ∈ overlay.map Prod.fst, key ∈ names := by
          simp only [mem_keys_mergeEntries base wellFormed.distinct, or_imp, forall_and]
          exact and_iff_right known
        simp only [merge_tables, sectionFields?_table, accepted]
        split
        case isTrue => exact reads overlay wellFormed
        case isFalse => rfl
    | _ => rw [merge_plain _ (by intro entries same; cases same)]

theorem bind_field?_congr {name : String} {decode : Value → Option β} {given : β} {below : Value}
    {rest rest' : β → Option α} (wellFormed : (Value.table overlay).WellFormed)
    (found : base.lookup name = some below) (neutral : Neutral decode given below)
    (behind : ∀ b, rest b = rest' b) :
    (field? (mergeEntries base overlay) name decode given >>= rest) =
      (field? overlay name decode given >>= rest') := by
  have same : ∀ lower, base.lookup name = some lower → Neutral decode given lower := by
    intro lower found'
    rwa [← Option.some.inj (found.symm.trans found')]
  rw [field?_mergeEntries wellFormed same, funext behind]

end Sections

theorem neutral_palette : Neutral palette? {} (paletteValue {}) := by
  apply neutral_section
  case known => decide
  case alone => rfl
  case reads =>
    intro overlay wellFormed
    refine bind_field?_congr wellFormed rfl (neutral_of_plain nofun rfl) fun colorCount => ?_
    refine bind_field?_congr wellFormed rfl (neutral_of_plain nofun rfl) fun iterations => ?_
    refine bind_field?_congr wellFormed rfl (neutral_of_plain nofun rfl) fun sampleSize => ?_
    refine bind_field?_congr wellFormed rfl (neutral_of_plain nofun rfl) fun quantizer => ?_
    refine bind_field?_congr wellFormed rfl (neutral_of_plain nofun rfl) fun bucketStep => ?_
    exact bind_field?_congr wellFormed rfl (neutral_of_plain nofun rfl) fun threshold => rfl

theorem neutral_fingerprint : Neutral fingerprint? {} (fingerprintValue {}) := by
  apply neutral_section
  case known => decide
  case alone => rfl
  case reads =>
    intro overlay wellFormed
    refine bind_field?_congr wellFormed rfl (neutral_of_plain nofun rfl) fun algorithm => ?_
    exact bind_field?_congr wellFormed rfl (neutral_of_plain nofun rfl) fun threshold => rfl

theorem neutral_sharpness : Neutral sharpness? {} (sharpnessValue {}) := by
  apply neutral_section
  case known => decide
  case alone => rfl
  case reads =>
    intro overlay wellFormed
    refine bind_field?_congr wellFormed rfl (neutral_of_plain nofun rfl) fun divisor => ?_
    refine bind_field?_congr wellFormed rfl (neutral_of_plain nofun rfl) fun cap => ?_
    refine bind_field?_congr wellFormed rfl (neutral_of_plain nofun rfl) fun maxPixels => ?_
    exact bind_field?_congr wellFormed rfl (neutral_of_plain nofun rfl) fun oversize => rfl

/-- The stock section has no key for the limit, so there is nothing for it to keep. -/
theorem neutral_processing : Neutral processing? {} (processingValue {}) := by
  apply neutral_section
  case known => decide
  case alone => rfl
  case reads =>
    intro overlay wellFormed
    have absent : ∀ below, List.lookup "max_processes" ([] : Entries) = some below →
        Neutral (fun v => some <$> natural? v) none below := by
      intro below found
      cases found
    exact congrArg (· >>= _) (field?_mergeEntries wellFormed absent)

theorem neutral_stock : Neutral ofValue? {} stockValue := by
  apply neutral_section
  case known => decide
  case alone => rfl
  case reads =>
    intro overlay wellFormed
    refine bind_field?_congr wellFormed rfl neutral_palette fun palette => ?_
    refine bind_field?_congr wellFormed rfl neutral_fingerprint fun fingerprint => ?_
    refine bind_field?_congr wellFormed rfl neutral_sharpness fun sharpness => ?_
    exact bind_field?_congr wellFormed rfl neutral_processing fun processing => rfl

theorem validate_ok_iff {s s' : Settings} :
    s.validate = .ok s' ↔ s = s' ∧ s'.isValid = true := by
  rw [validate, isValid]
  cases fault : s.fault? with
  | none =>
      refine ⟨fun done => ?_, fun same => congrArg Except.ok same.1⟩
      cases done
      exact ⟨rfl, by rw [fault]; rfl⟩
  | some cause =>
      refine ⟨nofun, ?_⟩
      rintro ⟨rfl, valid⟩
      rw [fault] at valid
      cases valid

theorem parse_ok_iff {text : String} {overlay : Value} {s : Settings}
    (read : Toml.parse? text = some overlay) :
    parse text = .ok s ↔ ofValue? overlay = some s ∧ s.isValid = true := by
  have alone := neutral_stock.under overlay (wellFormed_parse? read)
  unfold parse overStock
  simp only [read, alone]
  cases ofValue? overlay with
  | none => simp only [reduceCtorEq, false_and]
  | some given => rw [Option.some_inj]; exact validate_ok_iff

/-- A value laid over the stock settings is read as the value alone is, with the same failures. If
its sections are tables, every field is what stands at its path, or the stock value. A document
gives settings exactly if its value alone does and they are valid. -/
theorem overlay_read_alone :
    (∀ overlay : Value, overlay.WellFormed →
      ofValue? (merge stockValue overlay) = ofValue? overlay) ∧
    (∀ (overlay : Value) (s : Settings), overlay.WellFormed → HasTableSections overlay →
      ofValue? (merge stockValue overlay) = some s → Follows overlay s) ∧
    (∀ (text : String) (overlay : Value), Toml.parse? text = some overlay →
      overlay.WellFormed ∧
        ∀ s, parse text = .ok s ↔ ofValue? overlay = some s ∧ s.isValid = true) := by
  refine ⟨neutral_stock.under, ?_, ?_⟩
  · intro overlay s wellFormed tables read
    rw [neutral_stock.under overlay wellFormed] at read
    exact follows_of_ofValue? tables read
  · intro text overlay read
    exact ⟨wellFormed_parse? read, fun s => parse_ok_iff read⟩

theorem overlay_read_alone_sparse :
    ofValue? (merge stockValue (.table
        [("palette", .table [("color_count", .integer 8)]), ("quality", .array [.integer 20])])) =
      some { palette := { colorCount := 8 }, sharpness := { divisor := Float.ofInt 20 } } ∧
    Follows (.table [("palette", .table [("color_count", .integer 8)])])
      { palette := { colorCount := 8 } } ∧
    ∃ overlay, Toml.parse? "[palette]\ncolor_count = 8" = some overlay ∧
      ofValue? overlay = some { palette := { colorCount := 8 } } := by
  obtain ⟨alone, follows, document⟩ := overlay_read_alone
  have palette : (Value.table [("color_count", .integer 8)]).WellFormed :=
    .table (List.pairwise_singleton _ _) (by simp [Value.WellFormed.integer])
  have quality : (Value.array [.integer 20]).WellFormed :=
    .array (by simp [Value.WellFormed.integer])
  refine ⟨?_, ?_, ?_⟩
  · rw [alone]
    · rfl
    · refine .table (List.pairwise_pair.mpr (by decide)) ?_
      simp [palette, quality]
  · refine follows _ _ (.table (List.pairwise_singleton _ _) (by simp [palette])) ⟨_, rfl, ?_⟩ rfl
    simp
  · have read : (Toml.parse? "[palette]\ncolor_count = 8").isSome = true := by decide +kernel
    have done : parse "[palette]\ncolor_count = 8" = .ok { palette := { colorCount := 8 } } := by
      decide +kernel
    obtain ⟨overlay, found⟩ := Option.isSome_iff_exists.mp read
    exact ⟨overlay, found, (((document _ overlay found).2 _).mp done).1⟩

end ImageDigest.Settings
