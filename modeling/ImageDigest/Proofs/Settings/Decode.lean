import ImageDigest.Proofs.Toml.Value
import ImageDigest.Settings.Decode

namespace ImageDigest.Settings

open Toml

section Fields

variable {α : Type} {decode : Value → Option α} {stock : α} {a : α} {fields entries : Entries}
  {name : String} {v : Value}

theorem field?_of_lookup_none {fields : Entries} (absent : fields.lookup name = none) :
    field? fields name decode stock = some stock := by
  rw [field?, absent]

theorem field?_of_lookup_some {fields : Entries} {v : Value} (found : fields.lookup name = some v) :
    field? fields name decode stock = decode v := by
  rw [field?, found]

theorem sectionFields?_table (names : List String) (entries : Entries) :
    sectionFields? names (.table entries) =
      if ∀ key ∈ entries.map Prod.fst, key ∈ names then some entries else none := by
  simp only [sectionFields?, List.all_eq_true, List.contains_iff_mem, List.forall_mem_map]

def IsNatural (v : Value) (n : Nat) : Prop := v = .integer n

def IsNumber (v : Value) (x : Float) : Prop :=
  v = .float x ∨ ∃ i : Int, v = .integer i ∧ x = Float.ofInt i

def IsLimit (v : Value) (limit : Option Nat) : Prop := ∃ n, IsNatural v n ∧ limit = some n

/-- The name of the choice, or a table with the name as its only key and nothing under it. -/
def IsChoice (name : α → String) (v : Value) (a : α) : Prop :=
  v = .string (name a) ∨ v = .table [(name a, .table [])] ∨ v = .table [(name a, .array [])]

/-- A field is what stands in its place, or the stock value if nothing stands there. -/
def FieldFrom (Reads : Value → α → Prop) (stock : α) (found : Option Value) (a : α) : Prop :=
  found.elim (a = stock) fun v => Reads v a

theorem isNatural_of_natural? {n : Nat} (done : natural? v = some n) : IsNatural v n := by
  cases v with
  | integer i =>
      rw [natural?] at done
      split at done
      case isTrue positive =>
        cases done
        exact congrArg Value.integer (Int.toNat_of_nonneg positive).symm
      case isFalse => cases done
  | _ => cases done

theorem isNatural_of_naturalUpTo? {most n : Nat} (done : naturalUpTo? most v = some n) :
    IsNatural v n :=
  isNatural_of_natural? (Option.filter_eq_some_iff.mp done).1

theorem isNumber_of_number? {x : Float} (done : number? v = some x) : IsNumber v x := by
  cases v with
  | float y =>
      cases done
      exact .inl rfl
  | integer i =>
      cases done
      exact .inr ⟨i, rfl, rfl⟩
  | _ => cases done

theorem isLimit_of_natural? {limit : Option Nat}
    (done : (some <$> natural? v : Option (Option Nat)) = some limit) : IsLimit v limit := by
  obtain ⟨n, read, same⟩ := Option.map_eq_some_iff.mp done
  exact ⟨n, isNatural_of_natural? read, same.symm⟩

theorem isChoice_of_choice? {name : α → String} {choices : List α}
    (done : choice? name choices v = some a) : IsChoice name v a := by
  have named {s : String} (found : (choices.find? fun c => decide (name c = s)) = some a) :
      s = name a := by
    have same := List.find?_some found
    exact (of_decide_eq_true same).symm
  unfold choice? at done
  split at done
  case h_1 s => exact .inl (congrArg Value.string (named done))
  case h_2 key content =>
    split at done
    case isTrue empty =>
      cases named done
      cases content with
      | table entries =>
          rw [isEmptyCollection, List.isEmpty_iff] at empty
          exact .inr (.inl (by rw [empty]))
      | array items =>
          rw [isEmptyCollection, List.isEmpty_iff] at empty
          exact .inr (.inr (by rw [empty]))
      | _ => cases empty
    case isFalse => cases done
  case h_3 => cases done

theorem fieldFrom_of_field? {Reads : Value → α → Prop}
    (reads : ∀ v a, decode v = some a → Reads v a)
    (done : field? fields name decode stock = some a) :
    FieldFrom Reads stock (fields.lookup name) a := by
  cases found : fields.lookup name with
  | none =>
      rw [field?_of_lookup_none found] at done
      exact (Option.some.inj done).symm
  | some v =>
      rw [field?_of_lookup_some found] at done
      exact reads v a done

end Fields

section Sections

variable {fields entries : Entries} {found : String → Option Value}

structure PaletteFrom (found : String → Option Value) (s : PaletteSettings) : Prop where
  colorCount : FieldFrom IsNatural 5 (found "color_count") s.colorCount
  iterations : FieldFrom IsNatural 10 (found "iterations") s.iterations
  sampleSize : FieldFrom IsNatural 100 (found "sample_size") s.sampleSize
  quantizer : FieldFrom (IsChoice Quantizer.name) .clusters (found "strategy") s.quantizer
  bucketStep : FieldFrom IsNatural 10 (found "bucket_step") s.bucketStep
  monochromaticThreshold :
    FieldFrom IsNumber 0.8 (found "monochromatic_threshold") s.monochromaticThreshold

structure FingerprintFrom (found : String → Option Value) (s : FingerprintSettings) : Prop where
  algorithm : FieldFrom (IsChoice Algorithm.name) .difference (found "algorithm") s.algorithm
  similarityThreshold :
    FieldFrom IsNumber 0.9 (found "similarity_threshold") s.similarityThreshold

structure SharpnessFrom (found : String → Option Value) (s : SharpnessSettings) : Prop where
  divisor : FieldFrom IsNumber 10 (found "divisor") s.divisor
  cap : FieldFrom IsNumber 100 (found "cap") s.cap
  maxPixels : FieldFrom IsNatural 40000000 (found "max_pixels") s.maxPixels
  oversize : FieldFrom (IsChoice Oversize.name) .downsample (found "oversize") s.oversize

structure ProcessingFrom (found : String → Option Value) (s : ProcessingSettings) : Prop where
  maxProcesses : FieldFrom IsLimit none (found "max_processes") s.maxProcesses

theorem fields_of_table {α : Type} {names : List String} {read : Entries → Option α} {a : α}
    (done : (sectionFields? names (.table fields) >>= read) = some a) : read fields = some a := by
  rw [sectionFields?_table] at done
  split at done
  case isTrue => exact done
  case isFalse => cases done

theorem paletteFrom_of_palette? {s : PaletteSettings} (done : palette? (.table fields) = some s) :
    PaletteFrom (fields.lookup ·) s := by
  have done := fields_of_table done
  obtain ⟨colorCount, first, done⟩ := Option.bind_eq_some_iff.mp done
  obtain ⟨iterations, second, done⟩ := Option.bind_eq_some_iff.mp done
  obtain ⟨sampleSize, third, done⟩ := Option.bind_eq_some_iff.mp done
  obtain ⟨quantizer, fourth, done⟩ := Option.bind_eq_some_iff.mp done
  obtain ⟨bucketStep, fifth, done⟩ := Option.bind_eq_some_iff.mp done
  obtain ⟨threshold, sixth, done⟩ := Option.bind_eq_some_iff.mp done
  cases done
  exact
    { colorCount := fieldFrom_of_field? (fun _ _ => isNatural_of_natural?) first
      iterations := fieldFrom_of_field? (fun _ _ => isNatural_of_natural?) second
      sampleSize := fieldFrom_of_field? (fun _ _ => isNatural_of_naturalUpTo?) third
      quantizer := fieldFrom_of_field? (fun _ _ => isChoice_of_choice?) fourth
      bucketStep := fieldFrom_of_field? (fun _ _ => isNatural_of_naturalUpTo?) fifth
      monochromaticThreshold := fieldFrom_of_field? (fun _ _ => isNumber_of_number?) sixth }

theorem fingerprintFrom_of_fingerprint? {s : FingerprintSettings}
    (done : fingerprint? (.table fields) = some s) : FingerprintFrom (fields.lookup ·) s := by
  have done := fields_of_table done
  obtain ⟨algorithm, first, done⟩ := Option.bind_eq_some_iff.mp done
  obtain ⟨threshold, second, done⟩ := Option.bind_eq_some_iff.mp done
  cases done
  exact
    { algorithm := fieldFrom_of_field? (fun _ _ => isChoice_of_choice?) first
      similarityThreshold := fieldFrom_of_field? (fun _ _ => isNumber_of_number?) second }

theorem sharpnessFrom_of_sharpness? {s : SharpnessSettings}
    (done : sharpness? (.table fields) = some s) : SharpnessFrom (fields.lookup ·) s := by
  have done := fields_of_table done
  obtain ⟨divisor, first, done⟩ := Option.bind_eq_some_iff.mp done
  obtain ⟨cap, second, done⟩ := Option.bind_eq_some_iff.mp done
  obtain ⟨maxPixels, third, done⟩ := Option.bind_eq_some_iff.mp done
  obtain ⟨oversize, fourth, done⟩ := Option.bind_eq_some_iff.mp done
  cases done
  exact
    { divisor := fieldFrom_of_field? (fun _ _ => isNumber_of_number?) first
      cap := fieldFrom_of_field? (fun _ _ => isNumber_of_number?) second
      maxPixels := fieldFrom_of_field? (fun _ _ => isNatural_of_natural?) third
      oversize := fieldFrom_of_field? (fun _ _ => isChoice_of_choice?) fourth }

theorem processingFrom_of_processing? {s : ProcessingSettings}
    (done : processing? (.table fields) = some s) : ProcessingFrom (fields.lookup ·) s := by
  have done := fields_of_table done
  obtain ⟨limit, first, done⟩ := Option.bind_eq_some_iff.mp done
  cases done
  exact ⟨fieldFrom_of_field? (fun _ _ => isLimit_of_natural?) first⟩

def HasTableSections (v : Value) : Prop :=
  ∃ entries, v = .table entries ∧ ∀ e ∈ entries, ∃ fields, e.2 = .table fields

/-- Every field is what stands at its path, or the stock value where the path leads nowhere. -/
structure Follows (v : Value) (s : Settings) : Prop where
  palette : PaletteFrom (fun name => v.at? ["palette", name]) s.palette
  fingerprint : FingerprintFrom (fun name => v.at? ["hashing", name]) s.fingerprint
  sharpness : SharpnessFrom (fun name => v.at? ["quality", name]) s.sharpness
  processing : ProcessingFrom (fun name => v.at? ["processing", name]) s.processing

theorem section_fields {α : Type} {decode : Value → Option α} {stock a : α} {name : String}
    (tables : ∀ e ∈ entries, ∃ fields, e.2 = .table fields)
    (done : field? entries name decode stock = some a) (empty : decode (.table []) = some stock) :
    ∃ fields, decode (.table fields) = some a ∧
      (fun key => (Value.table entries).at? [name, key]) = (fields.lookup ·) := by
  cases found : entries.lookup name with
  | none =>
      rw [field?_of_lookup_none found] at done
      refine ⟨[], empty.trans done, ?_⟩
      funext key
      rw [Value.at?, found]
      rfl
  | some v =>
      rw [field?_of_lookup_some found] at done
      obtain ⟨fields, same⟩ := tables _ (mem_of_lookup found)
      cases same
      refine ⟨fields, done, ?_⟩
      funext key
      rw [Value.at?, found, Option.bind_some, Value.at?]
      cases fields.lookup key <;> rfl

theorem follows_of_ofValue? {v : Value} {s : Settings} (tables : HasTableSections v)
    (done : ofValue? v = some s) : Follows v s := by
  obtain ⟨entries, rfl, tables⟩ := tables
  have done := fields_of_table done
  obtain ⟨palette, first, done⟩ := Option.bind_eq_some_iff.mp done
  obtain ⟨fingerprint, second, done⟩ := Option.bind_eq_some_iff.mp done
  obtain ⟨sharpness, third, done⟩ := Option.bind_eq_some_iff.mp done
  obtain ⟨processing, fourth, done⟩ := Option.bind_eq_some_iff.mp done
  cases done
  constructor
  case palette =>
    obtain ⟨fields, read, same⟩ := section_fields tables first rfl
    exact same ▸ paletteFrom_of_palette? read
  case fingerprint =>
    obtain ⟨fields, read, same⟩ := section_fields tables second rfl
    exact same ▸ fingerprintFrom_of_fingerprint? read
  case sharpness =>
    obtain ⟨fields, read, same⟩ := section_fields tables third rfl
    exact same ▸ sharpnessFrom_of_sharpness? read
  case processing =>
    obtain ⟨fields, read, same⟩ := section_fields tables fourth rfl
    exact same ▸ processingFrom_of_processing? read

end Sections

end ImageDigest.Settings
