import ImageDigest.CommandLine.Run
import ImageDigest.Proofs.Except
import ImageDigest.Proofs.Settings.Overlay
import ImageDigest.Proofs.Settings.Sound

/-! Whichever way settings are given, none reach an analysis that it cannot work with. -/

namespace ImageDigest.Settings

/-- The stock settings, and those of a document or of a value over them. -/
inductive Configured : Settings → Prop where
  | stock : Configured {}
  | document {text : String} {s : Settings} (read : parse text = .ok s) : Configured s
  | overlay {overlay : Toml.Value} {s : Settings} (read : overStock overlay = .ok s) : Configured s

variable {s s' : Settings}

section Validity

theorem isValid_stock : isValid {} = true := by decide +kernel

theorem Configured.isValid (given : Configured s) : s.isValid = true := by
  have checked {v : Toml.Value} (read : overStock v = .ok s) : s.isValid = true := by
    unfold overStock at read
    split at read
    case h_1 s' _ =>
      obtain ⟨rfl, valid⟩ := validate_ok_iff.mp read
      exact valid
    case h_2 => cases read
  cases given with
  | stock => exact isValid_stock
  | overlay read => exact checked read
  | document read =>
      unfold parse at read
      split at read
      case h_1 => exact checked read
      case h_2 => cases read

theorem isValid_with_fingerprint (valid : s.isValid = true) (f : FingerprintSettings) :
    isValid { s with fingerprint := f } = inUnit f.similarityThreshold := by
  have held := (isValid_iff s).mp valid
  rw [Bool.eq_iff_iff, isValid_iff]
  simp only [conditions, List.forall_mem_cons] at held ⊢
  grind

end Validity

section Overrides

variable {algorithm : Option Algorithm} {threshold : Option Float}

def overridden (s : Settings) (algorithm : Option Algorithm) (threshold : Option Float) :
    FingerprintSettings where
  algorithm := algorithm.getD s.fingerprint.algorithm
  similarityThreshold := threshold.getD s.fingerprint.similarityThreshold

theorem withOverrides_ok (done : s.withOverrides algorithm threshold = .ok s') :
    s' = { s with fingerprint := s.overridden algorithm threshold } ∧ s'.isValid = true := by
  obtain ⟨same, valid⟩ := validate_ok_iff.mp done
  exact ⟨same.symm, valid⟩

theorem withOverrides_fails_iff (s : Settings) :
    (∃ e, s.withOverrides algorithm threshold = .error e) ↔
      isValid { s with fingerprint := s.overridden algorithm threshold } = false := by
  rw [← Bool.not_eq_true]
  cases outcome : s.withOverrides algorithm threshold with
  | error e =>
      refine iff_of_true ⟨e, rfl⟩ fun valid => ?_
      cases outcome.symm.trans (validate_ok_iff.mpr ⟨rfl, valid⟩)
  | ok s' =>
      obtain ⟨rfl, valid⟩ := withOverrides_ok outcome
      exact iff_of_false nofun (not_not_intro valid)

theorem overridden_invalid_iff (valid : s.isValid = true) :
    isValid { s with fingerprint := s.overridden algorithm threshold } = false ↔
      ∃ t, threshold = some t ∧ OutsideUnit t := by
  rw [isValid_with_fingerprint valid]
  cases threshold with
  | some t =>
      rw [overridden, Option.getD_some, inUnit_eq_false_iff]
      simp only [Option.some.injEq, exists_eq_left']
  | none =>
      have within : inUnit s.fingerprint.similarityThreshold = true :=
        (isValid_with_fingerprint valid s.fingerprint).symm.trans valid
      rw [overridden, Option.getD_none, within]
      exact iff_of_false nofun nofun

theorem sound_of_settingsOf {files : CommandLine.Files} {options : CommandLine.Options}
    (done : CommandLine.settingsOf files options = .ok s) : Sound s := by
  unfold CommandLine.settingsOf at done
  split at done
  all_goals
    obtain ⟨loaded, -, done⟩ := bind_ok done
    exact sound_of_isValid (withOverrides_ok done).2

/-- Algorithm and threshold laid over given settings change nothing else, and what comes out is
sound. Nothing comes out exactly if a threshold is given that is no number from 0 to 1. So whatever
the files and the options are, a command runs on sound settings or not at all. -/
theorem overrides_sound :
    (∀ s, Configured s → ∀ algorithm threshold,
      (∀ s', s.withOverrides algorithm threshold = .ok s' →
        Sound s' ∧
        s' = { s with
          fingerprint :=
            { algorithm := algorithm.getD s.fingerprint.algorithm
              similarityThreshold := threshold.getD s.fingerprint.similarityThreshold } }) ∧
      ((∃ e, s.withOverrides algorithm threshold = .error e) ↔
        ∃ t, threshold = some t ∧ (t < 0 ∨ 1 < t ∨ t.isNaN = true))) ∧
    (∀ files options s, CommandLine.settingsOf files options = .ok s → Sound s) := by
  refine ⟨?_, fun files options s done => sound_of_settingsOf done⟩
  intro s given algorithm threshold
  constructor
  · intro s' done
    obtain ⟨same, valid⟩ := withOverrides_ok done
    exact ⟨sound_of_isValid valid, same⟩
  · rw [withOverrides_fails_iff]
    exact overridden_invalid_iff given.isValid

theorem overrides_sound_extremes :
    (∃ e, withOverrides {} none (some (0 / 0)) = .error e) ∧
    (∃ e, withOverrides { sharpness := { cap := 5 } } none (some (1 / 0)) = .error e) ∧
    Sound { sharpness := { cap := 5 }, fingerprint := { algorithm := .average } } := by
  have read : parse "quality.cap = 5" = .ok { sharpness := { cap := 5 } } := by decide +kernel
  have document : Configured { sharpness := { cap := 5 } } := .document read
  refine ⟨?_, ?_, ?_⟩
  · exact (overrides_sound.1 {} .stock none (some (0 / 0))).2.mpr ⟨_, rfl, by decide +kernel⟩
  · exact (overrides_sound.1 _ document none (some (1 / 0))).2.mpr ⟨_, rfl, by decide +kernel⟩
  · have done : withOverrides { sharpness := { cap := 5 } } (some .average) none =
        .ok { sharpness := { cap := 5 }, fingerprint := { algorithm := .average } } := by
      decide +kernel
    exact ((overrides_sound.1 _ document (some .average) none).1 _ done).1

end Overrides

end ImageDigest.Settings
