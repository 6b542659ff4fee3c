import ImageDigest.Settings.Valid

namespace ImageDigest.Settings

variable {s : Settings}

theorem isValid_iff (s : Settings) : s.isValid = true ↔ ∀ c ∈ s.conditions, c.1 = true := by
  simp only [isValid, fault?, Option.isNone_iff_eq_none, Option.map_eq_none_iff,
    List.find?_eq_none, Bool.not_eq_true', Bool.not_eq_false]

theorem pos_of_condition (valid : s.isValid = true) {n : Nat} (fault : SettingsFault)
    (listed : (decide (n ≠ 0), fault) ∈ s.conditions) : 1 ≤ n := by
  have held := (isValid_iff s).mp valid _ listed
  exact Nat.pos_of_ne_zero (of_decide_eq_true held)

theorem colorCount_pos (valid : s.isValid = true) : 1 ≤ s.palette.colorCount := by
  apply pos_of_condition valid .colorCount
  simp only [conditions, List.mem_cons, true_or]

theorem iterations_pos (valid : s.isValid = true) : 1 ≤ s.palette.iterations := by
  apply pos_of_condition valid .iterations
  simp only [conditions, List.mem_cons, true_or, or_true]

theorem bucketStep_pos (valid : s.isValid = true) : 1 ≤ s.palette.bucketStep := by
  apply pos_of_condition valid .bucketStep
  simp only [conditions, List.mem_cons, true_or, or_true]

end ImageDigest.Settings
