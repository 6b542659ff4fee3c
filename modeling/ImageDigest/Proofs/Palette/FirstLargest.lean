import ImageDigest.Proofs.Number.FloatNumber
import ImageDigest.Proofs.Palette.Pick
import ImageDigest.Proofs.Saturation

/-! The scan behind the picked colors finds the first of the largest scores. What it finds does not
change with colors behind the others that score no more, or with colors in between that have no
score. -/

namespace ImageDigest.Palette

open Number

variable {score : Color → Option Float} {colors more : List Color} {c : Color} {s : Float}

/-- A color of the list with the largest score, and the first that has it. -/
def IsFirstLargest (score : Color → Option Float) (colors : List Color) (c : Color) : Prop :=
  ∃ front back s, colors = front ++ c :: back ∧ score c = some s ∧
    (∀ d ∈ colors, ∀ r, score d = some r → r ≤ s) ∧ ∀ d ∈ front, ∀ r, score d = some r → r < s

/-- Every score among the later colors is reached by a score among the first ones. -/
def NoneLarger (score : Color → Option Float) (colors more : List Color) : Prop :=
  ∀ d ∈ more, ∀ r, score d = some r → ∃ c ∈ colors, ∃ s, score c = some s ∧ r ≤ s

/-- The second list is the first one with colors put in that have no score. -/
inductive Padded (score : Color → Option Float) : List Color → List Color → Prop where
  | nil : Padded score [] []
  | keep (c : Color) {colors padded : List Color} (rest : Padded score colors padded) :
      Padded score (c :: colors) (c :: padded)
  | put {c : Color} (unscored : score c = none) {colors padded : List Color}
      (rest : Padded score colors padded) : Padded score colors (c :: padded)

def Numbers (score : Color → Option Float) : Prop := ∀ c s, score c = some s → s.isNaN = false

structure PicksFirstLargest (score : Color → Option Float) (pick : List Color → Option Color) :
    Prop where
  none_iff : ∀ colors, pick colors = none ↔ ∀ c ∈ colors, score c = none
  some_iff : ∀ colors c, pick colors = some c ↔ IsFirstLargest score colors c
  append : ∀ colors more, NoneLarger score colors more → pick (colors ++ more) = pick colors
  padded : ∀ colors padded, Padded score colors padded → pick padded = pick colors

section Scan

theorem Padded.foldl_better (padded : Padded score colors more) (held : Option (Color × Float)) :
    more.foldl (better score) held = colors.foldl (better score) held := by
  -- the scan goes on from whatever it holds, so the induction is for any start
  induction padded generalizing held with
  | nil => rfl
  | keep c rest ih => exact ih _
  | put unscored rest ih => rw [List.foldl_cons, better_of_unscored unscored, ih]

theorem Padded.firstBest (padded : Padded score colors more) :
    firstBest score more = firstBest score colors := by
  rw [Palette.firstBest, Palette.firstBest, padded.foldl_better]

theorem firstBest_split (numbers : Numbers score) (colors : List Color) :
    (firstBest score colors = none ∧ ∀ c ∈ colors, score c = none) ∨
    ∃ front c back s, colors = front ++ c :: back ∧ firstBest score colors = some c ∧
      score c = some s ∧ (∀ d ∈ front, ∀ r, score d = some r → r < s) ∧
      ∀ d ∈ back, ∀ r, score d = some r → ¬ s < r :=
  firstBest_cases (fun _ _ => not_lt_of_lt) (fun _ _ _ => lt_of_not_lt_of_lt)
    fun c _ s => numbers c s

theorem isFirstLargest_of_split (numbers : Numbers score) {front back : List Color}
    (scored : score c = some s) (ahead : ∀ d ∈ front, ∀ r, score d = some r → r < s)
    (behind : ∀ d ∈ back, ∀ r, score d = some r → ¬ s < r) :
    IsFirstLargest score (front ++ c :: back) c := by
  refine ⟨front, back, s, rfl, scored, ?_, ahead⟩
  intro d member r found
  refine le_of_not_lt (numbers d r found) (numbers c s scored) ?_
  rcases List.mem_append.mp member with earlier | rest
  · exact not_lt_of_lt (ahead d earlier r found)
  · rcases List.mem_cons.mp rest with rfl | later
    · rw [scored] at found
      cases found
      exact fun less => not_lt_of_lt less less
    · exact behind d later r found

theorem IsFirstLargest.firstBest (first : IsFirstLargest score colors c) :
    firstBest score colors = some c := by
  obtain ⟨front, back, s, rfl, scored, largest, ahead⟩ := first
  refine firstBest_append_cons scored ahead fun d later r found => ?_
  exact not_lt_of_le (largest d (by simp [later]) r found)

theorem firstBest_eq_some_iff (numbers : Numbers score) (colors : List Color) (c : Color) :
    firstBest score colors = some c ↔ IsFirstLargest score colors c := by
  refine ⟨fun picked => ?_, IsFirstLargest.firstBest⟩
  rcases firstBest_split numbers colors with
    ⟨nothing, -⟩ | ⟨front, best, back, s, rfl, found, scored, ahead, behind⟩
  · rw [nothing] at picked
    cases picked
  · rw [found] at picked
    cases picked
    exact isFirstLargest_of_split numbers scored ahead behind

theorem firstBest_eq_none_iff (numbers : Numbers score) (colors : List Color) :
    firstBest score colors = none ↔ ∀ c ∈ colors, score c = none := by
  refine ⟨fun nothing => ?_, firstBest_eq_none⟩
  rcases firstBest_split numbers colors with ⟨-, unscored⟩ | ⟨_, _, _, _, -, found, -⟩
  · exact unscored
  · rw [nothing] at found
    cases found

theorem firstBest_append (numbers : Numbers score) (noneLarger : NoneLarger score colors more) :
    firstBest score (colors ++ more) = firstBest score colors := by
  cases picked : firstBest score colors with
  | none =>
      have unscored := (firstBest_eq_none_iff numbers colors).mp picked
      refine firstBest_eq_none fun d member => ?_
      rcases List.mem_append.mp member with first | later
      · exact unscored d first
      · refine Option.eq_none_iff_forall_ne_some.mpr fun r found => ?_
        obtain ⟨c, member, s, scored, -⟩ := noneLarger d later r found
        rw [unscored c member] at scored
        cases scored
  | some best =>
      obtain ⟨front, back, s, rfl, scored, largest, ahead⟩ :=
        (firstBest_eq_some_iff numbers colors best).mp picked
      rw [List.append_assoc, List.cons_append]
      refine firstBest_append_cons scored ahead fun d member r found => ?_
      rcases List.mem_append.mp member with first | later
      · exact not_lt_of_le (largest d (by simp [first]) r found)
      · obtain ⟨c, member, t, reached, atMost⟩ := noneLarger d later r found
        intro less
        -- the largest score is below `r`, which is at most `t`, which is not above the largest
        have below := lt_of_not_lt_of_lt (numbers c t reached) (numbers best s scored)
          (numbers d r found) (not_lt_of_le (largest c member t reached)) less
        exact not_lt_of_le atMost below

theorem firstBest_picksFirstLargest (numbers : Numbers score) :
    PicksFirstLargest score (firstBest score) where
  none_iff := firstBest_eq_none_iff numbers
  some_iff := firstBest_eq_some_iff numbers
  append _ _ noneLarger := firstBest_append numbers noneLarger
  padded _ _ padded := padded.firstBest

end Scan

section Scores

theorem saturation_mul_not_isNaN {x : Float} (above : saturationLimit < c.rgb.saturation)
    (number : x.isNaN = false) : (c.rgb.saturation * x).isNaN = false := by
  rcases c.rgb.exactSaturation_nonneg.eq_or_lt with none | some
  · rw [Rgb.saturation_of_none none.symm] at above
    exact absurd above (by decide)
  · obtain ⟨v, denotes, -⟩ := Rgb.saturation_denotes some
    exact denotes.mul_not_isNaN number

theorem darkScore_numbers : Numbers darkScore := by
  intro c s scored
  obtain ⟨bounds, product⟩ := Option.ite_none_right_eq_some.mp scored
  simp only [Bool.and_eq_true, decide_eq_true_eq] at bounds
  cases product
  exact saturation_mul_not_isNaN bounds.2
    (sub_not_isNaN (by decide) (not_isNaN_of_lt bounds.1).1 (.inl (by decide)))

theorem lightScore_numbers : Numbers lightScore := by
  intro c s scored
  obtain ⟨bounds, product⟩ := Option.ite_none_right_eq_some.mp scored
  simp only [Bool.and_eq_true, decide_eq_true_eq] at bounds
  cases product
  exact saturation_mul_not_isNaN bounds.2
    (sub_not_isNaN (not_isNaN_of_lt bounds.1).2 (by decide) (.inr (by decide)))

theorem saturation_numbers : Numbers fun c => some c.rgb.saturation := by
  rintro c s ⟨⟩
  exact c.rgb.saturation_not_isNaN

end Scores

/-- A scan by scores that are numbers picks the first color with the largest one. The scores of the
dark and of the light color are numbers, and so is every saturation. -/
theorem scans_pick_first_largest :
    (∀ score : Color → Option Float, Numbers score →
      PicksFirstLargest score (firstBest score)) ∧
    PicksFirstLargest (fun c => some c.rgb.saturation) vibrant ∧
    PicksFirstLargest darkScore darkVibrant ∧
    PicksFirstLargest lightScore lightVibrant :=
  ⟨fun _ numbers => firstBest_picksFirstLargest numbers,
    firstBest_picksFirstLargest saturation_numbers, firstBest_picksFirstLargest darkScore_numbers,
    firstBest_picksFirstLargest lightScore_numbers⟩

def darkRed : Color := ⟨⟨128, 0, 0⟩, none⟩

def brown : Color := ⟨⟨100, 50, 50⟩, none⟩

def darkGray : Color := ⟨⟨20, 20, 20⟩, none⟩

theorem scans_pick_first_largest_red :
    (Numbers fun c => if c.rgb.blue = 0 then some c.rgb.saturation else none) ∧
    IsFirstLargest (fun c => if c.rgb.blue = 0 then some c.rgb.saturation else none)
      [brown, darkRed] darkRed ∧
    Padded darkScore [darkRed] [darkGray, darkRed, darkGray] ∧
    darkVibrant [darkGray, darkRed, darkGray] = darkVibrant [darkRed] ∧
    NoneLarger darkScore [darkRed] [brown] ∧
    darkVibrant ([darkRed] ++ [brown]) = darkVibrant [darkRed] := by
  have numbers : Numbers fun c => if c.rgb.blue = 0 then some c.rgb.saturation else none := by
    intro c s scored
    obtain ⟨-, saturation⟩ := Option.ite_none_right_eq_some.mp scored
    exact saturation_numbers c s saturation
  have among : Padded darkScore [darkRed] [darkGray, darkRed, darkGray] :=
    .put rfl (.keep darkRed (.put rfl .nil))
  have behind : NoneLarger darkScore [darkRed] [brown] := by
    intro c member r scored
    rw [List.mem_singleton.mp member] at scored
    cases scored
    exact ⟨darkRed, List.mem_cons_self, _, rfl, by decide⟩
  obtain ⟨scan, -, dark, -⟩ := scans_pick_first_largest
  exact ⟨numbers, ((scan _ numbers).some_iff _ _).mp rfl, among, dark.padded _ _ among, behind,
    dark.append _ _ behind⟩

end ImageDigest.Palette
