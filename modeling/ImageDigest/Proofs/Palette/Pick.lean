import ImageDigest.Palette.Pick
import Mathlib.Data.List.Induction

namespace ImageDigest.Palette

variable {α β : Type} [LT β] [DecidableLT β] {score : α → Option β}

theorem better_cases (score : α → Option β) (held : Option (α × β)) (item : α) :
    better score held item = held ∨ ∃ s, score item = some s ∧
      better score held item = some (item, s) := by
  unfold better
  cases scored : score item with
  | none => exact .inl rfl
  | some s =>
      cases held with
      | none => exact .inr ⟨s, rfl, rfl⟩
      | some best =>
          by_cases less : best.2 < s
          · exact .inr ⟨s, rfl, if_pos less⟩
          · exact .inl (if_neg less)

theorem foldl_better_mem (score : α → Option β) (items : List α) (held : Option (α × β))
    {best : α × β} (found : items.foldl (better score) held = some best) :
    held = some best ∨ best.1 ∈ items := by
  -- what is held changes with every item, so the induction is for any start
  induction items generalizing held with
  | nil => exact .inl found
  | cons item rest ih =>
      rcases ih (better score held item) found with kept | later
      · rcases better_cases score held item with same | ⟨s, -, taken⟩
        · exact .inl (same ▸ kept)
        · rw [taken] at kept
          cases kept
          exact .inr List.mem_cons_self
      · exact .inr (List.mem_cons_of_mem item later)

theorem firstBest_mem {items : List α} {best : α} (found : firstBest score items = some best) :
    best ∈ items := by
  rcases Option.map_eq_some_iff.mp found with ⟨pair, held, rfl⟩
  rcases foldl_better_mem score items none held with start | member
  · cases start
  · exact member

theorem better_isSome {held : Option (α × β)} (start : held.isSome = true) (item : α) :
    (better score held item).isSome = true := by
  rcases better_cases score held item with same | ⟨s, -, taken⟩
  · rwa [same]
  · rw [taken]
    rfl

theorem foldl_better_isSome {held : Option (α × β)} (start : held.isSome = true)
    (items : List α) : (items.foldl (better score) held).isSome = true := by
  induction items generalizing held with
  | nil => exact start
  | cons item rest ih => exact ih (better_isSome start item)

theorem firstBest_isSome (value : α → β) {items : List α} (present : items ≠ []) :
    (firstBest (fun item => some (value item)) items).isSome = true := by
  cases items with
  | nil => exact absurd rfl present
  | cons item rest =>
      rw [firstBest, Option.isSome_map]
      exact foldl_better_isSome rfl rest

section Equations

variable {item best : α} {s t : β}

theorem better_of_unscored (unscored : score item = none) (held : Option (α × β)) :
    better score held item = held := by
  simp only [better, unscored]

theorem better_of_nothing (scored : score item = some t) :
    better score none item = some (item, t) := by
  simp only [better, scored]

theorem better_of_held (scored : score item = some t) :
    better score (some (best, s)) item = if s < t then some (item, t) else some (best, s) := by
  simp only [better, scored]

end Equations

section Earliest

variable {items front back : List α} {best : α} {s : β}

theorem foldl_better_lt {held : Option (α × β)} (start : ∀ pair ∈ held, pair.2 < s)
    (less : ∀ a ∈ items, ∀ r, score a = some r → r < s) :
    ∀ pair ∈ items.foldl (better score) held, pair.2 < s := by
  induction items generalizing held with
  | nil => exact start
  | cons item rest ih =>
      refine ih (fun pair kept => ?_) fun a member => less a (List.mem_cons_of_mem item member)
      rcases better_cases score held item with same | ⟨r, scored, taken⟩
      · exact start pair (same ▸ kept)
      · rw [taken] at kept
        cases kept
        exact less item List.mem_cons_self r scored

theorem foldl_better_keeps (behind : ∀ a ∈ items, ∀ r, score a = some r → ¬ s < r) :
    items.foldl (better score) (some (best, s)) = some (best, s) := by
  induction items with
  | nil => rfl
  | cons item rest ih =>
      have kept : better score (some (best, s)) item = some (best, s) := by
        cases scored : score item with
        | none => exact better_of_unscored scored _
        | some r =>
            rw [better_of_held scored, if_neg (behind item List.mem_cons_self r scored)]
      rw [List.foldl_cons, kept]
      exact ih fun a member => behind a (List.mem_cons_of_mem item member)

theorem firstBest_append_cons (scored : score best = some s)
    (ahead : ∀ a ∈ front, ∀ r, score a = some r → r < s)
    (behind : ∀ a ∈ back, ∀ r, score a = some r → ¬ s < r) :
    firstBest score (front ++ best :: back) = some best := by
  have before : ∀ pair ∈ front.foldl (better score) none, pair.2 < s :=
    foldl_better_lt (by simp) ahead
  rw [firstBest, List.foldl_append, List.foldl_cons]
  generalize front.foldl (better score) none = held at before ⊢
  have taken : better score held best = some (best, s) := by
    cases held with
    | none => exact better_of_nothing scored
    | some pair => rw [better_of_held scored, if_pos (before pair rfl)]
  rw [taken, foldl_better_keeps behind]
  rfl

theorem foldl_better_unscored (unscored : ∀ a ∈ items, score a = none)
    (held : Option (α × β)) : items.foldl (better score) held = held := by
  induction items with
  | nil => rfl
  | cons item rest ih =>
      rw [List.foldl_cons, better_of_unscored (unscored item List.mem_cons_self)]
      exact ih fun a member => unscored a (List.mem_cons_of_mem item member)

theorem firstBest_eq_none (unscored : ∀ a ∈ items, score a = none) :
    firstBest score items = none := by
  rw [firstBest, foldl_better_unscored unscored, Option.map_none]

end Earliest

/-- What is held after some items: nothing if none of them has a score, and otherwise the first of
those with the largest score. -/
inductive Held (score : α → Option β) : List α → Option (α × β) → Prop where
  | nothing {items : List α} (unscored : ∀ a ∈ items, score a = none) : Held score items none
  | first {front back : List α} {best : α} {s : β} (scored : score best = some s)
      (ahead : ∀ a ∈ front, ∀ r, score a = some r → r < s)
      (behind : ∀ a ∈ back, ∀ r, score a = some r → ¬ s < r) :
      Held score (front ++ best :: back) (some (best, s))

namespace Held

variable {items : List α} {item best : α} {s t : β}

omit [DecidableLT β] in
theorem last (scored : score item = some t) (ahead : ∀ a ∈ items, ∀ r, score a = some r → r < t) :
    Held score (items ++ [item]) (some (item, t)) :=
  .first scored ahead fun _ member => absurd member List.not_mem_nil

omit [DecidableLT β] in
theorem append (held : Held score items (some (best, s)))
    (notGreater : ∀ r, score item = some r → ¬ s < r) :
    Held score (items ++ [item]) (some (best, s)) := by
  cases held with
  | first scored ahead behind =>
      rw [List.append_assoc, List.cons_append]
      refine .first scored ahead fun a member => ?_
      rcases List.mem_append.mp member with inside | same
      · exact behind a inside
      · rwa [List.mem_singleton.mp same]

end Held

section Order

variable {number : β → Prop} (asymm : ∀ r s : β, r < s → ¬ s < r)
  (chain : ∀ r s t, number r → number s → number t → ¬ s < r → s < t → r < t)
  {items : List α}

include asymm chain

omit [DecidableLT β] in
theorem Held.lt_of_lt {best : α} {s t : β} (held : Held score items (some (best, s)))
    (numbers : ∀ a ∈ items, ∀ r, score a = some r → number r) (last : number t) (less : s < t) :
    ∀ a ∈ items, ∀ r, score a = some r → r < t := by
  cases held with
  | first scored ahead behind =>
      have own := numbers best (by simp) s scored
      intro a member r found
      have value := numbers a member r found
      rcases List.mem_append.mp member with earlier | rest
      · exact chain r s t value own last (asymm r s (ahead a earlier r found)) less
      · rcases List.mem_cons.mp rest with rfl | later
        · rw [scored] at found
          cases found
          exact less
        · exact chain r s t value own last (behind a later r found) less

theorem Held.step {item : α} {held : Option (α × β)} (before : Held score items held)
    (numbers : ∀ a ∈ items ++ [item], ∀ r, score a = some r → number r) :
    Held score (items ++ [item]) (better score held item) := by
  have earlier (a : α) (member : a ∈ items) := numbers a (List.mem_append_left _ member)
  cases scored : score item with
  | none =>
      rw [better_of_unscored scored]
      cases held with
      | some best => exact before.append (by simp [scored])
      | none =>
          cases before with
          | nothing unscored =>
              refine .nothing fun a member => ?_
              rcases List.mem_append.mp member with inside | same
              · exact unscored a inside
              · rwa [List.mem_singleton.mp same]
  | some t =>
      have last := numbers item (by simp) t scored
      cases held with
      | none =>
          rw [better_of_nothing scored]
          cases before with
          | nothing unscored => exact .last scored fun a member => by simp [unscored a member]
      | some best =>
          rw [better_of_held scored]
          split
          case isTrue less =>
            exact .last scored (before.lt_of_lt asymm chain earlier last less)
          case isFalse notGreater =>
            refine before.append fun r found => ?_
            rw [scored] at found
            cases found
            exact notGreater

/-- Whatever the scan has seen, it holds the first of the largest scores. -/
theorem held_foldl (numbers : ∀ a ∈ items, ∀ r, score a = some r → number r) :
    Held score items (items.foldl (better score) none) := by
  induction items using List.reverseRecOn with
  | nil => exact .nothing (by simp)
  | append_singleton items item ih =>
      rw [List.foldl_append]
      refine Held.step asymm chain (ih fun a member => ?_) numbers
      exact numbers a (List.mem_append_left _ member)

theorem firstBest_cases
    (numbers : ∀ a ∈ items, ∀ r, score a = some r → number r) :
    (firstBest score items = none ∧ ∀ a ∈ items, score a = none) ∨
    ∃ front best back s, items = front ++ best :: back ∧ firstBest score items = some best ∧
      score best = some s ∧ (∀ a ∈ front, ∀ r, score a = some r → r < s) ∧
      ∀ a ∈ back, ∀ r, score a = some r → ¬ s < r := by
  have held := held_foldl asymm chain numbers
  rw [firstBest]
  generalize items.foldl (better score) none = held' at held ⊢
  cases held with
  | nothing unscored => exact .inl ⟨rfl, unscored⟩
  | first scored ahead behind => exact .inr ⟨_, _, _, _, rfl, rfl, scored, ahead, behind⟩

theorem firstBest_value_cases {value : α → β} (present : items ≠ [])
    (numbers : ∀ a ∈ items, number (value a)) :
    ∃ front best back, items = front ++ best :: back ∧
      firstBest (fun a => some (value a)) items = some best ∧
      (∀ a ∈ front, value a < value best) ∧ ∀ a ∈ back, ¬ value best < value a := by
  have scored (a : α) (member : a ∈ items) (r : β) (found : some (value a) = some r) : number r :=
    Option.some.inj found ▸ numbers a member
  rcases firstBest_cases asymm chain scored with
    ⟨-, unscored⟩ | ⟨front, best, back, s, split, picked, own, ahead, behind⟩
  · obtain ⟨a, member⟩ := List.exists_mem_of_ne_nil items present
    cases unscored a member
  · cases own
    exact ⟨front, best, back, split, picked, fun a member => ahead a member _ rfl,
      fun a member => behind a member _ rfl⟩

end Order

end ImageDigest.Palette
