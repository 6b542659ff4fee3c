import ImageDigest.Fingerprint.Duplicate
import ImageDigest.Proofs.Except
import Mathlib.Data.List.Nodup

namespace ImageDigest.Fingerprint

/-- The members of a list at two positions, the earlier position first. -/
structure PairAt (hashes : List Fingerprint) (i j : Nat) (a b : Fingerprint) : Prop where
  order : i < j
  left : hashes[i]? = some a
  right : hashes[j]? = some b

def Fails (hashes : List Fingerprint) (i j : Nat) (e : FingerprintError) : Prop :=
  ∃ a b, PairAt hashes i j a b ∧ compare a b = .error e

/-- The error is that of the first pair that fails, in the order of the earlier members and then
of the later ones. -/
def FirstFailure (hashes : List Fingerprint) (e : FingerprintError) : Prop :=
  ∃ i j, Fails hashes i j e ∧
    ∀ i' j' e', Fails hashes i' j' e' → i < i' ∨ i = i' ∧ j ≤ j'

def Matching (threshold : Float) (hashes : List Fingerprint) (i j : Nat) : Prop :=
  ∃ a b result, PairAt hashes i j a b ∧ compare a b = .ok result ∧ threshold ≤ result.similarity

def Listed (groups : List DuplicateGroup) (i j : Nat) : Prop :=
  ∃ g ∈ groups, g.index = i ∧ j ∈ g.duplicates

def reportedPairs (groups : List DuplicateGroup) : List (Nat × Nat) :=
  groups.flatMap fun g => g.duplicates.map fun j => (g.index, j)

theorem mem_reportedPairs (groups : List DuplicateGroup) (i j : Nat) :
    (i, j) ∈ reportedPairs groups ↔ Listed groups i j := by
  simp only [reportedPairs, Listed, List.mem_flatMap, List.mem_map, Prod.mk.injEq]
  constructor
  · intro reported
    rcases reported with ⟨g, member, k, inside, rfl, rfl⟩
    exact ⟨g, member, rfl, inside⟩
  · intro listed
    rcases listed with ⟨g, member, rfl, inside⟩
    exact ⟨g, member, j, inside, rfl, rfl⟩

theorem reportedPairs_nodup {groups : List DuplicateGroup}
    (increasing : groups.Pairwise fun g g' => g.index < g'.index)
    (sorted : ∀ g ∈ groups, g.duplicates.Pairwise (· < ·)) : (reportedPairs groups).Nodup := by
  rw [reportedPairs, List.nodup_flatMap]
  constructor
  · intro g member
    have distinct : g.duplicates.Nodup := (sorted g member).imp Nat.ne_of_lt
    exact distinct.map fun j k same => congrArg Prod.snd same
  · apply increasing.imp
    intro g g' before pair left right
    rcases List.mem_map.mp left with ⟨j, -, rfl⟩
    rcases List.mem_map.mp right with ⟨k, -, same⟩
    have index : g'.index = g.index := congrArg Prod.fst same
    omega

section Positions

variable {a x b : Fingerprint} {rest : List Fingerprint} {i j : Nat}

theorem pairAt_zero (pair : PairAt (a :: rest) 0 j x b) :
    ∃ k, j = k + 1 ∧ x = a ∧ rest[k]? = some b := by
  rcases pair with ⟨order, left, right⟩
  cases j with
  | zero => cases order
  | succ k =>
      cases left
      exact ⟨k, rfl, rfl, right⟩

theorem pairAt_succ (pair : PairAt (a :: rest) (i + 1) j x b) :
    ∃ k, j = k + 1 ∧ PairAt rest i k x b := by
  rcases pair with ⟨order, left, right⟩
  cases j with
  | zero => cases order
  | succ k => exact ⟨k, rfl, Nat.lt_of_succ_lt_succ order, left, right⟩

theorem pairAt_head (found : rest[j]? = some b) : PairAt (a :: rest) 0 (j + 1) a b :=
  ⟨Nat.succ_pos j, rfl, found⟩

theorem pairAt_tail (pair : PairAt rest i j x b) : PairAt (a :: rest) (i + 1) (j + 1) x b :=
  ⟨Nat.succ_lt_succ pair.order, pair.left, pair.right⟩

end Positions

section Scan

variable {threshold : Float} {a b : Fingerprint} {first : Nat} {rest : List Fingerprint}

/-- The scan of the members behind `a`, the nearest of which stands at position `first`, has
compared all of them and kept the positions of those that match. -/
structure Scanned (threshold : Float) (a : Fingerprint) (first : Nat) (rest : List Fingerprint)
    (found : List Nat) : Prop where
  increasing : found.Pairwise (· < ·)
  inside : ∀ j ∈ found, first ≤ j ∧ j < first + rest.length
  compared : ∀ (k : Nat) (b : Fingerprint), rest[k]? = some b →
    ∃ result, compare a b = .ok result ∧ (first + k ∈ found ↔ threshold ≤ result.similarity)

theorem scanned_cons {result : Similarity} {later : List Nat} (compared : compare a b = .ok result)
    (scanned : Scanned threshold a (first + 1) rest later) :
    Scanned threshold a first (b :: rest)
      (if threshold ≤ result.similarity then first :: later else later) := by
  have behind : ∀ j ∈ later, first < j := fun j member => (scanned.inside j member).1
  have shift (k : Nat) : first + (k + 1) = first + 1 + k := by omega
  have absent : first ∉ later := fun member => Nat.lt_irrefl first (behind first member)
  constructor
  · split
    case isTrue => exact List.pairwise_cons.mpr ⟨behind, scanned.increasing⟩
    case isFalse => exact scanned.increasing
  · have ends : ∀ j ∈ later, first ≤ j ∧ j < first + (b :: rest).length := by
      intro j member
      have bounds := scanned.inside j member
      rw [List.length_cons]
      omega
    split
    case isTrue =>
      intro j member
      rcases List.mem_cons.mp member with rfl | member
      · rw [List.length_cons]
        omega
      · exact ends j member
    case isFalse => exact ends
  · intro k c found
    cases k with
    | zero =>
        cases found
        refine ⟨result, compared, ?_⟩
        split
        case isTrue reached => simp [reached]
        case isFalse missed => simp [missed, absent]
    | succ k =>
        rcases scanned.compared k c found with ⟨result', compared', listed⟩
        refine ⟨result', compared', ?_⟩
        rw [shift, ← listed]
        split
        case isTrue =>
          rw [List.mem_cons, or_iff_right]
          omega
        case isFalse => rfl

theorem matchesFrom_ok {found : List Nat} (done : matchesFrom threshold a first rest = .ok found) :
    Scanned threshold a first rest found := by
  induction rest generalizing first found with
  | nil =>
      cases done
      exact ⟨.nil, by simp, by simp⟩
  | cons b rest ih =>
      rcases bind_ok done with ⟨result, compared, done⟩
      rcases bind_ok done with ⟨later, behind, done⟩
      cases done
      exact scanned_cons compared (ih behind)

theorem matchesFrom_error {e : FingerprintError}
    (failed : matchesFrom threshold a first rest = .error e) :
    ∃ (k : Nat) (b : Fingerprint), rest[k]? = some b ∧ compare a b = .error e ∧
      ∀ k' < k, ∀ c, rest[k']? = some c → ∃ result, compare a c = .ok result := by
  induction rest generalizing first with
  | nil => cases failed
  | cons b rest ih =>
      rcases bind_error failed with failing | ⟨result, compared, failed⟩
      · exact ⟨0, b, rfl, failing, fun k' before => by omega⟩
      · rcases bind_error failed with failed | ⟨later, -, failed⟩
        · rcases ih failed with ⟨k, c, found, failing, before⟩
          refine ⟨k + 1, c, found, failing, ?_⟩
          intro k' earlier d found'
          cases k' with
          | zero =>
              cases found'
              exact ⟨result, compared⟩
          | succ k' => exact before k' (Nat.lt_of_succ_lt_succ earlier) d found'
        · cases failed

end Scan

section Groups

variable {threshold : Float} {a : Fingerprint} {first : Nat} {rest hashes : List Fingerprint}

/-- The groups of a list whose first member stands at position `first`: all pairs have been
compared, and those that match are listed, under the positions of their members. -/
structure Grouped (threshold : Float) (first : Nat) (hashes : List Fingerprint)
    (groups : List DuplicateGroup) : Prop where
  increasing : groups.Pairwise fun g g' => g.index < g'.index
  behind : ∀ g ∈ groups, first ≤ g.index
  nonempty : ∀ g ∈ groups, g.duplicates ≠ []
  sorted : ∀ g ∈ groups, g.duplicates.Pairwise (· < ·)
  later : ∀ g ∈ groups, ∀ j ∈ g.duplicates, g.index < j ∧ j < first + hashes.length
  compared : ∀ i j a b, PairAt hashes i j a b →
    ∃ result, compare a b = .ok result ∧
      (Listed groups (first + i) (first + j) ↔ threshold ≤ result.similarity)

def withGroup (index : Nat) (found : List Nat) (groups : List DuplicateGroup) :
    List DuplicateGroup :=
  if found.isEmpty then groups else ⟨index, found⟩ :: groups

theorem mem_withGroup {index : Nat} {found : List Nat} {groups : List DuplicateGroup}
    {g : DuplicateGroup} :
    g ∈ withGroup index found groups ↔ (found ≠ [] ∧ g = ⟨index, found⟩) ∨ g ∈ groups := by
  cases found <;> simp [withGroup]

theorem listed_withGroup {index : Nat} {found : List Nat} {groups : List DuplicateGroup}
    {i j : Nat} :
    Listed (withGroup index found groups) i j ↔
      (i = index ∧ j ∈ found) ∨ Listed groups i j := by
  constructor
  · intro listed
    rcases listed with ⟨g, member, rfl, inside⟩
    rcases mem_withGroup.mp member with ⟨-, rfl⟩ | member
    · exact .inl ⟨rfl, inside⟩
    · exact .inr ⟨g, member, rfl, inside⟩
  · intro either
    rcases either with ⟨rfl, inside⟩ | ⟨g, member, same, inside⟩
    · exact ⟨_, mem_withGroup.mpr (.inl ⟨List.ne_nil_of_mem inside, rfl⟩), rfl, inside⟩
    · exact ⟨g, mem_withGroup.mpr (.inr member), same, inside⟩

theorem grouped_cons {found : List Nat} {groups : List DuplicateGroup}
    (scanned : Scanned threshold a (first + 1) rest found)
    (grouped : Grouped threshold (first + 1) rest groups) :
    Grouped threshold first (a :: rest) (withGroup first found groups) := by
  have shift (k : Nat) : first + (k + 1) = first + 1 + k := by omega
  have unlisted (j : Nat) : ¬ Listed groups first j := by
    intro listed
    rcases listed with ⟨g, member, same, -⟩
    have bound := grouped.behind g member
    omega
  constructor
  case increasing =>
    unfold withGroup
    split
    case isTrue => exact grouped.increasing
    case isFalse => exact List.pairwise_cons.mpr ⟨grouped.behind, grouped.increasing⟩
  case behind =>
    intro g member
    rcases mem_withGroup.mp member with ⟨-, rfl⟩ | member
    · exact Nat.le_refl first
    · exact Nat.le_of_succ_le (grouped.behind g member)
  case nonempty =>
    intro g member
    rcases mem_withGroup.mp member with ⟨nonempty, rfl⟩ | member
    · exact nonempty
    · exact grouped.nonempty g member
  case sorted =>
    intro g member
    rcases mem_withGroup.mp member with ⟨-, rfl⟩ | member
    · exact scanned.increasing
    · exact grouped.sorted g member
  case later =>
    intro g member j inside
    rw [List.length_cons, shift]
    rcases mem_withGroup.mp member with ⟨-, rfl⟩ | member
    · exact scanned.inside j inside
    · exact grouped.later g member j inside
  case compared =>
    intro i j x b pair
    cases i with
    | zero =>
        rcases pairAt_zero pair with ⟨k, rfl, rfl, found⟩
        rcases scanned.compared k b found with ⟨result, compared, listed⟩
        refine ⟨result, compared, ?_⟩
        rw [← listed, listed_withGroup, shift]
        simp [unlisted]
    | succ i =>
        rcases pairAt_succ pair with ⟨k, rfl, tail⟩
        rcases grouped.compared i k x b tail with ⟨result, compared, listed⟩
        refine ⟨result, compared, ?_⟩
        rw [← listed, listed_withGroup, shift i, shift k, or_iff_right]
        intro head
        rcases head with ⟨same, -⟩
        omega

theorem groupsFrom_ok {groups : List DuplicateGroup}
    (done : groupsFrom threshold first hashes = .ok groups) :
    Grouped threshold first hashes groups := by
  induction hashes generalizing first groups with
  | nil =>
      cases done
      refine ⟨.nil, by simp, by simp, by simp, by simp, ?_⟩
      intro i j a b pair
      cases pair.left
  | cons a rest ih =>
      rcases bind_ok done with ⟨found, scanned, done⟩
      rcases bind_ok done with ⟨later, behind, done⟩
      cases done
      exact grouped_cons (matchesFrom_ok scanned) (ih behind)

theorem groupsFrom_error {e : FingerprintError}
    (failed : groupsFrom threshold first hashes = .error e) : FirstFailure hashes e := by
  induction hashes generalizing first with
  | nil => cases failed
  | cons a rest ih =>
      rcases bind_error failed with failed | ⟨found, scanned, failed⟩
      · rcases matchesFrom_error failed with ⟨k, b, found, failing, before⟩
        refine ⟨0, k + 1, ⟨a, b, pairAt_head found, failing⟩, ?_⟩
        intro i' j' e' fails
        rcases fails with ⟨x, c, pair, failing'⟩
        cases i' with
        | zero =>
            rcases pairAt_zero pair with ⟨k', rfl, rfl, found'⟩
            refine .inr ⟨rfl, Nat.succ_le_succ (Nat.le_of_not_lt fun earlier => ?_)⟩
            rcases before k' earlier c found' with ⟨result, compared⟩
            exact ok_error_absurd compared failing'
        | succ i' => exact .inl (Nat.succ_pos i')
      · rcases bind_error failed with failed | ⟨later, -, failed⟩
        · rcases ih failed with ⟨i, j, ⟨x, b, pair, failing⟩, least⟩
          refine ⟨i + 1, j + 1, ⟨x, b, pairAt_tail pair, failing⟩, ?_⟩
          intro i' j' e' fails
          rcases fails with ⟨y, c, pair', failing'⟩
          cases i' with
          | zero =>
              -- The scan behind the first member came to its end, so it met no failing pair.
              rcases pairAt_zero pair' with ⟨k', rfl, rfl, found'⟩
              rcases (matchesFrom_ok scanned).compared k' c found' with ⟨result, compared, -⟩
              exact (ok_error_absurd compared failing').elim
          | succ i' =>
              rcases pairAt_succ pair' with ⟨k', rfl, tail⟩
              have bound := least i' k' e' ⟨y, c, tail, failing'⟩
              omega
        · cases failed

end Groups

theorem duplicates_ok {threshold : Float} {hashes : List Fingerprint}
    {groups : List DuplicateGroup} (done : duplicates threshold hashes = .ok groups) :
    Grouped threshold 0 hashes groups :=
  groupsFrom_ok done

theorem duplicates_error {threshold : Float} {hashes : List Fingerprint} {e : FingerprintError}
    (failed : duplicates threshold hashes = .error e) : FirstFailure hashes e :=
  groupsFrom_error failed

theorem duplicates_total {threshold : Float} {hashes : List Fingerprint}
    (comparable : ∀ a ∈ hashes, ∀ b ∈ hashes, ∃ result, compare a b = .ok result) :
    ∃ groups, duplicates threshold hashes = .ok groups := by
  cases outcome : duplicates threshold hashes with
  | ok groups => exact ⟨groups, rfl⟩
  | error e =>
      rcases duplicates_error outcome with ⟨i, j, ⟨a, b, pair, failing⟩, -⟩
      have left : a ∈ hashes := List.mem_of_getElem? pair.left
      have right : b ∈ hashes := List.mem_of_getElem? pair.right
      rcases comparable a left b right with ⟨result, compared⟩
      exact (ok_error_absurd compared failing).elim

theorem duplicates_of_two {threshold : Float} {a b : Fingerprint} {result : Similarity}
    (compared : compare a b = .ok result) (reached : threshold ≤ result.similarity) :
    duplicates threshold [a, b] = .ok [⟨0, [1]⟩] := by
  have found : matchesFrom threshold a 1 [b] = .ok [1] := by
    rw [matchesFrom, compared, ok_bind, matchesFrom, ok_bind, if_pos reached]
    rfl
  rw [duplicates, groupsFrom, found]
  rfl

theorem positions_lt {threshold : Float} {hashes : List Fingerprint}
    {groups : List DuplicateGroup} (done : duplicates threshold hashes = .ok groups)
    {g : DuplicateGroup} (member : g ∈ groups) :
    g.index < hashes.length ∧ ∀ j ∈ g.duplicates, j < hashes.length := by
  have grouped := duplicates_ok done
  have bounds (j : Nat) (inside : j ∈ g.duplicates) : g.index < j ∧ j < hashes.length := by
    have later := grouped.later g member j inside
    omega
  rcases List.exists_mem_of_ne_nil _ (grouped.nonempty g member) with ⟨j, inside⟩
  exact ⟨Nat.lt_trans (bounds j inside).1 (bounds j inside).2, fun k listed => (bounds k listed).2⟩

theorem listed_iff {threshold : Float} {hashes : List Fingerprint} {groups : List DuplicateGroup}
    (grouped : Grouped threshold 0 hashes groups) (i j : Nat) :
    Listed groups i j ↔ Matching threshold hashes i j := by
  constructor
  · intro listed
    rcases listed with ⟨g, member, rfl, inside⟩
    rcases grouped.later g member j inside with ⟨order, bound⟩
    have right : j < hashes.length := by omega
    have left : g.index < hashes.length := Nat.lt_trans order right
    have pair : PairAt hashes g.index j hashes[g.index] hashes[j] :=
      ⟨order, List.getElem?_eq_getElem left, List.getElem?_eq_getElem right⟩
    rcases grouped.compared _ _ _ _ pair with ⟨result, compared, reached⟩
    rw [Nat.zero_add, Nat.zero_add] at reached
    exact ⟨_, _, result, pair, compared, reached.mp ⟨g, member, rfl, inside⟩⟩
  · intro matching
    rcases matching with ⟨a, b, result, pair, compared, reached⟩
    rcases grouped.compared i j a b pair with ⟨result', compared', listed⟩
    rw [compared] at compared'
    cases compared'
    rw [Nat.zero_add, Nat.zero_add] at listed
    exact listed.mpr reached

theorem not_fails {threshold : Float} {hashes : List Fingerprint} {groups : List DuplicateGroup}
    (grouped : Grouped threshold 0 hashes groups) {i j : Nat} {e : FingerprintError} :
    ¬ Fails hashes i j e := by
  intro fails
  rcases fails with ⟨a, b, pair, failing⟩
  rcases grouped.compared i j a b pair with ⟨result, compared, -⟩
  exact ok_error_absurd compared failing

theorem firstFailure_unique {hashes : List Fingerprint} {e e' : FingerprintError}
    (first : FirstFailure hashes e) (first' : FirstFailure hashes e') : e = e' := by
  rcases first with ⟨i, j, fails, least⟩
  rcases first' with ⟨i', j', fails', least'⟩
  have bound := least i' j' e' fails'
  have bound' := least' i j e fails
  obtain ⟨rfl, rfl⟩ : i = i' ∧ j = j' := by omega
  rcases fails with ⟨a, b, pair, failing⟩
  rcases fails' with ⟨a', b', pair', failing'⟩
  have left : a = a' := Option.some.inj (pair.left.symm.trans pair'.left)
  have right : b = b' := Option.some.inj (pair.right.symm.trans pair'.right)
  subst left right
  exact Except.error.inj (failing.symm.trans failing')

/-- A list fails exactly if one of its pairs does, with the error of the first such pair. Otherwise
the groups stand in increasing order, and list every matching pair once, under its earlier member,
and no other pair. -/
theorem duplicates_exact (threshold : Float) (hashes : List Fingerprint) :
    ((∃ e, duplicates threshold hashes = .error e) ↔ ∃ i j e, Fails hashes i j e) ∧
    (∀ e, duplicates threshold hashes = .error e ↔ FirstFailure hashes e) ∧
    (∀ groups, duplicates threshold hashes = .ok groups →
      (groups.Pairwise fun g g' => g.index < g'.index) ∧
      (∀ g ∈ groups, g.duplicates ≠ [] ∧ g.duplicates.Pairwise (· < ·) ∧
        ∀ j ∈ g.duplicates, g.index < j) ∧
      (∀ i j, Listed groups i j ↔ Matching threshold hashes i j) ∧
      (∀ i j, (i, j) ∈ reportedPairs groups ↔ Listed groups i j) ∧
      (reportedPairs groups).Nodup) := by
  have failing {i j : Nat} {e : FingerprintError} (fails : Fails hashes i j e) :
      ∃ e', duplicates threshold hashes = .error e' := by
    cases outcome : duplicates threshold hashes with
    | error e' => exact ⟨e', rfl⟩
    | ok groups => exact absurd fails (not_fails (duplicates_ok outcome))
  refine ⟨⟨?_, ?_⟩, fun e => ⟨duplicates_error, ?_⟩, ?_⟩
  · intro failure
    rcases failure with ⟨e, failed⟩
    rcases duplicates_error failed with ⟨i, j, fails, -⟩
    exact ⟨i, j, e, fails⟩
  · intro failure
    rcases failure with ⟨i, j, e, fails⟩
    exact failing fails
  · intro earliest
    have ⟨i, j, fails, _⟩ := earliest
    rcases failing fails with ⟨e', failed⟩
    rw [failed, firstFailure_unique earliest (duplicates_error failed)]
  · intro groups done
    have grouped := duplicates_ok done
    refine ⟨grouped.increasing, ?_, listed_iff grouped, mem_reportedPairs groups,
      reportedPairs_nodup grouped.increasing grouped.sorted⟩
    intro g member
    exact ⟨grouped.nonempty g member, grouped.sorted g member,
      fun j inside => (grouped.later g member j inside).1⟩

theorem duplicates_exact_three :
    duplicates 0.9
        [⟨"0f0f", .difference⟩, ⟨"0f0F", .difference⟩, ⟨"f0f0", .difference⟩] =
      .ok [⟨0, [1]⟩] ∧
    Matching 0.9 [⟨"0f0f", .difference⟩, ⟨"0f0F", .difference⟩, ⟨"f0f0", .difference⟩] 0 1 ∧
    ¬ Matching 0.9 [⟨"0f0f", .difference⟩, ⟨"0f0F", .difference⟩, ⟨"f0f0", .difference⟩] 0 2 ∧
    FirstFailure [⟨"0f", .average⟩, ⟨"f", .average⟩, ⟨"zz", .average⟩] (.lengthMismatch 2 1) := by
  have done : duplicates 0.9
      [⟨"0f0f", .difference⟩, ⟨"0f0F", .difference⟩, ⟨"f0f0", .difference⟩] =
        .ok [⟨0, [1]⟩] := by decide +kernel
  have failed : duplicates 0.9 [⟨"0f", .average⟩, ⟨"f", .average⟩, ⟨"zz", .average⟩] =
      .error (.lengthMismatch 2 1) := by decide +kernel
  have listed := ((duplicates_exact _ _).2.2 _ done).2.2.1
  refine ⟨done, (listed 0 1).mp ?_, fun matching => ?_, ((duplicates_exact _ _).2.1 _).mp failed⟩
  · exact ⟨_, List.mem_singleton_self _, rfl, List.mem_singleton_self 1⟩
  · rcases (listed 0 2).mpr matching with ⟨g, member, -, inside⟩
    rw [List.mem_singleton.mp member] at inside
    cases List.mem_singleton.mp inside

end ImageDigest.Fingerprint
