import ImageDigest.Proofs.Fingerprint.Duplicate
import ImageDigest.Proofs.Fingerprint.Metric
import Mathlib.Data.Sym.Sym2

/-! Which fingerprints are duplicates of each other depends neither on their order nor on those
that follow. -/

namespace ImageDigest.Fingerprint

variable {threshold : Float} {algorithm : Algorithm} {length : ℕ} {a b : Fingerprint}
  {hashes hashes' more : List Fingerprint} {groups groups' : List DuplicateGroup}

/-- A fingerprint by the algorithm, in digits of the length. -/
structure OfKind (algorithm : Algorithm) (length : ℕ) (h : Fingerprint) : Prop where
  algorithm_eq : h.algorithm = algorithm
  shape : IsHex h.digits
  length_eq : h.digits.length = length

theorem compare_ofKind (nonempty : 0 < length) (left : OfKind algorithm length a)
    (right : OfKind algorithm length b) : ∃ result, compare a b = .ok result := by
  have present : a.digits ≠ "" := by
    intro empty
    have count := left.length_eq
    rw [empty, String.length_empty] at count
    exact Nat.ne_of_lt nonempty count
  rw [compare, if_pos (left.algorithm_eq.trans right.algorithm_eq.symm), compareDigits_ok_iff]
  refine ⟨?_, present, left.shape, right.shape⟩
  rw [utf8ByteSize_digits _ left.shape, utf8ByteSize_digits _ right.shape, left.length_eq,
    right.length_eq]

theorem duplicates_ofKind (threshold : Float) (nonempty : 0 < length)
    (kind : ∀ h ∈ hashes, OfKind algorithm length h) :
    ∃ groups, duplicates threshold hashes = .ok groups :=
  duplicates_total fun a left b right => compare_ofKind nonempty (kind a left) (kind b right)

theorem compare_comm {result : Similarity} (done : compare a b = .ok result) :
    compare b a = .ok result := by
  unfold compare at done ⊢
  split at done
  case isTrue same =>
    rw [if_pos same.symm]
    exact compareDigits_comm done
  case isFalse => cases done

/-- Similar enough, in one order of the two and so in the other. -/
def Matched (threshold : Float) (a b : Fingerprint) : Prop :=
  ∃ result, compare a b = .ok result ∧ threshold ≤ result.similarity

theorem Matched.symm (matched : Matched threshold a b) : Matched threshold b a := by
  rcases matched with ⟨result, compared, reached⟩
  exact ⟨result, compare_comm compared, reached⟩

section Pairs

/-- The pairs among `n` positions that groups report, without an order. -/
def unorderedPairs (n : ℕ) (groups : List DuplicateGroup) : Set (Sym2 (Fin n)) :=
  {pair | ∃ i j : Fin n, Listed groups i j ∧ pair = s(i, j)}

theorem listed_iff_matched (grouped : Grouped threshold 0 hashes groups)
    (i j : Fin hashes.length) :
    Listed groups i j ↔ i < j ∧ Matched threshold (hashes.get i) (hashes.get j) := by
  rw [listed_iff grouped]
  constructor
  · intro matching
    rcases matching with ⟨a, b, result, ⟨order, left, right⟩, compared, reached⟩
    rw [List.getElem?_eq_getElem i.isLt] at left
    rw [List.getElem?_eq_getElem j.isLt] at right
    cases left
    cases right
    exact ⟨order, result, compared, reached⟩
  · intro both
    rcases both with ⟨order, result, compared, reached⟩
    have pair : PairAt hashes i j (hashes.get i) (hashes.get j) :=
      ⟨order, List.getElem?_eq_getElem i.isLt, List.getElem?_eq_getElem j.isLt⟩
    exact ⟨_, _, result, pair, compared, reached⟩

theorem mem_unorderedPairs (grouped : Grouped threshold 0 hashes groups)
    (i j : Fin hashes.length) :
    s(i, j) ∈ unorderedPairs hashes.length groups ↔
      i ≠ j ∧ Matched threshold (hashes.get i) (hashes.get j) := by
  constructor
  · intro reported
    rcases reported with ⟨k, l, listed, same⟩
    rcases (listed_iff_matched grouped k l).mp listed with ⟨order, matched⟩
    rcases Sym2.eq_iff.mp same with ⟨rfl, rfl⟩ | ⟨rfl, rfl⟩
    · exact ⟨Fin.ne_of_lt order, matched⟩
    · exact ⟨(Fin.ne_of_lt order).symm, matched.symm⟩
  · intro both
    rcases both with ⟨different, matched⟩
    rcases Fin.lt_or_lt_of_ne different with order | order
    · exact ⟨i, j, (listed_iff_matched grouped i j).mpr ⟨order, matched⟩, rfl⟩
    · exact ⟨j, i, (listed_iff_matched grouped j i).mpr ⟨order, matched.symm⟩, Sym2.eq_swap⟩

theorem unorderedPairs_rearranged (p : Fin hashes.length ≃ Fin hashes'.length)
    (moved : ∀ i, hashes'.get (p i) = hashes.get i) (grouped : Grouped threshold 0 hashes groups)
    (grouped' : Grouped threshold 0 hashes' groups') :
    unorderedPairs hashes'.length groups' =
      Sym2.map p '' unorderedPairs hashes.length groups := by
  have along (i j : Fin hashes.length) :
      s(p i, p j) ∈ unorderedPairs hashes'.length groups' ↔
        s(i, j) ∈ unorderedPairs hashes.length groups := by
    rw [mem_unorderedPairs grouped', mem_unorderedPairs grouped, moved, moved, p.injective.ne_iff]
  ext pair
  constructor
  · intro reported
    induction pair using Sym2.ind with
    | _ k l =>
        obtain ⟨i, rfl⟩ := p.surjective k
        obtain ⟨j, rfl⟩ := p.surjective l
        exact ⟨s(i, j), (along i j).mp reported, rfl⟩
  · rintro ⟨pair, reported, rfl⟩
    induction pair using Sym2.ind with
    | _ i j => exact (along i j).mpr reported

theorem listed_append (grouped : Grouped threshold 0 hashes groups)
    (grouped' : Grouped threshold 0 (hashes ++ more) groups') {i j : ℕ} (left : i < hashes.length)
    (right : j < hashes.length) : Listed groups' i j ↔ Listed groups i j := by
  have same {k : ℕ} (inside : k < hashes.length) : (hashes ++ more)[k]? = hashes[k]? :=
    List.getElem?_append_left inside
  have pairs (a b : Fingerprint) : PairAt (hashes ++ more) i j a b ↔ PairAt hashes i j a b := by
    constructor
    · intro pair
      exact ⟨pair.order, same left ▸ pair.left, same right ▸ pair.right⟩
    · intro pair
      exact ⟨pair.order, (same left).trans pair.left, (same right).trans pair.right⟩
  rw [listed_iff grouped, listed_iff grouped']
  simp only [Matching, pairs]

theorem listed_lt (done : duplicates threshold hashes = .ok groups) {i j : ℕ}
    (listed : Listed groups i j) : i < hashes.length ∧ j < hashes.length := by
  rcases listed with ⟨g, member, rfl, inside⟩
  have bounds := positions_lt done member
  exact ⟨bounds.1, bounds.2 j inside⟩

end Pairs

/-- Fingerprints of one kind can be grouped in every order, and the same pairs are reported, at the
positions that their members have moved to. More of them at the end change nothing for the pairs in
front. -/
theorem duplicates_rearranged (threshold : Float) (algorithm : Algorithm) (length : ℕ)
    (hashes : List Fingerprint) (nonempty : 0 < length)
    (kind : ∀ h ∈ hashes, OfKind algorithm length h) :
    ∃ groups, duplicates threshold hashes = .ok groups ∧
      (∀ i j, Listed groups i j → i < hashes.length ∧ j < hashes.length) ∧
      (∀ (hashes' : List Fingerprint) (p : Fin hashes.length ≃ Fin hashes'.length),
        (∀ i, hashes'.get (p i) = hashes.get i) →
          ∃ groups', duplicates threshold hashes' = .ok groups' ∧
            (∀ i j, Listed groups' i j → i < hashes'.length ∧ j < hashes'.length) ∧
            unorderedPairs hashes'.length groups' =
              Sym2.map p '' unorderedPairs hashes.length groups) ∧
      (∀ more, (∀ h ∈ more, OfKind algorithm length h) →
        ∃ groups', duplicates threshold (hashes ++ more) = .ok groups') ∧
      (∀ more groups', duplicates threshold (hashes ++ more) = .ok groups' →
        ∀ i < hashes.length, ∀ j < hashes.length, (Listed groups' i j ↔ Listed groups i j)) := by
  obtain ⟨groups, done⟩ := duplicates_ofKind threshold nonempty kind
  have grouped := duplicates_ok done
  refine ⟨groups, done, fun i j => listed_lt done, ?_, ?_, ?_⟩
  · intro hashes' p moved
    have kind' : ∀ h ∈ hashes', OfKind algorithm length h := by
      intro h member
      obtain ⟨k, rfl⟩ := List.get_of_mem member
      obtain ⟨i, rfl⟩ := p.surjective k
      rw [moved]
      exact kind _ (List.get_mem hashes i)
    obtain ⟨groups', done'⟩ := duplicates_ofKind threshold nonempty kind'
    exact ⟨groups', done', fun i j => listed_lt done',
      unorderedPairs_rearranged p moved grouped (duplicates_ok done')⟩
  · intro more kind'
    apply duplicates_ofKind threshold nonempty
    intro h member
    exact (List.mem_append.mp member).elim (kind h) (kind' h)
  · intro more groups' done' i left j right
    exact listed_append grouped (duplicates_ok done') left right

theorem duplicates_rearranged_swapped :
    duplicates 0.9 [⟨"0f0f", .difference⟩, ⟨"f0f0", .difference⟩, ⟨"0f0F", .difference⟩] =
        .ok [⟨0, [2]⟩] ∧
      ∃ groups', duplicates 0.9
          [⟨"f0f0", .difference⟩, ⟨"0f0f", .difference⟩, ⟨"0f0F", .difference⟩] = .ok groups' ∧
        s(1, 2) ∈ unorderedPairs 3 groups' := by
  have kind : ∀ h ∈ [⟨"0f0f", .difference⟩, ⟨"f0f0", .difference⟩, ⟨"0f0F", .difference⟩],
      OfKind .difference 4 h := by
    rw [List.forall_mem_cons, List.forall_mem_cons, List.forall_mem_singleton]
    exact ⟨⟨rfl, by decide +kernel, rfl⟩, ⟨rfl, by decide +kernel, rfl⟩,
      ⟨rfl, by decide +kernel, rfl⟩⟩
  have done : duplicates 0.9
      [⟨"0f0f", .difference⟩, ⟨"f0f0", .difference⟩, ⟨"0f0F", .difference⟩] = .ok [⟨0, [2]⟩] := by
    decide +kernel
  obtain ⟨groups, found, -, rearranged, -⟩ := duplicates_rearranged 0.9 .difference 4
    [⟨"0f0f", .difference⟩, ⟨"f0f0", .difference⟩, ⟨"0f0F", .difference⟩] (by decide) kind
  cases found.symm.trans done
  obtain ⟨groups', done', -, pairs⟩ := rearranged
    [⟨"f0f0", .difference⟩, ⟨"0f0f", .difference⟩, ⟨"0f0F", .difference⟩] (Equiv.swap 0 1)
    (by decide +kernel)
  refine ⟨done, groups', done', pairs ▸ ⟨s(0, 2), ⟨0, 2, ?_, rfl⟩, rfl⟩⟩
  exact ⟨_, List.mem_singleton_self _, rfl, List.mem_singleton_self 2⟩

end ImageDigest.Fingerprint
