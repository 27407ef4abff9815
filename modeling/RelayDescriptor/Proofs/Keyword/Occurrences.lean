import Mathlib.Data.List.Count
import RelayDescriptor.Keyword.Rules

/-!
# Occurrences of keywords

Constraints are checked in a fixed order up to the first one that is broken.  That none
is broken means the same in any order: it is a bound on the occurrences of each keyword
and a condition on each dependency.
-/

namespace RelayDescriptor

variable {tokens : List Token} {keyword : Text}

theorem occurrences_pos_iff :
    0 < occurrences keyword tokens ↔ ∃ token ∈ tokens, token.keyword = keyword := by
  simp [occurrences, List.countP_pos_iff]

/-- A keyword occurs at most once exactly if no two lines have it. -/
theorem occurrences_le_one_iff :
    occurrences keyword tokens ≤ 1 ↔
      ∀ first second, [first, second].Sublist tokens →
        first.keyword = keyword → second.keyword ≠ keyword := by
  constructor
  · rintro once first second inside rfl same
    have two : occurrences first.keyword [first, second] = 2 := by
      simp [occurrences, same]
    have atLeast : occurrences first.keyword [first, second] ≤ occurrences first.keyword tokens :=
      inside.countP_le
    omega
  · intro never
    by_contra twice
    rw [occurrences, List.countP_eq_length_filter] at twice
    obtain ⟨first, rest, found⟩ := List.exists_cons_of_length_pos
      (Nat.zero_lt_of_lt (Nat.not_le.mp twice))
    rw [found, List.length_cons] at twice
    obtain ⟨second, others, rfl⟩ := List.exists_cons_of_length_pos (l := rest) (by omega)
    have inside : [first, second].Sublist tokens := by
      have pair : [first, second].Sublist (first :: second :: others) :=
        ((List.nil_sublist others).cons_cons second).cons_cons first
      rw [← found] at pair
      exact pair.trans List.filter_sublist
    have chosen : ∀ token ∈ first :: second :: others, token.keyword = keyword := by
      intro token member
      rw [← found] at member
      exact of_decide_eq_true (List.mem_filter.mp member).2
    exact never first second inside (chosen first List.mem_cons_self)
      (chosen second (List.mem_cons_of_mem first List.mem_cons_self))

namespace Constraints

variable {constraints : Constraints} {entry : Text × Text} {count : Text → Nat}

theorem exactlyOnceViolation?_eq_none_iff :
    exactlyOnceViolation? count keyword = none ↔ count keyword = 1 := by
  rw [exactlyOnceViolation?]
  split <;> simp_all

theorem atMostOnceViolation?_eq_none_iff :
    atMostOnceViolation? count keyword = none ↔ count keyword ≤ 1 := by
  simp [atMostOnceViolation?]

theorem dependencyViolation?_eq_none_iff :
    dependencyViolation? count entry = none ↔ (0 < count entry.1 → 0 < count entry.2) := by
  simp [dependencyViolation?, Nat.pos_iff_ne_zero]

theorem mem_insertDependency {other : Text × Text} {entries : List (Text × Text)} :
    entry ∈ insertDependency other entries ↔ entry = other ∨ entry ∈ entries := by
  induction entries with
  | nil => simp [insertDependency]
  | cons head tail induction =>
      rw [insertDependency]
      split
      · exact List.mem_cons
      · rw [List.mem_cons, induction, List.mem_cons]
        exact or_left_comm

theorem mem_sortedDependencies :
    entry ∈ constraints.sortedDependencies ↔ entry ∈ constraints.dependsOn := by
  rw [sortedDependencies]
  induction constraints.dependsOn with
  | nil => rfl
  | cons head tail induction =>
      rw [List.foldr_cons, mem_insertDependency, induction, List.mem_cons]

/-- No constraint is broken if and only if every keyword occurs as often as it may and every keyword
that occurs has what it needs. -/
theorem violation?_eq_none_iff :
    constraints.violation? count = none ↔
      (∀ keyword ∈ constraints.exactlyOnce, count keyword = 1) ∧
        (∀ keyword ∈ constraints.atMostOnce, count keyword ≤ 1) ∧
          ∀ entry ∈ constraints.dependsOn, 0 < count entry.1 → 0 < count entry.2 := by
  simp only [violation?, Option.or_eq_none_iff, List.findSome?_eq_none_iff,
    exactlyOnceViolation?_eq_none_iff, atMostOnceViolation?_eq_none_iff,
    dependencyViolation?_eq_none_iff, mem_sortedDependencies]

theorem occurrences_of_perm {others : List Token} (perm : tokens.Perm others) :
    (occurrences · others) = (occurrences · tokens) := by
  funext keyword
  exact (perm.countP_eq _).symm

end Constraints

end RelayDescriptor
