import Mathlib.Data.Char
import Mathlib.Data.List.Lex
import Mathlib.Data.List.Nodup
import RelayDescriptor.Text.Basic

/-!
# Texts in ascending order

Inserting a text into an ascending list keeps it ascending, so the distinct texts of a
list can be put into one ascending list, which has the same members.
-/

namespace RelayDescriptor

/-- The distinct members of a list stand in it once each. -/
theorem nodup_eraseDups {α : Type} [BEq α] [LawfulBEq α] :
    (list : List α) → list.eraseDups.Nodup
  | [] => .nil
  | a :: others => by
      rw [List.eraseDups_cons, List.nodup_cons, List.mem_eraseDups]
      exact ⟨by simp, nodup_eraseDups _⟩
termination_by list => list.length
decreasing_by exact Nat.lt_succ_of_le (List.length_filter_le _ _)

theorem eraseDups_concat_of_mem {α : Type} [BEq α] [LawfulBEq α] {list : List α} {a : α}
    (seen : a ∈ list) : (list ++ [a]).eraseDups = list.eraseDups := by
  have again : [a].removeAll list = [] := by
    rw [List.removeAll, List.filter_cons_of_neg (by simpa using seen), List.filter_nil]
  rw [List.eraseDups_append, again]
  exact List.append_nil _

theorem eraseDups_concat_of_not_mem {α : Type} [BEq α] [LawfulBEq α] {list : List α} {a : α}
    (unseen : a ∉ list) : (list ++ [a]).eraseDups = list.eraseDups ++ [a] := by
  have new : [a].removeAll list = [a] := by
    rw [List.removeAll, List.filter_cons_of_pos (by simpa using unseen), List.filter_nil]
  rw [List.eraseDups_append, new]
  rfl

namespace Text

variable {text other : Text} {texts : List Text}

theorem mem_insertSorted : other ∈ insertSorted text texts ↔ other = text ∨ other ∈ texts := by
  induction texts with
  | nil => simp [insertSorted]
  | cons head tail induction =>
      rw [insertSorted]
      split
      · exact List.mem_cons
      · rw [List.mem_cons, induction, List.mem_cons]
        exact or_left_comm

theorem mem_sorted : text ∈ sorted texts ↔ text ∈ texts := by
  rw [sorted]
  induction texts with
  | nil => rfl
  | cons head tail induction => rw [List.foldr_cons, mem_insertSorted, induction, List.mem_cons]

theorem mem_sortedSet : text ∈ sortedSet texts ↔ text ∈ texts := by
  rw [sortedSet, mem_sorted, List.mem_eraseDups]

theorem insertSorted_ascending (ascending : texts.Pairwise (· < ·)) (absent : text ∉ texts) :
    (insertSorted text texts).Pairwise (· < ·) := by
  induction texts with
  | nil => exact List.pairwise_singleton _ _
  | cons head tail induction =>
      obtain ⟨least, rest⟩ := List.pairwise_cons.mp ascending
      rw [insertSorted]
      split
      next below =>
        have below : text < head := of_decide_eq_true below
        refine List.pairwise_cons.mpr ⟨?_, ascending⟩
        intro later member
        rcases List.mem_cons.mp member with rfl | member
        · exact below
        · exact List.lt_trans below (least later member)
      next notBelow =>
        have notBelow : ¬text < head := fun below => notBelow (decide_eq_true below)
        have different : text ≠ head := fun same => absent (same ▸ List.mem_cons_self)
        have above : head < text :=
          ((lt_trichotomy text head).resolve_left notBelow).resolve_left different
        refine List.pairwise_cons.mpr ⟨?_, induction rest fun member => absent (.tail head member)⟩
        intro later member
        rcases mem_insertSorted.mp member with rfl | member
        · exact above
        · exact least later member

theorem sorted_ascending (distinct : texts.Nodup) : (sorted texts).Pairwise (· < ·) := by
  induction texts with
  | nil => exact .nil
  | cons head tail induction =>
      obtain ⟨absent, distinct⟩ := List.nodup_cons.mp distinct
      exact insertSorted_ascending (induction distinct) fun member => absent (mem_sorted.mp member)

theorem sortedSet_ascending (texts : List Text) : (sortedSet texts).Pairwise (· < ·) :=
  sorted_ascending (nodup_eraseDups texts)

end Text

end RelayDescriptor
