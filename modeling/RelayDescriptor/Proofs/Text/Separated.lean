import Mathlib.Data.List.DropRight
import RelayDescriptor.Text.Basic

/-!
# Separated texts

Texts are found again in what they are joined to, whatever number of separators follows.
The pieces of a text without the empty ones at its end are the texts that it was joined
from: no text holds the separator, and the last one is not empty.
-/

namespace RelayDescriptor

namespace Text

variable {separator : Char} {text : Text} {texts : List Text}

/-- Texts without the separator are the pieces of what they are joined to. -/
theorem pieces_joinWith (nonempty : texts ≠ []) (apart : ∀ text ∈ texts, separator ∉ text) :
    pieces separator (joinWith [separator] texts) = texts := by
  induction texts with
  | nil => exact absurd rfl nonempty
  | cons text texts induction =>
      obtain ⟨first, others⟩ := List.forall_mem_cons.mp apart
      cases texts with
      | nil => exact pieces_of_not_mem first
      | cons next texts =>
          have joined : joinWith [separator] (text :: next :: texts) =
              text ++ separator :: joinWith [separator] (next :: texts) := by
            simp [joinWith]
          rw [joined, pieces_append_cons first, induction (List.cons_ne_nil next texts) others]

theorem dropEmptyEnd_eq_rdropWhile (texts : List Text) :
    dropEmptyEnd texts = texts.rdropWhile List.isEmpty := rfl

theorem getLast?_dropEmptyEnd (texts : List Text) : (dropEmptyEnd texts).getLast? ≠ some [] := by
  intro last
  have nonempty : dropEmptyEnd texts ≠ [] := by
    intro none
    rw [none] at last
    cases last
  rw [List.getLast?_eq_some_getLast nonempty, Option.some.injEq] at last
  exact List.rdropWhile_last_not List.isEmpty texts nonempty (List.isEmpty_iff.mpr last)

theorem dropEmptyEnd_append_replicate (last : texts.getLast? ≠ some []) (count : Nat) :
    dropEmptyEnd (texts ++ List.replicate count []) = texts := by
  induction count with
  | zero =>
      rw [List.replicate_zero, List.append_nil, dropEmptyEnd_eq_rdropWhile,
        List.rdropWhile_eq_self_iff]
      intro nonempty empty
      rw [List.getLast?_eq_some_getLast nonempty, List.isEmpty_iff.mp empty] at last
      exact last rfl
  | succ count induction =>
      rw [List.replicate_succ', ← List.append_assoc, dropEmptyEnd_eq_rdropWhile,
        List.rdropWhile_concat_pos _ _ _ (by rfl)]
      exact induction

theorem exists_append_replicate (texts : List Text) :
    ∃ count, texts = dropEmptyEnd texts ++ List.replicate count [] := by
  refine ⟨(texts.rtakeWhile List.isEmpty).length, ?_⟩
  have empties : texts.rtakeWhile List.isEmpty =
      List.replicate (texts.rtakeWhile List.isEmpty).length [] :=
    List.eq_replicate_iff.mpr ⟨rfl, fun text member =>
      List.isEmpty_iff.mp (List.mem_rtakeWhile_imp member)⟩
  rw [dropEmptyEnd_eq_rdropWhile, ← empties, List.rdropWhile_append_rtakeWhile]

theorem joinWith_concat (nonempty : texts ≠ []) (last : Text) :
    joinWith [separator] (texts ++ [last]) = joinWith [separator] texts ++ separator :: last := by
  induction texts with
  | nil => exact absurd rfl nonempty
  | cons text texts induction =>
      cases texts with
      | nil => simp [joinWith]
      | cons next texts =>
          have rest := induction (List.cons_ne_nil next texts)
          simp only [List.cons_append] at rest
          simp [joinWith, rest]

theorem joinWith_append_replicate (nonempty : texts ≠ []) (count : Nat) :
    joinWith [separator] (texts ++ List.replicate count []) =
      joinWith [separator] texts ++ List.replicate count separator := by
  induction count with
  | zero => simp
  | succ count induction =>
      rw [List.replicate_succ', ← List.append_assoc, joinWith_concat (by simp [nonempty]),
        induction, List.replicate_succ', List.append_assoc]

/-- A text is cut into texts and empty ones after them if it is the texts joined, with any number
of separators after them. -/
theorem dropEmptyEnd_pieces_eq_iff :
    dropEmptyEnd (pieces separator text) = texts ↔
      (∀ text ∈ texts, separator ∉ text) ∧ texts.getLast? ≠ some [] ∧
        ∃ count, text = joinWith [separator] texts ++ List.replicate count separator := by
  have empties : ∀ count, joinWith [separator] (List.replicate (count + 1) []) =
      List.replicate count separator :=
    fun count => joinWith_append_replicate (List.cons_ne_nil [] []) count
  constructor
  · rintro rfl
    obtain ⟨count, split⟩ := exists_append_replicate (pieces separator text)
    have joined := joinWith_pieces separator text
    refine ⟨?_, getLast?_dropEmptyEnd _, ?_⟩
    · intro piece member
      have among : piece ∈ pieces separator text := by
        rw [split]
        exact List.mem_append_left _ member
      exact not_mem_of_mem_pieces among
    · by_cases none : dropEmptyEnd (pieces separator text) = []
      · rw [none, List.nil_append] at split
        cases count with
        | zero => exact absurd split (pieces_ne_nil separator text)
        | succ count =>
            rw [split, empties] at joined
            exact ⟨count, by rw [none, ← joined]; rfl⟩
      · rw [split, joinWith_append_replicate none] at joined
        exact ⟨count, joined.symm⟩
  · rintro ⟨apart, last, count, rfl⟩
    cases texts with
    | nil =>
        rw [show joinWith [separator] [] ++ List.replicate count separator =
          joinWith [separator] (List.replicate (count + 1) []) from (empties count).symm,
          pieces_joinWith (by simp) (by simp)]
        exact dropEmptyEnd_append_replicate last (count + 1)
    | cons first texts =>
        rw [← joinWith_append_replicate (List.cons_ne_nil first texts), pieces_joinWith (by simp)]
        · exact dropEmptyEnd_append_replicate last count
        · intro text member
          rcases List.mem_append.mp member with member | member
          · exact apart text member
          · simp [List.eq_of_mem_replicate member]

end Text

end RelayDescriptor
