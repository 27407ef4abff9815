import Mathlib.Data.List.TakeDrop
import RelayDescriptor.Line.Scan

/-!
# Lines with a keyword

A line that begins with a keyword and a space, or is only the keyword, is a token
with that keyword, unless the keyword could be taken for something else: for the mark
of a deprecated keyword, or for the edge of an embedded block.
-/

namespace RelayDescriptor

variable {keyword line rest : Text}

/-- A pattern without some character does not reach beyond that character. -/
theorem prefix_of_prefix_append_cons {α : Type} {pattern left right : List α} {a : α}
    (absent : a ∉ pattern) (occurs : pattern <+: left ++ a :: right) : pattern <+: left := by
  rcases List.prefix_or_prefix_of_prefix occurs (List.prefix_append left (a :: right)) with
    short | long
  · exact short
  · obtain ⟨others, rfl⟩ := long
    cases others with
    | nil => simp
    | cons b others =>
        obtain ⟨rfl, _⟩ := List.cons_prefix_cons.mp ((List.prefix_append_right_inj left).mp occurs)
        exact absurd (List.mem_append_right left List.mem_cons_self) absent

theorem Text.dropEmptyEnd_cons {piece : Text} (nonempty : piece ≠ []) (pieces : List Text) :
    Text.dropEmptyEnd (piece :: pieces) = piece :: Text.dropEmptyEnd pieces := by
  have kept : [piece].dropWhile List.isEmpty = [piece] := by
    rw [List.dropWhile_cons, List.isEmpty_eq_false_iff.mpr nonempty]
    rfl
  rw [Text.dropEmptyEnd, Text.dropEmptyEnd, List.reverse_cons, List.dropWhile_append, kept]
  split
  next empty => rw [List.isEmpty_iff.mp empty, List.reverse_singleton, List.reverse_nil]
  next => rw [List.reverse_append, List.reverse_singleton, List.singleton_append]

/-- A keyword that is read as one where a line begins with it. -/
structure IsPlainKeyword (keyword : Text) : Prop where
  nonempty : keyword ≠ []
  noSpace : ' ' ∉ keyword
  notOptional : keyword ++ [' '] ≠ optional
  notOpening : opensBlock keyword = false
  notClosing : closesBlock keyword = false

namespace IsPlainKeyword

/-- A pattern without a space that opens no keyword opens no line with that keyword. -/
theorem not_isPrefixOf {pattern : Text} (absent : ' ' ∉ pattern)
    (other : pattern.isPrefixOf keyword = false) (rest : Text) :
    pattern.isPrefixOf (keyword ++ ' ' :: rest) = false := by
  rw [Bool.eq_false_iff]
  intro occurs
  have begins := prefix_of_prefix_append_cons absent (List.isPrefixOf_iff_prefix.mp occurs)
  rw [List.isPrefixOf_iff_prefix.mpr begins] at other
  cases other

/-- The mark of a deprecated keyword is a keyword with the space after it. -/
theorem not_isOptional (plain : IsPlainKeyword keyword) (rest : Text) :
    optional.isPrefixOf (keyword ++ ' ' :: rest) = false := by
  rw [Bool.eq_false_iff]
  intro occurs
  obtain ⟨others, same⟩ := List.isPrefixOf_iff_prefix.mp occurs
  -- Both begin with a piece before their first space, so these pieces are the same.
  have word : optional = "opt".toList ++ ' ' :: [] := rfl
  rw [word, List.append_assoc] at same
  have cut := congrArg (Text.pieces ' ') same
  rw [List.singleton_append, Text.pieces_append_cons (by decide),
    Text.pieces_append_cons plain.noSpace] at cut
  exact plain.notOptional ((List.cons.inj cut).1 ▸ rfl)

theorem fields_cons (plain : IsPlainKeyword keyword) (rest : Text) :
    fields (keyword ++ ' ' :: rest) = keyword :: fields rest := by
  rw [fields, Text.pieces_append_cons plain.noSpace, Text.dropEmptyEnd_cons plain.nonempty]
  rfl

theorem fields_self (plain : IsPlainKeyword keyword) : fields keyword = [keyword] := by
  rw [fields, Text.pieces_of_not_mem plain.noSpace, Text.dropEmptyEnd_cons plain.nonempty]
  rfl

/-- A keyword before a space is the keyword of the line, and the fields after it are its
arguments. -/
theorem tokenize_cons (plain : IsPlainKeyword keyword) (rest : Text) :
    tokenize (keyword ++ ' ' :: rest) =
      .item (.token ⟨keyword, fields rest, keyword ++ ' ' :: rest, false⟩) := by
  have notOpening : opensBlock (keyword ++ ' ' :: rest) = false :=
    not_isPrefixOf (by decide) plain.notOpening rest
  have notClosing : closesBlock (keyword ++ ' ' :: rest) = false :=
    not_isPrefixOf (by decide) plain.notClosing rest
  simp only [tokenize, notOpening, notClosing, plain.not_isOptional rest, Bool.false_eq_true,
    ↓reduceIte, itemOf, plain.fields_cons]

theorem tokenize_self (plain : IsPlainKeyword keyword) :
    tokenize keyword = .item (.token ⟨keyword, [], keyword, false⟩) := by
  have notOptional : optional.isPrefixOf keyword = false := by
    rw [Bool.eq_false_iff]
    intro occurs
    exact plain.noSpace ((List.isPrefixOf_iff_prefix.mp occurs).subset (by decide))
  simp only [tokenize, plain.notOpening, plain.notClosing, notOptional, Bool.false_eq_true,
    ↓reduceIte, itemOf, plain.fields_self]

end IsPlainKeyword

end RelayDescriptor
