import Mathlib.Data.List.TakeDrop
import RelayDescriptor.Proofs.Reading.Runs

/-!
# Lines around an embedded block

A text that is written line by line is cut into those lines again.  Where a block is
complete and starts outside any other, scanning yields what it yields without the block,
whatever lines the block has.
-/

namespace RelayDescriptor

variable {line opening closing : Text} {lines above inside below : List Text}

/-- A text without line breaks. -/
def IsLine (line : Text) : Prop := '\n' ∉ line ∧ '\r' ∉ line

instance (line : Text) : Decidable (IsLine line) := inferInstanceAs (Decidable (_ ∧ _))

/-- The text of lines, each ended by a line feed. -/
def written (lines : List Text) : Text := lines.flatMap (· ++ ['\n'])

theorem lines_written (each : ∀ line ∈ lines, IsLine line) :
    RelayDescriptor.lines (written lines) = lines := by
  induction lines with
  | nil => rfl
  | cons line others induction =>
      obtain ⟨⟨noFeed, noReturn⟩, rest⟩ := List.forall_mem_cons.mp each
      rw [written, List.flatMap_cons, ← List.append_cons, lines_append_cons noFeed noReturn]
      exact congrArg (line :: ·) (induction rest)

/-! ## Annotations -/

theorem isAnnotation_of_opensBlock (opens : opensBlock opening = true) :
    isAnnotation opening = false := by
  obtain ⟨rest, rfl⟩ := List.isPrefixOf_iff_prefix.mp opens
  rfl

/-- Lines below another line, or with no annotation at their head, are not taken for annotations. -/
theorem splitAnnotations_append
    (stops : (∃ line ∈ above, isAnnotation line = false) ∨
      ∀ line, below.head? = some line → isAnnotation line = false) :
    splitAnnotations (above ++ below) =
      ((splitAnnotations above).1, (splitAnnotations above).2 ++ below) := by
  simp only [splitAnnotations, List.span_eq_takeWhile_dropWhile]
  induction above with
  | nil =>
      cases below with
      | nil => rfl
      | cons line below =>
          have plain := (stops.resolve_left (by simp)) line rfl
          simp [plain]
  | cons first above induction =>
      cases marked : isAnnotation first with
      | false => simp [marked]
      | true =>
          have later := induction (stops.imp_left fun ⟨line, member, plain⟩ =>
            ⟨line, (List.mem_cons.mp member).resolve_left (by rintro rfl; simp [marked] at plain),
              plain⟩)
          simpa [marked] using later

namespace Scan

variable {state : Option Nat}

/-- Whether an event is the end of all lines within a block. -/
def leavesOpen : ScanEvent → Bool
  | .blockOpen _ => true
  | _ => false

/-- Scanning ends outside any block. -/
def EndsOutside (lines : List Text) : Prop := ∀ event ∈ events lines, leavesOpen event = false

instance (lines : List Text) : Decidable (EndsOutside lines) :=
  inferInstanceAs (Decidable (∀ event ∈ events lines, leavesOpen event = false))

/-- Where scanning ends outside any block, it goes on from there. -/
theorem eventsFrom_append (outside : ∀ event ∈ eventsFrom state lines, leavesOpen event = false)
    (rest : List Text) :
    eventsFrom state (lines ++ rest) = eventsFrom state lines ++ eventsFrom none rest := by
  -- The cases are those of the scanner; the second one is the end of the lines within a block.
  induction state, lines using eventsFrom.induct with
  | case1 => rfl
  | case2 passed => cases outside (.blockOpen passed) List.mem_cons_self
  | case3 passed line lines closes induction =>
      rw [eventsFrom, if_pos closes, List.forall_mem_cons] at outside
      rw [List.cons_append, eventsFrom, eventsFrom, if_pos closes, if_pos closes,
        induction outside.2]
      rfl
  | case4 passed line lines closes induction =>
      rw [eventsFrom, if_neg closes] at outside
      rw [List.cons_append, eventsFrom, eventsFrom, if_neg closes, if_neg closes,
        induction outside]
  | case5 line lines edge found induction =>
      rw [eventsFrom, found] at outside
      rw [List.cons_append, eventsFrom, eventsFrom, found]
      exact induction outside
  | case6 line lines edge found induction =>
      rw [eventsFrom, found] at outside
      rw [List.cons_append, eventsFrom, eventsFrom, found]
      exact induction outside
  | case7 line lines item found induction =>
      rw [eventsFrom, found] at outside
      rw [List.cons_append, eventsFrom, eventsFrom, found]
      exact congrArg (.item item :: ·) (induction (List.forall_mem_cons.mp outside).2)

theorem items_append (outside : EndsOutside above) (below : List Text) :
    items (above ++ below) = items above ++ items below := by
  rw [items, events, eventsFrom_append outside, itemsOf, List.filterMap_append]
  rfl

theorem items_cons {item : Item} (tokenized : tokenize line = .item item) (below : List Text) :
    items (line :: below) = item :: items below := by
  rw [items, events, eventsFrom, tokenized]
  rfl

theorem tokenize_of_opensBlock (opens : opensBlock opening = true) :
    tokenize opening = .blockEdge true opening :=
  if_pos opens

/-- A block has no items. -/
theorem items_block (opens : opensBlock opening = true)
    (within : ∀ line ∈ inside, closesBlock line = false) (closes : closesBlock closing = true)
    (below : List Text) : items (opening :: (inside ++ closing :: below)) = items below := by
  rw [items, events, eventsFrom, tokenize_of_opensBlock opens]
  dsimp only
  rw [eventsFrom_block 0 within closes]
  rfl

theorem endsOutside_of_cons (marked : isAnnotation line = true)
    (outside : EndsOutside (line :: lines)) : EndsOutside lines := by
  obtain ⟨rest, rfl⟩ := List.head?_eq_some_iff.mp (of_decide_eq_true marked)
  have found : tokenize ('@' :: rest) = .item (itemOf false ('@' :: rest) ('@' :: rest)) := rfl
  rw [EndsOutside, events, eventsFrom, found] at outside
  exact (List.forall_mem_cons.mp outside).2

theorem endsOutside_splitAnnotations (outside : EndsOutside lines) :
    EndsOutside (splitAnnotations lines).2 := by
  rw [splitAnnotations, List.span_eq_takeWhile_dropWhile]
  induction lines with
  | nil => exact outside
  | cons line lines induction =>
      rw [List.dropWhile_cons]
      split
      next marked => exact induction (endsOutside_of_cons marked outside)
      next => exact outside

end Scan

end RelayDescriptor
