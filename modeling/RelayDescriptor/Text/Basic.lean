/-!
# Text

Text is a list of characters, so that cutting, joining and searching are list
operations.  A text is cut at a single character (`pieces`) or at a whole
separator (`piecesAt`), and lists of texts are sorted by code point, with or
without repetitions.
-/

namespace RelayDescriptor

/-- A sequence of Unicode characters. -/
abbrev Text := List Char

/-- The string with the same characters. -/
def shown (text : Text) : String := String.ofList text

namespace Text

/-- Puts a character in front of the first of a list of pieces. -/
def pushFirst (c : Char) : List Text → List Text
  | [] => [[c]]
  | piece :: pieces => (c :: piece) :: pieces

/-- The pieces between the occurrences of a character; there is always at least one. -/
def pieces (separator : Char) : Text → List Text
  | [] => [[]]
  | c :: text =>
      if c = separator then [] :: pieces separator text
      else pushFirst c (pieces separator text)

/-- Cuts at every occurrence of a separator, from left to right.  The counter holds the
characters of the current occurrence that are still to be passed over. -/
def cutAt (separator : Text) : Nat → Text → List Text
  | _, [] => [[]]
  | skipped + 1, _ :: text => cutAt separator skipped text
  | 0, c :: text =>
      if separator.isPrefixOf (c :: text) then
        [] :: cutAt separator (separator.length - 1) text
      else pushFirst c (cutAt separator 0 text)

/-- The pieces between the occurrences of a separator, which must not be empty. -/
def piecesAt? (separator text : Text) : Option (List Text) :=
  match separator with
  | [] => none
  | [c] => some (pieces c text)
  | _ => some (cutAt separator 0 text)

/-- Drops the empty texts at the end of a list. -/
def dropEmptyEnd (texts : List Text) : List Text :=
  (texts.reverse.dropWhile List.isEmpty).reverse

/-- The texts with a separator between neighbours. -/
def joinWith (separator : Text) : List Text → Text
  | [] => []
  | [text] => text
  | text :: texts => text ++ separator ++ joinWith separator texts

/-- The parts before and after the first occurrence of a character. -/
def cutFirst? (separator : Char) : Text → Option (Text × Text)
  | [] => none
  | c :: text =>
      if c = separator then some ([], text)
      else (cutFirst? separator text).map fun (before, after) => (c :: before, after)

/-- The parts before and after the last occurrence of a character. -/
def cutLast? (separator : Char) (text : Text) : Option (Text × Text) :=
  (cutFirst? separator text.reverse).map fun (after, before) => (before.reverse, after.reverse)

/-- Order by code point, a proper beginning coming first. -/
def isBelow (left right : Text) : Bool := decide (left < right)

/-- Inserts a text before the first one that is above it. -/
def insertSorted (text : Text) : List Text → List Text
  | [] => [text]
  | head :: tail =>
      if isBelow text head then text :: head :: tail else head :: insertSorted text tail

/-- The texts in ascending order. -/
def sorted (texts : List Text) : List Text := texts.foldr insertSorted []

/-- The distinct texts in ascending order. -/
def sortedSet (texts : List Text) : List Text := sorted texts.eraseDups

theorem pushFirst_ne_nil (c : Char) (pieces : List Text) : pushFirst c pieces ≠ [] := by
  cases pieces <;> simp [pushFirst]

theorem pieces_ne_nil (separator : Char) (text : Text) : pieces separator text ≠ [] := by
  cases text with
  | nil => simp [pieces]
  | cons c text =>
      rw [pieces]
      split
      · simp
      · exact pushFirst_ne_nil c _

theorem joinWith_pushFirst (separator : Text) (c : Char) {pieces : List Text}
    (nonempty : pieces ≠ []) :
    joinWith separator (pushFirst c pieces) = c :: joinWith separator pieces := by
  match pieces, nonempty with
  | [piece], _ => rfl
  | piece :: next :: pieces, _ => simp [pushFirst, joinWith]

/-- Nothing is lost by cutting: the pieces joined again are the text. -/
theorem joinWith_pieces (separator : Char) (text : Text) :
    joinWith [separator] (pieces separator text) = text := by
  induction text with
  | nil => rfl
  | cons c text induction =>
      rw [pieces]
      split
      next same =>
        subst same
        match found : pieces c text, pieces_ne_nil c text with
        | piece :: rest, _ => simp [joinWith, ← found, induction]
      next =>
        rw [joinWith_pushFirst [separator] c (pieces_ne_nil separator text), induction]

/-- No piece contains the separator. -/
theorem not_mem_of_mem_pieces {separator : Char} {text piece : Text}
    (member : piece ∈ pieces separator text) : separator ∉ piece := by
  induction text generalizing piece with
  | nil => simp_all [pieces]
  | cons c text induction =>
      rw [pieces] at member
      split at member
      next =>
        rcases List.mem_cons.mp member with rfl | member
        · simp
        · exact induction member
      next different =>
        match found : pieces separator text, pieces_ne_nil separator text with
        | first :: rest, _ =>
            rw [found, pushFirst] at member
            rcases List.mem_cons.mp member with rfl | member
            · have absent := induction (found ▸ List.mem_cons_self (a := first) (l := rest))
              simp [Ne.symm different, absent]
            · exact induction (found ▸ List.mem_cons_of_mem first member)

/-- A text without the separator is the only piece. -/
theorem pieces_of_not_mem {separator : Char} {text : Text} (absent : separator ∉ text) :
    pieces separator text = [text] := by
  induction text with
  | nil => rfl
  | cons c text induction =>
      simp only [List.mem_cons, not_or] at absent
      rw [pieces, if_neg (Ne.symm absent.1), induction absent.2, pushFirst]

/-- A text without the separator in front of one is the first piece. -/
theorem pieces_append_cons {separator : Char} {before : Text} (absent : separator ∉ before)
    (after : Text) :
    pieces separator (before ++ separator :: after) = before :: pieces separator after := by
  induction before with
  | nil => simp [pieces]
  | cons c before induction =>
      simp only [List.mem_cons, not_or] at absent
      rw [List.cons_append, pieces, if_neg (Ne.symm absent.1), induction absent.2, pushFirst]

end Text

/-- The position of the first occurrence of a pattern in a list whose first element stands at
position `start`. -/
def searchFrom {α : Type} [BEq α] (pattern : List α) (start : Nat) : List α → Option Nat
  | [] => if pattern.isEmpty then some start else none
  | a :: rest =>
      if pattern.isPrefixOf (a :: rest) then some start else searchFrom pattern (start + 1) rest

/-- A search from a later position finds the same place, as much later. -/
theorem searchFrom_add {α : Type} [BEq α] (pattern list : List α) (start shift : Nat) :
    searchFrom pattern (start + shift) list =
      (searchFrom pattern start list).map (· + shift) := by
  induction list generalizing start with
  | nil => by_cases empty : pattern.isEmpty <;> simp [searchFrom, empty]
  | cons a rest induction =>
      by_cases here : pattern.isPrefixOf (a :: rest)
      · simp [searchFrom, here]
      · have moved := induction (start + 1)
        rw [Nat.add_right_comm] at moved
        simp only [searchFrom, here, Bool.false_eq_true, ↓reduceIte]
        exact moved

/-- Whether a pattern occurs in a list. -/
def occursIn {α : Type} [BEq α] (pattern list : List α) : Bool :=
  (searchFrom pattern 0 list).isSome

end RelayDescriptor
