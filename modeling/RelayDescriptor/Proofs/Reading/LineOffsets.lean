import RelayDescriptor.Document.Ranges
import RelayDescriptor.Proofs.Reading.Runs
import RelayDescriptor.Proofs.Text.AsciiBytes

/-!
# Lines of decoded bytes

A line break is one or two bytes, and no other bytes are decoded to one.  So bytes that
are cut behind a line break are decoded to the lines before the cut and the lines behind
it, and every two successive lines of a text are parted by such a cut.
-/

namespace RelayDescriptor

/-- The byte of a carriage return. -/
def carriageReturn : UInt8 := 0x0D

/-- Bytes without line breaks. -/
def IsUnbroken (bytes : List UInt8) : Prop := lineFeed ∉ bytes ∧ carriageReturn ∉ bytes

/-- A line break, and the bytes behind it. -/
inductive IsBreak : List UInt8 → List UInt8 → Prop where
  | feed (rest : List UInt8) : IsBreak [lineFeed] rest
  | returnFeed (rest : List UInt8) : IsBreak [carriageReturn, lineFeed] rest
  | loneReturn {rest : List UInt8} (alone : rest.head? ≠ some lineFeed) :
      IsBreak [carriageReturn] rest

/-- No line of text goes on from some bytes to those behind them. -/
def IsCut (above below : List UInt8) : Prop :=
  above = [] ∨ above.getLast? = some lineFeed ∨
    above.getLast? = some carriageReturn ∧ below.head? ≠ some lineFeed

instance (above below : List UInt8) : Decidable (IsCut above below) :=
  inferInstanceAs (Decidable (_ ∨ _ ∨ _ ∧ _))

/-- Text before a break is a line. -/
theorem lines_append_of_break {before separator text : Text} (noFeed : '\n' ∉ before)
    (noReturn : '\r' ∉ before)
    (breaks : betweenBreaks (separator ++ text) = [] :: betweenBreaks text) :
    lines (before ++ (separator ++ text)) = before :: lines text := by
  obtain ⟨piece, pieces, same⟩ := List.exists_cons_of_ne_nil (betweenBreaks_ne_nil text)
  rw [lines, betweenBreaks_append noFeed noReturn breaks, List.append_nil, lines, same,
    List.getLast?_cons_cons, List.dropLast_cons_cons]
  split <;> rfl

theorem betweenBreaks_return {text : Text} (alone : text.head? ≠ some '\n') :
    betweenBreaks ('\r' :: text) = [] :: betweenBreaks text := by
  rw [betweenBreaks, if_pos (.inr rfl)]
  rintro rest _ rfl
  exact alone rfl

theorem lines_of_not_mem {text : Text} (noFeed : '\n' ∉ text) (noReturn : '\r' ∉ text) :
    lines text = if text = [] then [] else [text] := by
  have alone : betweenBreaks text = [text] := by
    have split : betweenBreaks [] = [] :: [] := rfl
    have whole := betweenBreaks_append noFeed noReturn split
    rwa [List.append_nil] at whole
  rw [lines, alone]
  cases text with
  | nil => rfl
  | cons c text => simp

variable {front back bytes separator rest above below : List UInt8}

/-! ## Breaks -/

theorem IsBreak.append_left (isBreak : IsBreak separator (back ++ below)) :
    IsBreak separator back := by
  cases isBreak with
  | feed => exact .feed back
  | returnFeed => exact .returnFeed back
  | loneReturn alone =>
      apply IsBreak.loneReturn
      cases back with
      | nil => simp
      | cons b back => exact alone

theorem IsBreak.append (isBreak : IsBreak separator rest)
    (cut : IsCut (front ++ (separator ++ rest)) below) : IsBreak separator (rest ++ below) := by
  cases isBreak with
  | feed => exact .feed _
  | returnFeed => exact .returnFeed _
  | loneReturn alone =>
      apply IsBreak.loneReturn
      cases rest with
      | nil =>
          have last : (front ++ ([carriageReturn] ++ [])).getLast? = some carriageReturn :=
            List.getLast?_concat
          rcases cut with empty | feed | ⟨_, notFeed⟩
          · simp at empty
          · rw [last] at feed
            exact absurd feed (by decide)
          · exact notFeed
      | cons b rest => exact alone

theorem IsBreak.ne_nil (isBreak : IsBreak separator rest) : separator ≠ [] := by
  cases isBreak <;> simp

theorem getLast?_append_of_ne_nil {α : Type} {right : List α} (left : List α)
    (nonempty : right ≠ []) : (left ++ right).getLast? = right.getLast? := by
  rw [List.getLast?_append, List.getLast?_eq_some_getLast nonempty, Option.some_or]

theorem IsBreak.isCut (isBreak : IsBreak separator below) (front : List UInt8) :
    IsCut (front ++ separator) below := by
  rw [IsCut, getLast?_append_of_ne_nil front isBreak.ne_nil]
  cases isBreak with
  | feed => exact .inr (.inl rfl)
  | returnFeed => exact .inr (.inl rfl)
  | loneReturn alone => exact .inr (.inr ⟨rfl, alone⟩)

/-- What a break follows does not matter for where bytes are cut. -/
theorem isCut_append_iff (nonempty : back ≠ []) :
    IsCut (front ++ back) below ↔ IsCut back below := by
  simp [IsCut, nonempty]

/-- Bytes with a line break have a first one. -/
theorem exists_break (broken : ¬IsUnbroken bytes) :
    ∃ front separator rest, bytes = front ++ (separator ++ rest) ∧ IsUnbroken front ∧
      IsBreak separator rest := by
  have none : IsUnbroken [] := by simp [IsUnbroken]
  induction bytes with
  | nil => exact absurd none broken
  | cons b bytes induction =>
      by_cases feed : b = lineFeed
      · exact ⟨[], [b], bytes, rfl, none, feed ▸ .feed bytes⟩
      by_cases isReturn : b = carriageReturn
      · subst isReturn
        by_cases pair : bytes.head? = some lineFeed
        · obtain ⟨rest, rfl⟩ := List.head?_eq_some_iff.mp pair
          exact ⟨[], _, rest, rfl, none, .returnFeed rest⟩
        · exact ⟨[], _, bytes, rfl, none, .loneReturn pair⟩
      · have later : ¬IsUnbroken bytes := by
          rintro ⟨noFeed, noReturn⟩
          exact broken ⟨by simp [noFeed, Ne.symm feed], by simp [noReturn, Ne.symm isReturn]⟩
        obtain ⟨front, separator, rest, rfl, ⟨noFeed, noReturn⟩, isBreak⟩ := induction later
        refine ⟨b :: front, separator, rest, rfl, ⟨?_, ?_⟩, isBreak⟩
        · simp [noFeed, Ne.symm feed]
        · simp [noReturn, Ne.symm isReturn]

/-! ## Lines -/

theorem IsUnbroken.not_mem_decode (unbroken : IsUnbroken front) :
    '\n' ∉ Utf8.decode front ∧ '\r' ∉ Utf8.decode front :=
  ⟨fun member => unbroken.1 (Utf8.byte_mem_of_mem_decode (by decide) member),
    fun member => unbroken.2 (Utf8.byte_mem_of_mem_decode (by decide) member)⟩

theorem IsUnbroken.lines_decode (unbroken : IsUnbroken bytes) :
    lines (Utf8.decode bytes) = if bytes = [] then [] else [Utf8.decode bytes] := by
  rw [lines_of_not_mem unbroken.not_mem_decode.1 unbroken.not_mem_decode.2]
  simp only [Utf8.decode_eq_nil_iff]

/-- The first line ends at the first break. -/
theorem lines_decode_break (unbroken : IsUnbroken front) (isBreak : IsBreak separator rest) :
    lines (Utf8.decode (front ++ (separator ++ rest))) =
      Utf8.decode front :: lines (Utf8.decode rest) := by
  obtain ⟨noFeed, noReturn⟩ := unbroken.not_mem_decode
  have feed : Utf8.IsMark '\n' := by decide
  have isReturn : Utf8.IsMark '\r' := by decide
  cases isBreak with
  | feed =>
      have text : Utf8.decode (front ++ ([lineFeed] ++ rest)) =
          Utf8.decode front ++ (['\n'] ++ Utf8.decode rest) :=
        Utf8.decode_append_cons feed front rest
      rw [text]
      exact lines_append_of_break noFeed noReturn rfl
  | returnFeed =>
      have text : Utf8.decode (front ++ ([carriageReturn, lineFeed] ++ rest)) =
          Utf8.decode front ++ (['\r', '\n'] ++ Utf8.decode rest) := by
        have first := Utf8.decode_append_cons isReturn front (lineFeed :: rest)
        have second := Utf8.decode_append_cons feed [] rest
        exact first.trans (congrArg (Utf8.decode front ++ '\r' :: ·) second)
      rw [text]
      exact lines_append_of_break noFeed noReturn rfl
  | loneReturn alone =>
      have text : Utf8.decode (front ++ ([carriageReturn] ++ rest)) =
          Utf8.decode front ++ (['\r'] ++ Utf8.decode rest) :=
        Utf8.decode_append_cons isReturn front rest
      rw [text]
      apply lines_append_of_break noFeed noReturn
      apply betweenBreaks_return
      intro head
      obtain ⟨others, same⟩ := List.head?_eq_some_iff.mp head
      have begins : ['\n'] <+: Utf8.decode rest := ⟨others, same.symm⟩
      rw [Utf8.prefix_decode_iff (by simpa using feed)] at begins
      obtain ⟨others, rfl⟩ := begins
      exact alone rfl

theorem lines_decode_ne_nil (nonempty : bytes ≠ []) : lines (Utf8.decode bytes) ≠ [] := by
  by_cases unbroken : IsUnbroken bytes
  · rw [unbroken.lines_decode, if_neg nonempty]
    exact List.cons_ne_nil _ _
  · obtain ⟨front, separator, rest, rfl, unbroken, isBreak⟩ := exists_break unbroken
    rw [lines_decode_break unbroken isBreak]
    exact List.cons_ne_nil _ _

/-- Bytes that are cut behind a break have the lines of both parts. -/
theorem lines_decode_append (cut : IsCut above below) :
    lines (Utf8.decode (above ++ below)) =
      lines (Utf8.decode above) ++ lines (Utf8.decode below) := by
  induction size : above.length using Nat.strongRecOn generalizing above with
  | ind count induction =>
      by_cases empty : above = []
      · rw [empty]
        rfl
      have broken : ¬IsUnbroken above := by
        rintro ⟨noFeed, noReturn⟩
        rcases cut with same | feed | ⟨isReturn, _⟩
        · exact empty same
        · exact noFeed (List.mem_of_getLast? feed)
        · exact noReturn (List.mem_of_getLast? isReturn)
      obtain ⟨front, separator, rest, rfl, unbroken, isBreak⟩ := exists_break broken
      have later : IsCut rest below := by
        by_cases last : rest = []
        · exact .inl last
        · rw [← List.append_assoc] at cut
          exact (isCut_append_iff last).mp cut
      have shorter : rest.length < count := by
        have positive := List.length_pos_iff.mpr isBreak.ne_nil
        rw [List.length_append, List.length_append] at size
        omega
      rw [List.append_assoc, List.append_assoc, lines_decode_break unbroken (isBreak.append cut),
        lines_decode_break unbroken isBreak, induction rest.length shorter later rfl,
        List.cons_append]

/-- Between two lines of a text the bytes are cut. -/
theorem exists_cut {before after : List Text} {line : Text}
    (split : lines (Utf8.decode bytes) = before ++ line :: after) :
    ∃ above below, bytes = above ++ below ∧ IsCut above below ∧
      lines (Utf8.decode above) = before ∧ lines (Utf8.decode below) = line :: after := by
  induction before generalizing bytes with
  | nil => exact ⟨[], bytes, rfl, .inl rfl, rfl, split⟩
  | cons first before induction =>
      have broken : ¬IsUnbroken bytes := by
        intro unbroken
        have count := congrArg List.length split
        rw [unbroken.lines_decode, List.length_append, List.length_cons, List.length_cons] at count
        split at count
        · cases count
        · rw [List.length_singleton] at count
          omega
      obtain ⟨front, separator, rest, rfl, unbroken, isBreak⟩ := exists_break broken
      rw [lines_decode_break unbroken isBreak] at split
      obtain ⟨rfl, others⟩ := List.cons.inj split
      obtain ⟨above, below, rfl, cut, linesAbove, linesBelow⟩ := induction others
      refine ⟨front ++ (separator ++ above), below, by simp, ?_, ?_, linesBelow⟩
      · by_cases empty : above = []
        · subst empty
          rw [List.append_nil]
          exact isBreak.isCut front
        · rw [← List.append_assoc]
          exact (isCut_append_iff empty).mpr cut
      · rw [lines_decode_break unbroken isBreak.append_left, linesAbove]

/-- The bytes begin with those of the first line. -/
theorem exists_prefix_of_head? {line : Text}
    (head : (lines (Utf8.decode bytes)).head? = some line) :
    ∃ front, front <+: bytes ∧ Utf8.decode front = line := by
  by_cases unbroken : IsUnbroken bytes
  · rw [unbroken.lines_decode] at head
    split at head
    · cases head
    · exact ⟨bytes, List.prefix_refl bytes, Option.some.inj head⟩
  · obtain ⟨front, separator, rest, rfl, unbroken, isBreak⟩ := exists_break unbroken
    rw [lines_decode_break unbroken isBreak] at head
    exact ⟨front, List.prefix_append _ _, Option.some.inj head⟩

end RelayDescriptor
