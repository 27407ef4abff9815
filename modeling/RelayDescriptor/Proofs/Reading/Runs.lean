import RelayDescriptor.Document.Basic
import RelayDescriptor.Field.History

/-!
# Runs within texts

Cutting a text never makes a run of digits longer: the pieces, fields and lines of a
text stand in it without a gap, and so do the runs in them.  Only joining arguments
could make up a new run, but they are joined at commas.
-/

namespace RelayDescriptor

/-- A run of some length, of elements that pass a test, stands in a list. -/
def HasRun {α : Type} (accepts : α → Bool) (count : Nat) (list : List α) : Prop :=
  ∃ run, run.length = count ∧ (∀ a ∈ run, accepts a = true) ∧ run <:+: list

namespace HasRun

variable {α : Type} {accepts : α → Bool} {count : Nat} {list other left right : List α}

theorem of_within (found : HasRun accepts count list) (within : list <:+: other) :
    HasRun accepts count other := by
  obtain ⟨run, length, accepted, place⟩ := found
  exact ⟨run, length, accepted, place.trans within⟩

theorem whole (accepted : ∀ a ∈ list, accepts a = true) : HasRun accepts list.length list :=
  ⟨list, rfl, accepted, List.infix_rfl⟩

theorem length_le (found : HasRun accepts count list) : count ≤ list.length := by
  obtain ⟨run, rfl, _, place⟩ := found
  exact place.length_le

/-- An element that does not pass the test separates runs. -/
theorem of_append {a : α} (last : left.getLast? = some a) (separates : accepts a = false)
    (found : HasRun accepts count (left ++ right)) :
    HasRun accepts count left ∨ HasRun accepts count right := by
  obtain ⟨run, length, accepted, before, after, equal⟩ := found
  rw [List.append_assoc] at equal
  rcases List.append_eq_append_iff.mp equal with ⟨middle, rfl, rest⟩ | ⟨middle, _, rest⟩
  · rcases List.append_eq_append_iff.mp rest with ⟨others, rfl, _⟩ | ⟨others, rfl, tail⟩
    · exact .inl ⟨run, length, accepted, before, others, by rw [List.append_assoc]⟩
    · cases middle with
      | nil => exact .inr ⟨others, length, accepted, [], after, tail.symm⟩
      | cons b middle =>
          have inRun : a ∈ (b :: middle) ++ others := by
            rw [List.getLast?_append, List.getLast?_cons, Option.some_or,
              ← List.getLast?_cons] at last
            exact List.mem_append_left _ (List.mem_of_getLast? last)
          rw [accepted a inRun] at separates
          cases separates
  · exact .inr ⟨run, length, accepted, middle, after, by rw [List.append_assoc, ← rest]⟩

end HasRun

/-- Texts that stand in a text without a gap, the first one at its beginning. -/
structure StandIn (pieces : List Text) (text : Text) : Prop where
  first : ∀ piece, pieces.head? = some piece → piece <+: text
  each : ∀ piece ∈ pieces, piece <:+: text

namespace StandIn

variable {pieces : List Text} {text : Text}

theorem single : StandIn [[]] text where
  first := by simp
  each := by simp

theorem openPiece (stand : StandIn pieces text) (c : Char) :
    StandIn ([] :: pieces) (c :: text) where
  first := by simp
  each := by
    intro piece member
    rcases List.mem_cons.mp member with rfl | member
    · exact List.nil_infix
    · exact (stand.each piece member).trans (List.suffix_cons c text).isInfix

theorem push (stand : StandIn pieces text) (c : Char) :
    StandIn (Text.pushFirst c pieces) (c :: text) := by
  cases pieces with
  | nil => exact ⟨by simp [Text.pushFirst], by simp [Text.pushFirst, List.infix_cons_iff]⟩
  | cons head others =>
      have begins : c :: head <+: c :: text :=
        List.prefix_cons_inj c |>.mpr (stand.first head rfl)
      constructor
      · rintro piece ⟨⟩
        exact begins
      · intro piece member
        rcases List.mem_cons.mp member with rfl | member
        · exact begins.isInfix
        · have later := stand.each piece (List.mem_cons_of_mem head member)
          exact later.trans (List.suffix_cons c text).isInfix

end StandIn

namespace Text

variable {separator : Char} {text piece before after : Text}

theorem standIn_pieces (separator : Char) (text : Text) :
    StandIn (pieces separator text) text := by
  induction text with
  | nil => exact .single
  | cons c text induction =>
      rw [pieces]
      split
      · exact induction.openPiece c
      · exact induction.push c

theorem mem_of_mem_dropEmptyEnd {texts : List Text} (member : piece ∈ dropEmptyEnd texts) :
    piece ∈ texts := by
  rw [dropEmptyEnd, List.mem_reverse] at member
  exact List.mem_reverse.mp (List.dropWhile_sublist _ |>.mem member)

theorem cutFirst?_eq_some (cut : cutFirst? separator text = some (before, after)) :
    text = before ++ separator :: after := by
  induction text generalizing before after with
  | nil => cases cut
  | cons c text induction =>
      rw [cutFirst?] at cut
      split at cut
      next same =>
        cases cut
        rw [same, List.nil_append]
      next =>
        obtain ⟨⟨front, back⟩, found, equal⟩ := Option.map_eq_some_iff.mp cut
        cases equal
        rw [induction found, List.cons_append]

theorem cutLast?_eq_some (cut : cutLast? separator text = some (before, after)) :
    text = before ++ separator :: after := by
  obtain ⟨⟨back, front⟩, found, equal⟩ := Option.map_eq_some_iff.mp cut
  cases equal
  have reversed := cutFirst?_eq_some found
  rw [← List.reverse_reverse text, reversed]
  simp

end Text

variable {text piece line : Text} {count : Nat}

theorem infix_of_mem_commaFields (member : piece ∈ commaFields text) : piece <:+: text :=
  (Text.standIn_pieces ',' text).each piece (Text.mem_of_mem_dropEmptyEnd member)

theorem infix_of_mem_fields (member : piece ∈ fields text) : piece <:+: text :=
  (Text.standIn_pieces ' ' text).each piece (Text.mem_of_mem_dropEmptyEnd member)

theorem standIn_betweenBreaks (text : Text) : StandIn (betweenBreaks text) text := by
  induction text using betweenBreaks.induct with
  | case1 => exact .single
  | case2 text induction =>
      rw [betweenBreaks]
      have pieces := (induction.openPiece '\n').openPiece '\r'
      exact ⟨by simp, fun piece member => pieces.each piece (List.mem_cons_of_mem _ member)⟩
  | case3 c text notPair isBreak induction =>
      rw [betweenBreaks, if_pos isBreak]
      · exact induction.openPiece c
      · exact notPair
  | case4 c text notPair noBreak induction =>
      rw [betweenBreaks, if_neg noBreak]
      · exact induction.push c
      · exact notPair

theorem infix_of_mem_lines (member : line ∈ lines text) : line <:+: text := by
  refine (standIn_betweenBreaks text).each line ?_
  rw [lines] at member
  split at member
  · exact (List.dropLast_sublist _).mem member
  · exact member

theorem betweenBreaks_ne_nil (text : Text) : betweenBreaks text ≠ [] := by
  fun_cases betweenBreaks text with
  | case1 => simp
  | case2 text => simp
  | case3 c text isBreak notPair => simp
  | case4 c text noBreak notPair => exact Text.pushFirst_ne_nil c _

/-- Text without a break goes to the first piece of what follows. -/
theorem betweenBreaks_append {before : Text} (noFeed : '\n' ∉ before) (noReturn : '\r' ∉ before)
    {text first : Text} {others : List Text} (split : betweenBreaks text = first :: others) :
    betweenBreaks (before ++ text) = (before ++ first) :: others := by
  induction before with
  | nil => exact split
  | cons c before induction =>
      rw [List.mem_cons, not_or] at noFeed noReturn
      have notPair : ∀ rest, c = '\r' → before ++ text = '\n' :: rest → False :=
        fun _ same _ => noReturn.1 same.symm
      have noBreak : ¬(c = '\n' ∨ c = '\r') :=
        fun either => either.elim (fun same => noFeed.1 same.symm) fun same => noReturn.1 same.symm
      rw [List.cons_append, betweenBreaks, if_neg noBreak, induction noFeed.2 noReturn.2]
      · rfl
      · exact notPair

theorem betweenBreaks_append_cons {before : Text} (noFeed : '\n' ∉ before)
    (noReturn : '\r' ∉ before) (text : Text) :
    betweenBreaks (before ++ '\n' :: text) = before :: betweenBreaks text := by
  have split : betweenBreaks ('\n' :: text) = [] :: betweenBreaks text := rfl
  rw [betweenBreaks_append noFeed noReturn split, List.append_nil]

theorem lines_append_cons {before : Text} (noFeed : '\n' ∉ before) (noReturn : '\r' ∉ before)
    (text : Text) : lines (before ++ '\n' :: text) = before :: lines text := by
  obtain ⟨piece, pieces, same⟩ := List.exists_cons_of_ne_nil (betweenBreaks_ne_nil text)
  rw [lines, betweenBreaks_append_cons noFeed noReturn, lines]
  rw [same, List.getLast?_cons_cons, List.dropLast_cons_cons]
  split <;> rfl

/-- Text without a break begins the first line. -/
theorem head?_lines_append {before : Text} (nonempty : before ≠ []) (noFeed : '\n' ∉ before)
    (noReturn : '\r' ∉ before) (text : Text) :
    ∃ rest, (lines (before ++ text)).head? = some (before ++ rest) := by
  obtain ⟨first, others, split⟩ := List.exists_cons_of_ne_nil (betweenBreaks_ne_nil text)
  refine ⟨first, ?_⟩
  rw [lines, betweenBreaks_append noFeed noReturn split]
  cases others with
  | nil => simp [nonempty]
  | cons second others =>
      rw [List.dropLast_cons_cons]
      split <;> rfl

/-- The fields of a token stand in its line. -/
theorem infix_of_tokenize {token : Token} (found : tokenize line = .item (.token token)) :
    token.line = line ∧ ∀ argument ∈ token.arguments, argument <:+: line := by
  have ofItem : ∀ (deprecated : Bool) (body : Text), body <:+: line →
      itemOf deprecated line body = .token token →
        token.line = line ∧ ∀ argument ∈ token.arguments, argument <:+: line := by
    intro deprecated body within same
    rw [itemOf] at same
    split at same
    · cases same
    next keyword arguments split =>
      cases same
      refine ⟨rfl, ?_⟩
      intro argument member
      have field : argument ∈ fields body := split ▸ List.mem_cons_of_mem keyword member
      exact (infix_of_mem_fields field).trans within
  rw [tokenize] at found
  split at found
  · cases found
  · split at found
    · cases found
    · split at found
      · exact ofItem true _ (List.drop_suffix _ line).isInfix (LineItem.item.inj found)
      · exact ofItem false _ List.infix_rfl (LineItem.item.inj found)

/-- The items outside blocks come from lines. -/
theorem exists_line_of_mem_items {lines : List Text} {item : Item}
    (member : item ∈ Scan.items lines) : ∃ line ∈ lines, tokenize line = .item item := by
  rw [Scan.items, Scan.events] at member
  generalize (none : Option Nat) = state at member
  have later : ∀ {line : Text} {lines : List Text},
      (∃ other ∈ lines, tokenize other = .item item) →
        ∃ other ∈ line :: lines, tokenize other = .item item := by
    rintro line lines ⟨other, inside, found⟩
    exact ⟨other, List.mem_cons_of_mem line inside, found⟩
  induction state, lines using Scan.eventsFrom.induct with
  | case1 => cases member
  | case2 passed => cases member
  | case3 passed line lines closes induction =>
      rw [Scan.eventsFrom, if_pos closes] at member
      exact later (induction member)
  | case4 passed line lines closes induction =>
      rw [Scan.eventsFrom, if_neg closes] at member
      exact later (induction member)
  | case5 line lines edge found induction =>
      rw [Scan.eventsFrom, found] at member
      exact later (induction member)
  | case6 line lines edge found induction =>
      rw [Scan.eventsFrom, found] at member
      exact later (induction member)
  | case7 line lines first found induction =>
      rw [Scan.eventsFrom, found] at member
      rcases List.mem_cons.mp member with rfl | member
      · exact ⟨line, List.mem_cons_self, found⟩
      · exact later (induction member)

/-- The comma at the end of each argument keeps runs of digits apart. -/
theorem hasRun_of_joinListFrom {expected : String} {joined list : Text} {pieces : List Text}
    (result : joinListFrom line expected joined pieces = .ok list)
    (found : HasRun Char.isDigit count list) :
    ∃ piece ∈ joined :: pieces, HasRun Char.isDigit count piece := by
  induction pieces generalizing joined with
  | nil =>
      cases result
      exact ⟨list, List.mem_cons_self, found⟩
  | cons piece pieces induction =>
      rw [joinListFrom] at result
      split at result
      next last =>
        obtain ⟨other, member, run⟩ := induction result
        rcases List.mem_cons.mp member with rfl | member
        · rcases run.of_append last (by decide) with left | right
          · exact ⟨joined, List.mem_cons_self, left⟩
          · exact ⟨piece, by simp, right⟩
        · exact ⟨other, by simp [member], run⟩
      next => cases result

end RelayDescriptor
