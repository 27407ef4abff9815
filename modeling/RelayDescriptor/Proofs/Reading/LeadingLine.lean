import Mathlib.Tactic.MkIffOfInductiveProp
import RelayDescriptor.Proofs.Line.Blocks
import RelayDescriptor.Proofs.Ranges.LinePositions
import RelayDescriptor.Proofs.Reading.LineOffsets
import RelayDescriptor.Proofs.Reading.Openings
import RelayDescriptor.Proofs.Text.Separated

/-!
# Where the leading line begins

The leading line of a document is its first line below the annotations and outside
embedded blocks.  It begins at one position of the bytes.  A line above it that begins with
the keyword stands within an embedded block.
-/

namespace RelayDescriptor

namespace Scan

variable {item : Item} {state : Option Nat} {lines : List Text}

/-- Of the lines above the first item nothing is scanned but complete blocks. -/
theorem exists_of_head?_itemsOf (head : (itemsOf (eventsFrom state lines)).head? = some item) :
    ∃ above line below, lines = above ++ line :: below ∧
      (∀ event ∈ eventsFrom state above, ∃ passed, event = .blockClosed passed) ∧
      tokenize line = .item item := by
  induction state, lines using eventsFrom.induct with
  | case1 => cases head
  | case2 passed => cases head
  | case3 passed line lines closes induction =>
      rw [eventsFrom, if_pos closes] at head
      obtain ⟨above, first, below, rfl, closed, found⟩ := induction head
      refine ⟨line :: above, first, below, rfl, ?_, found⟩
      rw [eventsFrom, if_pos closes]
      exact List.forall_mem_cons.mpr ⟨⟨passed, rfl⟩, closed⟩
  | case4 passed line lines closes induction =>
      rw [eventsFrom, if_neg closes] at head
      obtain ⟨above, first, below, rfl, closed, found⟩ := induction head
      refine ⟨line :: above, first, below, rfl, ?_, found⟩
      rw [eventsFrom, if_neg closes]
      exact closed
  | case5 line lines edge tokenized induction =>
      rw [eventsFrom, tokenized] at head
      obtain ⟨above, first, below, rfl, closed, found⟩ := induction head
      refine ⟨line :: above, first, below, rfl, ?_, found⟩
      rw [eventsFrom, tokenized]
      exact closed
  | case6 line lines edge tokenized induction =>
      rw [eventsFrom, tokenized] at head
      obtain ⟨above, first, below, rfl, closed, found⟩ := induction head
      refine ⟨line :: above, first, below, rfl, ?_, found⟩
      rw [eventsFrom, tokenized]
      exact closed
  | case7 line lines first tokenized induction =>
      rw [eventsFrom, tokenized] at head
      obtain rfl : first = item := Option.some.inj head
      exact ⟨[], line, lines, rfl, by simp [eventsFrom], tokenized⟩

variable {events : List ScanEvent}

theorem itemsOf_of_blockClosed (closed : ∀ event ∈ events, ∃ passed, event = .blockClosed passed) :
    itemsOf events = [] := by
  rw [itemsOf, List.filterMap_eq_nil_iff]
  intro event member
  obtain ⟨passed, rfl⟩ := closed event member
  rfl

theorem leavesOpen_of_blockClosed
    (closed : ∀ event ∈ events, ∃ passed, event = .blockClosed passed) :
    ∀ event ∈ events, leavesOpen event = false := by
  intro event member
  obtain ⟨passed, rfl⟩ := closed event member
  rfl

end Scan

namespace Document

variable {keyword : Text} {raw : List UInt8} {position : Nat} {token : Token}

/-- The leading line of a document begins at a position of its bytes: a line begins there that is
a token with the keyword, and the lines above it are annotations and complete blocks. -/
@[mk_iff]
structure LeadsAt (keyword : Text) (raw : List UInt8) (position : Nat) (token : Token) : Prop where
  first : (items raw).head? = some (.token token)
  cut : IsCut (raw.take position) (raw.drop position)
  nothing : Scan.items (parts (raw.take position)).2 = []
  outside : Scan.EndsOutside (parts (raw.take position)).2
  line : (lines (Utf8.decode (raw.drop position))).head? = some token.line
  tokenized : tokenize token.line = .item (.token token)
  keyword : token.keyword = keyword

instance (keyword : Text) (raw : List UInt8) (position : Nat) (token : Token) :
    Decidable (LeadsAt keyword raw position token) :=
  decidable_of_iff _ (leadsAt_iff keyword raw position token).symm

theorem splitAnnotations_takeWhile_append {all above below : List Text}
    (split : (splitAnnotations all).2 = above ++ below) :
    (splitAnnotations (all.takeWhile isAnnotation ++ above)).2 = above := by
  rw [splitAnnotations, List.span_eq_takeWhile_dropWhile] at split ⊢
  dsimp only at split ⊢
  rw [List.dropWhile_append_of_pos fun line member => List.mem_takeWhile_imp member]
  cases above with
  | nil => rfl
  | cons line above =>
      have unmarked := List.head?_dropWhile_not isAnnotation all
      rw [split] at unmarked
      exact List.dropWhile_cons_of_neg (Bool.eq_false_iff.mp unmarked)

theorem exists_leadsAt (first : (items raw).head? = some (.token token))
    (leads : token.keyword = keyword) : ∃ position, LeadsAt keyword raw position token := by
  obtain ⟨above, line, below, split, closed, tokenized⟩ := Scan.exists_of_head?_itemsOf first
  have same : token.line = line := (infix_of_tokenize tokenized).1
  have whole : lines (Utf8.decode raw) =
      ((lines (Utf8.decode raw)).takeWhile isAnnotation ++ above) ++ line :: below := by
    rw [List.append_assoc, ← split, parts, splitAnnotations, List.span_eq_takeWhile_dropWhile,
      List.takeWhile_append_dropWhile]
  obtain ⟨front, back, rfl, cut, linesFront, linesBack⟩ := exists_cut whole
  have partsFront : (parts front).2 = above := by
    rw [parts, linesFront]
    exact splitAnnotations_takeWhile_append split
  refine ⟨front.length, ?_⟩
  constructor
  · exact first
  · rw [List.take_left, List.drop_left]
    exact cut
  · rw [List.take_left, partsFront]
    exact Scan.itemsOf_of_blockClosed closed
  · rw [List.take_left, partsFront]
    exact Scan.leavesOpen_of_blockClosed closed
  · rw [List.drop_left, linesBack, same]
    rfl
  · rw [same]
    exact tokenized
  · exact leads

theorem isCut_of_isLineStart (starts : IsLineStart raw position) :
    IsCut (raw.take position) (raw.drop position) := by
  rcases starts with rfl | feed
  · exact .inl rfl
  · by_cases zero : position = 0
    · subst zero
      exact .inl rfl
    · refine .inr (.inl ?_)
      rw [List.getLast?_take, if_neg zero, feed, Option.some_or]

namespace LeadsAt

variable {earlier : Nat}

theorem lt_length (leads : LeadsAt keyword raw position token) : position < raw.length := by
  by_contra beyond
  have line := leads.line
  rw [List.drop_eq_nil_of_le (Nat.le_of_not_lt beyond)] at line
  cases line

/-- No line above the leading line is an item outside blocks. -/
theorem not_item (leads : LeadsAt keyword raw position token) (before : earlier < position)
    (cut : IsCut (raw.take earlier) (raw.drop earlier))
    (outside : Scan.EndsOutside (parts (raw.take earlier)).2) {line : Text}
    (head : (lines (Utf8.decode (raw.drop earlier))).head? = some line)
    (unmarked : isAnnotation line = false) (item : Item) : tokenize line ≠ .item item := by
  intro tokenized
  obtain ⟨count, rfl⟩ := Nat.exists_eq_add_of_le (Nat.le_of_lt before)
  -- The bytes between the two positions are decoded to lines of their own.
  have nonempty : (raw.drop earlier).take count ≠ [] := by
    have bound := leads.lt_length
    rw [← List.length_pos_iff, List.length_take, List.length_drop]
    omega
  have upper : IsCut (raw.take earlier) ((raw.drop earlier).take count) := by
    have same : ((raw.drop earlier).take count).head? = (raw.drop earlier).head? := by
      rw [List.head?_take, if_neg (by omega)]
    rw [IsCut, same]
    exact cut
  have lower : IsCut ((raw.drop earlier).take count) ((raw.drop earlier).drop count) := by
    have whole := leads.cut
    rw [List.take_add, isCut_append_iff nonempty] at whole
    rw [List.drop_drop]
    exact whole
  have first : (lines (Utf8.decode ((raw.drop earlier).take count))).head? = some line := by
    rw [← List.take_append_drop count (raw.drop earlier), lines_decode_append lower,
      List.head?_append_of_ne_nil _ (lines_decode_ne_nil nonempty)] at head
    exact head
  obtain ⟨others, split⟩ := List.head?_eq_some_iff.mp first
  have below : ∀ other, (line :: others).head? = some other → isAnnotation other = false := by
    rintro _ ⟨⟩
    exact unmarked
  have nothing := leads.nothing
  rw [parts, List.take_add, lines_decode_append upper, split, splitAnnotations_append (.inr below),
    ← parts, Scan.items_append outside, Scan.items_cons tokenized] at nothing
  simp at nothing

end LeadsAt

end Document

/-! ## Lines that begin with the keyword -/

theorem prefix_of_fields {line first : Text} {others : List Text}
    (split : fields line = first :: others) : first <+: line := by
  obtain ⟨_, _, count, joined⟩ := Text.dropEmptyEnd_pieces_eq_iff.mp split
  rw [joined]
  refine List.IsPrefix.trans ?_ (List.prefix_append _ _)
  cases others with
  | nil => exact List.prefix_refl first
  | cons next others =>
      have joined : Text.joinWith [' '] (first :: next :: others) =
          first ++ ([' '] ++ Text.joinWith [' '] (next :: others)) := by simp [Text.joinWith]
      rw [joined]
      exact List.prefix_append first _

/-- A line begins with its keyword, unless that is marked as deprecated. -/
theorem prefix_of_tokenize {line : Text} {token : Token}
    (tokenized : tokenize line = .item (.token token)) (plain : token.deprecated = false) :
    token.keyword <+: line := by
  have ofItem : ∀ {deprecated : Bool} {body : Text}, itemOf deprecated line body = .token token →
      deprecated = token.deprecated ∧ token.keyword <+: body := by
    intro deprecated body same
    rw [itemOf] at same
    split at same
    next => cases same
    next keyword arguments split =>
      cases same
      exact ⟨rfl, prefix_of_fields split⟩
  rw [tokenize] at tokenized
  split at tokenized
  next => cases tokenized
  next =>
    split at tokenized
    next => cases tokenized
    next =>
      split at tokenized
      next =>
        have marked := (ofItem (LineItem.item.inj tokenized)).1
        rw [plain] at marked
        cases marked
      next => exact (ofItem (LineItem.item.inj tokenized)).2

/-- A keyword that no other beginning of a line can be taken for. -/
structure IsDistinctKeyword (keyword : Text) : Prop extends IsLeadingKeyword keyword where
  noDash : keyword.head? ≠ some '-'
  notOption : ¬keyword <+: optional
  marks : ∀ c ∈ keyword, Utf8.IsMark c

theorem Registry.isDistinctKeyword_of_mem_standard {grammar : Grammar}
    (member : grammar ∈ standard) : IsDistinctKeyword grammar.leading := by
  have beginnings : ∀ grammar ∈ standard, grammar.leading.head? ≠ some '-' ∧
      grammar.leading.isPrefixOf optional = false := by decide
  have marks : ∀ grammar ∈ standard,
      grammar.leading.all (fun c => decide (Utf8.IsMark c)) = true := by decide
  obtain ⟨noDash, notOption⟩ := beginnings grammar member
  refine ⟨isLeadingKeyword_of_mem_standard member, noDash, ?_, ?_⟩
  · rw [← List.isPrefixOf_iff_prefix, notOption]
    exact Bool.false_ne_true
  · intro c inside
    exact of_decide_eq_true (List.all_eq_true.mp (marks grammar member) c inside)

namespace IsDistinctKeyword

variable {keyword : Text} {bytes : List UInt8}

/-- A line that begins with the characters of the keyword is a token, though perhaps with another
keyword. -/
theorem exists_tokenize (distinct : IsDistinctKeyword keyword) (rest : Text) :
    ∃ token, tokenize (keyword ++ rest) = .item (.token token) ∧ token.deprecated = false := by
  obtain ⟨c, others, same⟩ := List.exists_cons_of_ne_nil distinct.nonempty
  have noEdge : ∀ {pattern : Text}, pattern.head? = some '-' →
      pattern.isPrefixOf (keyword ++ rest) = false := by
    intro pattern dash
    obtain ⟨more, rfl⟩ := List.head?_eq_some_iff.mp dash
    rw [Bool.eq_false_iff]
    intro occurs
    rw [same] at occurs
    obtain ⟨equal, _⟩ := List.cons_prefix_cons.mp (List.isPrefixOf_iff_prefix.mp occurs)
    exact distinct.noDash (by rw [same, equal]; rfl)
  have notOpening : opensBlock (keyword ++ rest) = false := noEdge rfl
  have notClosing : closesBlock (keyword ++ rest) = false := noEdge rfl
  have notOptional : optional.isPrefixOf (keyword ++ rest) = false := by
    rw [Bool.eq_false_iff]
    intro occurs
    rcases List.prefix_or_prefix_of_prefix (List.isPrefixOf_iff_prefix.mp occurs)
      (List.prefix_append keyword rest) with short | long
    · exact distinct.noSpace (short.subset (by decide))
    · exact distinct.notOption long
  have nonempty : fields (keyword ++ rest) ≠ [] := by
    intro empty
    obtain ⟨_, _, count, joined⟩ := Text.dropEmptyEnd_pieces_eq_iff.mp empty
    have first : c ∈ List.replicate count ' ' := by
      rw [show List.replicate count ' ' = keyword ++ rest from joined.symm, same]
      exact List.mem_cons_self
    have space : ' ' ∈ keyword := by
      rw [same, ← List.eq_of_mem_replicate first]
      exact List.mem_cons_self
    exact distinct.noSpace space
  obtain ⟨first, arguments, split⟩ := List.exists_cons_of_ne_nil nonempty
  refine ⟨⟨first, arguments, keyword ++ rest, false⟩, ?_, rfl⟩
  simp only [tokenize, notOpening, notClosing, notOptional, Bool.false_eq_true, ↓reduceIte,
    itemOf, split]

theorem exists_head? (distinct : IsDistinctKeyword keyword)
    (begins : keyword.map Ascii.byte <+: bytes) :
    ∃ rest, (lines (Utf8.decode bytes)).head? = some (keyword ++ rest) := by
  obtain ⟨rest, rfl⟩ := begins
  rw [Utf8.decode_append_of_isAscii distinct.ascii]
  exact head?_lines_append distinct.nonempty distinct.noFeed distinct.noReturn _

end IsDistinctKeyword

namespace Document

variable {keyword : Text} {raw : List UInt8} {position : Nat} {token : Token}

namespace LeadsAt

variable {earlier : Nat}

/-- The search for the keyword comes upon the leading line if that begins behind a line feed and
its keyword is not marked as deprecated. -/
theorem lineAt_iff (leads : LeadsAt keyword raw position token)
    (distinct : IsDistinctKeyword keyword) :
    LineAt (keyword.map Ascii.byte) raw position ↔
      IsLineStart raw position ∧ token.deprecated = false := by
  constructor
  · rintro ⟨starts, begins⟩
    refine ⟨starts, ?_⟩
    obtain ⟨rest, head⟩ := distinct.exists_head? begins
    obtain ⟨other, tokenized, plain⟩ := distinct.exists_tokenize rest
    have same : token.line = keyword ++ rest := Option.some.inj (leads.line.symm.trans head)
    rw [← same, leads.tokenized] at tokenized
    cases tokenized
    exact plain
  · rintro ⟨starts, plain⟩
    refine ⟨starts, ?_⟩
    obtain ⟨front, within, same⟩ := exists_prefix_of_head? leads.line
    have begins : keyword <+: Utf8.decode front := by
      rw [same, ← leads.keyword]
      exact prefix_of_tokenize leads.tokenized plain
    exact ((Utf8.prefix_decode_iff distinct.marks).mp begins).trans within

/-- A line above the leading line that begins with the keyword stands within a block. -/
theorem not_endsOutside (leads : LeadsAt keyword raw position token)
    (distinct : IsDistinctKeyword keyword) (before : earlier < position)
    (line : LineAt (keyword.map Ascii.byte) raw earlier) :
    ¬Scan.EndsOutside (parts (raw.take earlier)).2 := by
  intro outside
  obtain ⟨rest, head⟩ := distinct.exists_head? line.2
  obtain ⟨other, tokenized, _⟩ := distinct.exists_tokenize rest
  exact leads.not_item before (isCut_of_isLineStart line.1) outside head
    (distinct.isAnnotation_append rest) _ tokenized

theorem isAnnotation_line (leads : LeadsAt keyword raw position token)
    (distinct : IsDistinctKeyword keyword) : isAnnotation token.line = false := by
  rw [Bool.eq_false_iff]
  intro marked
  obtain ⟨rest, same⟩ := List.head?_eq_some_iff.mp (of_decide_eq_true marked)
  have tokenized := leads.tokenized
  have plain : token.deprecated = false := by
    rw [same, show tokenize ('@' :: rest) =
      .item (itemOf false ('@' :: rest) ('@' :: rest)) from rfl, itemOf] at tokenized
    split at tokenized
    next => cases tokenized
    next =>
      obtain rfl := Item.token.inj (LineItem.item.inj tokenized)
      rfl
  obtain ⟨others, line⟩ := prefix_of_tokenize leads.tokenized plain
  have unmarked := distinct.isAnnotation_append others
  rw [← leads.keyword, line, marked] at unmarked
  cases unmarked

/-- There is only one leading line. -/
theorem unique (leads : LeadsAt keyword raw position token)
    (distinct : IsDistinctKeyword keyword) {otherToken : Token}
    (other : LeadsAt keyword raw earlier otherToken) : earlier = position := by
  rcases Nat.lt_trichotomy earlier position with before | same | after
  · exact absurd other.tokenized (leads.not_item before other.cut other.outside other.line
      (other.isAnnotation_line distinct) _)
  · exact same
  · exact absurd leads.tokenized (other.not_item after leads.cut leads.outside leads.line
      (leads.isAnnotation_line distinct) _)

end LeadsAt

end Document

end RelayDescriptor
