import RelayDescriptor.Grammar.Decoder
import RelayDescriptor.Proofs.Text.Separated

/-!
# Lines and their fields

Behind the mark of a deprecated keyword, a line that is no edge of a block is its fields with
single spaces between them and any number of spaces behind them.  The other way round, fields
that can be told apart are found again in the line that they are joined to, and the mark
changes nothing of what is found.  A text field holds what stands behind the keyword, but for
the spaces at the end.
-/

namespace RelayDescriptor

variable {line body keyword : Text} {arguments texts : List Text} {trailing : Nat}
  {deprecated : Bool} {item : Item} {token : Token}

/-- A line opens or closes an embedded block. -/
def IsBlockEdge (line : Text) : Prop := blockOpening <+: line ∨ blockClosing <+: line

instance (line : Text) : Decidable (IsBlockEdge line) := inferInstanceAs (Decidable (_ ∨ _))

/-- A line without the mark of a deprecated keyword. -/
def unmarked (line : Text) : Text :=
  if optional.isPrefixOf line then line.drop optional.length else line

/-- Texts that can be told apart when spaces separate them, and from spaces behind them. -/
structure AreFields (texts : List Text) : Prop where
  apart : ∀ text ∈ texts, ' ' ∉ text
  last : texts.getLast? ≠ some []

/-- Texts with single spaces between them and some spaces behind them. -/
def spacedOut (texts : List Text) (trailing : Nat) : Text :=
  Text.joinWith [' '] texts ++ List.replicate trailing ' '

theorem fields_eq_iff :
    fields body = texts ↔ AreFields texts ∧ ∃ trailing, body = spacedOut texts trailing := by
  constructor
  · intro cut
    obtain ⟨apart, last, joined⟩ := Text.dropEmptyEnd_pieces_eq_iff.mp cut
    exact ⟨⟨apart, last⟩, joined⟩
  · intro spaced
    obtain ⟨⟨apart, last⟩, joined⟩ := spaced
    exact Text.dropEmptyEnd_pieces_eq_iff.mpr ⟨apart, last, joined⟩

theorem fields_eq_nil_iff : fields body = [] ↔ ∀ c ∈ body, c = ' ' := by
  constructor
  · intro none c member
    obtain ⟨_, trailing, spaces⟩ := fields_eq_iff.mp none
    rw [spaces] at member
    exact List.eq_of_mem_replicate member
  · intro spaces
    apply fields_eq_iff.mpr
    exact ⟨⟨by simp, by simp⟩, body.length, List.eq_replicate_iff.mpr ⟨rfl, spaces⟩⟩

theorem itemOf_of_spaces (spaces : ∀ c ∈ body, c = ' ') :
    itemOf deprecated line body = .blank line := by
  simp only [itemOf, fields_eq_nil_iff.mpr spaces]

theorem itemOf_of_areFields (areFields : AreFields (keyword :: arguments)) :
    itemOf deprecated line (spacedOut (keyword :: arguments) trailing) =
      .token ⟨keyword, arguments, line, deprecated⟩ := by
  have cut : fields (spacedOut (keyword :: arguments) trailing) = keyword :: arguments :=
    fields_eq_iff.mpr ⟨areFields, trailing, rfl⟩
  simp only [itemOf, cut]

/-- What is not made of spaces alone has a first field. -/
theorem exists_areFields (visible : ∃ c ∈ body, c ≠ ' ') :
    ∃ keyword arguments trailing, AreFields (keyword :: arguments) ∧
      body = spacedOut (keyword :: arguments) trailing := by
  have nonempty : fields body ≠ [] := by
    intro none
    obtain ⟨c, member, other⟩ := visible
    exact other (fields_eq_nil_iff.mp none c member)
  obtain ⟨keyword, arguments, cut⟩ := List.exists_cons_of_ne_nil nonempty
  obtain ⟨areFields, trailing, joined⟩ := fields_eq_iff.mp cut
  exact ⟨keyword, arguments, trailing, areFields, joined⟩

theorem tokenize_of_not_isBlockEdge (content : ¬IsBlockEdge line) :
    tokenize line = .item (itemOf (optional.isPrefixOf line) line (unmarked line)) := by
  obtain ⟨notOpening, notClosing⟩ := not_or.mp content
  have opens : ¬opensBlock line = true := mt List.isPrefixOf_iff_prefix.mp notOpening
  have closes : ¬closesBlock line = true := mt List.isPrefixOf_iff_prefix.mp notClosing
  rw [tokenize, if_neg opens, if_neg closes, unmarked]
  cases optional.isPrefixOf line <;> rfl

theorem tokenize_of_unmarked (plain : ¬optional <+: line) (content : ¬IsBlockEdge line) :
    tokenize line = .item (itemOf false line line) := by
  have unmarkedBefore : optional.isPrefixOf line = false :=
    Bool.eq_false_iff.mpr (mt List.isPrefixOf_iff_prefix.mp plain)
  rw [tokenize_of_not_isBlockEdge content, unmarked, unmarkedBefore]
  rfl

theorem exists_tokenize_eq_token (content : ¬IsBlockEdge line)
    (visible : ∃ c ∈ unmarked line, c ≠ ' ') :
    ∃ keyword arguments trailing, AreFields (keyword :: arguments) ∧
      unmarked line = spacedOut (keyword :: arguments) trailing ∧
        tokenize line = .item (.token ⟨keyword, arguments, line, optional.isPrefixOf line⟩) := by
  obtain ⟨keyword, arguments, trailing, areFields, joined⟩ := exists_areFields visible
  refine ⟨keyword, arguments, trailing, areFields, joined, ?_⟩
  rw [tokenize_of_not_isBlockEdge content, joined, itemOf_of_areFields areFields]

theorem tokenize_eq_blank_iff (content : ¬IsBlockEdge line) :
    tokenize line = .item (.blank line) ↔ ∀ c ∈ unmarked line, c = ' ' := by
  constructor
  · intro blank
    by_contra visible
    push Not at visible
    obtain ⟨keyword, arguments, trailing, _, _, token⟩ := exists_tokenize_eq_token content visible
    rw [blank] at token
    cases token
  · intro spaces
    rw [tokenize_of_not_isBlockEdge content, itemOf_of_spaces spaces]

theorem not_isBlockEdge_of_tokenize (found : tokenize line = .item item) : ¬IsBlockEdge line := by
  intro edge
  rw [tokenize] at found
  by_cases opens : opensBlock line = true
  · rw [if_pos opens] at found
    cases found
  · have closes : closesBlock line = true :=
      List.isPrefixOf_iff_prefix.mpr (edge.resolve_left (mt List.isPrefixOf_iff_prefix.mpr opens))
    rw [if_neg opens, if_pos closes] at found
    cases found

/-! ## Text behind the keyword -/

/-- What stands in a line behind a keyword and a space, but for the spaces at the end. -/
def behind (keyword body : Text) : Text :=
  (body.drop (keyword.length + 1)).rdropWhile (· = ' ')

namespace AreFields

theorem tail (areFields : AreFields (keyword :: arguments)) : AreFields arguments := by
  obtain ⟨apart, last⟩ := areFields
  constructor
  · exact (List.forall_mem_cons.mp apart).2
  · cases arguments with
    | nil => simp
    | cons next others => rwa [List.getLast?_cons_cons] at last

theorem exists_joinWith (areFields : AreFields texts) (nonempty : texts ≠ []) :
    ∃ before c, Text.joinWith [' '] texts = before ++ [c] ∧ c ≠ ' ' := by
  obtain ⟨others, last, rfl⟩ := (List.eq_nil_or_concat' texts).resolve_left nonempty
  have visible : last ≠ [] := by
    intro empty
    apply areFields.last
    rw [List.getLast?_concat, empty]
  obtain ⟨front, c, rfl⟩ := (List.eq_nil_or_concat' last).resolve_left visible
  have other : c ≠ ' ' := by
    rintro rfl
    exact areFields.apart (front ++ [' ']) (by simp) (by simp)
  by_cases single : others = []
  · exact ⟨front, c, by rw [single]; rfl, other⟩
  · refine ⟨Text.joinWith [' '] others ++ ' ' :: front, c, ?_, other⟩
    rw [Text.joinWith_concat single, List.append_assoc, List.cons_append]

theorem rdropWhile_spacedOut (areFields : AreFields texts) :
    (spacedOut texts trailing).rdropWhile (· = ' ') = Text.joinWith [' '] texts := by
  induction trailing with
  | zero =>
      rw [spacedOut, List.replicate_zero, List.append_nil]
      cases texts with
      | nil => rfl
      | cons keyword arguments =>
          obtain ⟨before, c, joined, other⟩ :=
            areFields.exists_joinWith (List.cons_ne_nil keyword arguments)
          rw [joined]
          exact List.rdropWhile_concat_neg _ _ _ (by simpa using other)
  | succ trailing induction =>
      rw [spacedOut, List.replicate_succ', ← List.append_assoc,
        List.rdropWhile_concat_pos _ _ _ (by rfl)]
      exact induction

theorem behind_spacedOut (areFields : AreFields (keyword :: arguments)) :
    behind keyword (spacedOut (keyword :: arguments) trailing) = Text.joinWith [' '] arguments := by
  cases arguments with
  | nil =>
      have spaces : (spacedOut [keyword] trailing).drop (keyword.length + 1) =
          spacedOut [] (trailing - 1) := by
        simp [spacedOut, Text.joinWith, List.drop_append]
      rw [behind, spaces, areFields.tail.rdropWhile_spacedOut]
  | cons next others =>
      have further : (spacedOut (keyword :: next :: others) trailing).drop (keyword.length + 1) =
          spacedOut (next :: others) trailing := by
        simp [spacedOut, Text.joinWith, List.drop_append]
      rw [behind, further, areFields.tail.rdropWhile_spacedOut]

end AreFields

theorem updates_text (found : tokenize line = .item (.token token)) (field : String) :
    (Decoder.text field).updates token =
      .ok [(field, .text (behind token.keyword (unmarked line)))] := by
  have content := not_isBlockEdge_of_tokenize found
  have visible : ∃ c ∈ unmarked line, c ≠ ' ' := by
    by_contra spaces
    push Not at spaces
    rw [(tokenize_eq_blank_iff content).mpr spaces] at found
    cases found
  obtain ⟨keyword, arguments, trailing, areFields, joined, same⟩ :=
    exists_tokenize_eq_token content visible
  rw [found] at same
  cases same
  rw [joined, areFields.behind_spacedOut]
  rfl

/-! ## The mark of a deprecated keyword -/

namespace Item

/-- The item of a line with the mark of a deprecated keyword put in front of it. -/
def marked : Item → Item
  | .token t => .token { t with line := optional ++ t.line, deprecated := true }
  | .blank line => .blank (optional ++ line)

end Item

theorem marked_itemOf :
    (itemOf deprecated line body).marked = itemOf true (optional ++ line) body := by
  cases cut : fields body with
  | nil => simp only [itemOf, cut, Item.marked]
  | cons keyword arguments => simp only [itemOf, cut, Item.marked]

/-- A marked line is no edge of a block, whatever follows the mark. -/
theorem tokenize_optional_append (line : Text) :
    tokenize (optional ++ line) = .item (itemOf true (optional ++ line) line) := rfl

/-- A line that is no edge of a block is blank if it has nothing but spaces behind its mark; else it
is a token, and its fields, none of which holds a space and the last of which is not empty, are
what makes up the line behind its mark, but for spaces at the end; so a text field holds all that
stands behind the keyword, but for these spaces.  Such fields are found again in what they are
joined to, and a mark changes nothing of what is found but that it is there. -/
theorem tokenize_inverse :
    (∀ line, ¬IsBlockEdge line →
      (tokenize line = .item (.blank line) ↔ ∀ c ∈ unmarked line, c = ' ') ∧
        ((∃ c ∈ unmarked line, c ≠ ' ') →
          ∃ keyword arguments trailing, AreFields (keyword :: arguments) ∧
            unmarked line = spacedOut (keyword :: arguments) trailing ∧
              tokenize line =
                .item (.token ⟨keyword, arguments, line, optional.isPrefixOf line⟩))) ∧
    (∀ line token field, tokenize line = .item (.token token) →
      (Decoder.text field).updates token =
        .ok [(field, .text (behind token.keyword (unmarked line)))]) ∧
    (∀ keyword arguments trailing, AreFields (keyword :: arguments) →
      let line := spacedOut (keyword :: arguments) trailing
      ¬optional <+: line → ¬IsBlockEdge line →
        tokenize line = .item (.token ⟨keyword, arguments, line, false⟩)) ∧
    ∀ line, ¬optional <+: line → ¬IsBlockEdge line →
      ∃ item, tokenize line = .item item ∧ tokenize (optional ++ line) = .item item.marked := by
  refine ⟨?_, ?_, ?_, ?_⟩
  · intro line content
    exact ⟨tokenize_eq_blank_iff content, exists_tokenize_eq_token content⟩
  · intro line token field found
    exact updates_text found field
  · intro keyword arguments trailing areFields line plain content
    rw [tokenize_of_unmarked plain content]
    exact congrArg LineItem.item (itemOf_of_areFields areFields)
  · intro line plain content
    refine ⟨itemOf false line line, tokenize_of_unmarked plain content, ?_⟩
    rw [tokenize_optional_append, marked_itemOf]

/-- A line with an empty keyword, empty fields and a space at its end, and a mark without fields. -/
theorem tokenize_inverse_padded :
    let line := " a  b ".toList
    let texts := [[], ['a'], [], ['b']]
    (∃ keyword arguments trailing, AreFields (keyword :: arguments) ∧
      line = spacedOut (keyword :: arguments) trailing ∧
        tokenize (optional ++ line) =
          .item (.token ⟨keyword, arguments, optional ++ line, true⟩)) ∧
      tokenize (optional ++ [' ']) = .item (.blank (optional ++ [' '])) ∧
      (AreFields texts ∧ ¬optional <+: line ∧ ¬IsBlockEdge line ∧
        tokenize line = .item (.token ⟨[], texts.tail, line, false⟩)) ∧
      (Decoder.text "contact").updates ⟨[], texts.tail, line, false⟩ =
        .ok [("contact", .text "a  b".toList)] ∧
      ∃ item, tokenize line = .item item ∧ tokenize (optional ++ line) = .item item.marked := by
  intro line texts
  obtain ⟨cut, text, join, mark⟩ := tokenize_inverse
  have areFields : AreFields texts := ⟨by decide, by decide⟩
  have plain : ¬optional <+: line := by decide
  have content : ¬IsBlockEdge line := by decide
  have found := join [] texts.tail 1 areFields plain content
  refine ⟨?_, ?_, ?_, ?_, ?_⟩
  · exact (cut (optional ++ line) (by decide)).2 ⟨'a', by decide, by decide⟩
  · exact (cut (optional ++ [' ']) (by decide)).1.mpr (List.forall_mem_singleton.mpr rfl)
  · exact ⟨areFields, plain, content, found⟩
  · exact text line _ "contact" found
  · exact mark line plain content

end RelayDescriptor
