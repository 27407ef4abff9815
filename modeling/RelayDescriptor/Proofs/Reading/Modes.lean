import RelayDescriptor.Grammar.Registry
import RelayDescriptor.Proofs.Reading.Parsing

/-!
# Strict and tolerant reading

The two ways to read a document differ in one place: a line that is not recognized
breaks a rule in strict reading and is kept in tolerant reading.  A wrong first line
is reported before such a line, and everything else after it.
-/

namespace RelayDescriptor

namespace Grammar

variable {grammar : Grammar} {strict : Bool} {item : Item} {items : List Item}

/-- A line has a keyword that may occur. -/
def Recognizes (grammar : Grammar) (item : Item) : Prop :=
  ∃ token, item = .token token ∧ token.keyword ∈ grammar.recognized

instance (grammar : Grammar) (item : Item) : Decidable (grammar.Recognizes item) :=
  match item with
  | .token token => decidable_of_iff (token.keyword ∈ grammar.recognized) (by simp [Recognizes])
  | .blank _ => .isFalse (by simp [Recognizes])

theorem recognize?_isNone_iff :
    ((grammar.lineRules strict).recognize? item).isNone = true ↔ ¬grammar.Recognizes item := by
  cases item with
  | blank line => simp [LineRules.recognize?, Item.token?, Recognizes]
  | token token => simp [LineRules.recognize?, Item.token?, Recognizes, lineRules]

theorem firstUnrecognized?_eq_none_iff :
    (grammar.lineRules strict).firstUnrecognized? items = none ↔
      ∀ item ∈ items, grammar.Recognizes item := by
  simp only [LineRules.firstUnrecognized?, List.find?_eq_none, recognize?_isNone_iff, not_not]

theorem firstUnrecognized?_eq_some_iff :
    (grammar.lineRules strict).firstUnrecognized? items = some item ↔
      ¬grammar.Recognizes item ∧ ∃ above below, items = above ++ item :: below ∧
        ∀ earlier ∈ above, grammar.Recognizes earlier := by
  simp only [LineRules.firstUnrecognized?, List.find?_eq_some_iff_append, Bool.not_eq_true',
    ← Bool.not_eq_true, recognize?_isNone_iff, not_not]

theorem unrecognizedLines_eq_nil_iff :
    (grammar.lineRules strict).unrecognizedLines items = [] ↔
      ∀ item ∈ items, grammar.Recognizes item := by
  simp only [LineRules.unrecognizedLines, List.map_eq_nil_iff, List.filter_eq_nil_iff,
    recognize?_isNone_iff, not_not]

/-- Where all lines are recognized, strict reading finds what tolerant reading finds. -/
theorem validate_strict_of_recognized (recognized : ∀ item ∈ items, grammar.Recognizes item) :
    (grammar.lineRules true).validate items = (grammar.lineRules false).validate items := by
  have none : (grammar.lineRules true).strictViolation? items = none := by
    rw [LineRules.strictViolation?, firstUnrecognized?_eq_none_iff.mpr recognized]
    rfl
  have same : (grammar.lineRules true).violation? items =
      (grammar.lineRules false).violation? items := by
    rw [LineRules.violation?, none]
    rfl
  rw [LineRules.validate_eq_verdict, LineRules.validate_eq_verdict, LineRules.verdict, same]
  rfl

theorem validate_of_wrongLeading {first : Item} {others : List Item}
    (wrong : first.keyword? ≠ some grammar.leading) :
    (grammar.lineRules strict).validate (first :: others) =
      .error (.wrongLeading grammar.leading first.line) := by
  rw [LineRules.validate_eq_error_iff, LineRules.violation?, LineRules.leadingViolation?]
  exact congrArg (Option.or · _) (if_neg wrong)

/-- After the right first line, strict reading reports the first line that is not recognized. -/
theorem validate_strict_of_unrecognized {first : Item}
    (head : items.head? = some first) (leading : first.keyword? = some grammar.leading)
    (found : (grammar.lineRules true).firstUnrecognized? items = some item) :
    (grammar.lineRules true).validate items = .error (.unrecognized item.keyword? item.line) := by
  have opened : (grammar.lineRules true).leadingViolation? items = none := by
    cases items with
    | nil => cases head
    | cons other others =>
        cases head
        exact if_pos leading
  rw [LineRules.validate_eq_error_iff, LineRules.violation?, opened, LineRules.strictViolation?,
    found]
  rfl

/-- Without a cap, all unrecognized lines of a valid document are kept. -/
theorem unrecognized_of_validate (uncapped : grammar.cap = none) {checked : Validated}
    (valid : (grammar.lineRules strict).validate items = .ok checked) :
    checked.unrecognized = (grammar.lineRules strict).unrecognizedLines items := by
  obtain ⟨_, rfl⟩ := LineRules.validate_eq_ok_iff.mp valid
  rw [LineRules.extract, LineRules.kept, show (grammar.lineRules strict).cap = none from uncapped]

theorem cap_of_mem_standard (member : grammar ∈ Registry.standard) : grammar.cap = none := by
  have all : ∀ grammar ∈ Registry.standard, grammar.cap = none := by decide
  exact all grammar member

end Grammar

namespace Document

variable {blob : Blob} {range : ByteRange} {grammar : Grammar} {strict : Bool}
  {origin : Option Text} {document : Document}

/-- The lines of a document below its annotations and outside embedded blocks. -/
def items (raw : List UInt8) : List Item := Scan.items (parts raw).2

theorem parse_strict_of_validated
    (same : validated grammar true (blob.slice range) =
      validated grammar false (blob.slice range)) :
    parse blob range grammar true origin = parse blob range grammar false origin := by
  rw [parse, parse, same]

/-- A parsed document keeps no unrecognized line exactly if all its lines are recognized. -/
theorem unrecognized_eq_nil_iff (uncapped : grammar.cap = none)
    (parsed : parse blob range grammar strict origin = .ok document) :
    document.unrecognized = [] ↔
      ∀ item ∈ items (blob.slice range), grammar.Recognizes item := by
  obtain ⟨checked, record, valid, _, rfl⟩ := exists_validated_of_parse parsed
  rw [assembled, Grammar.unrecognized_of_validate uncapped valid,
    Grammar.unrecognizedLines_eq_nil_iff]
  rfl

theorem parse_of_wrongLeading {first : Item} (head : (items (blob.slice range)).head? = some first)
    (wrong : first.keyword? ≠ some grammar.leading) :
    parse blob range grammar strict origin =
      .error (.violation (.wrongLeading grammar.leading first.line)) := by
  apply parse_of_invalid
  obtain ⟨others, split⟩ := List.head?_eq_some_iff.mp head
  rw [validated, show Scan.items _ = first :: others from split]
  exact Grammar.validate_of_wrongLeading wrong

theorem parse_strict_of_unrecognized {first item : Item}
    (head : (items (blob.slice range)).head? = some first)
    (leading : first.keyword? = some grammar.leading)
    (found : (grammar.lineRules true).firstUnrecognized? (items (blob.slice range)) = some item) :
    parse blob range grammar true origin =
      .error (.violation (.unrecognized item.keyword? item.line)) :=
  parse_of_invalid (Grammar.validate_strict_of_unrecognized head leading found)

/-- Strict reading never accepts a document with an unrecognized line. -/
theorem recognized_of_parse_strict (parsed : parse blob range grammar true origin = .ok document) :
    ∀ item ∈ items (blob.slice range), grammar.Recognizes item := by
  cases found : (grammar.lineRules true).firstUnrecognized? (items (blob.slice range)) with
  | none => exact Grammar.firstUnrecognized?_eq_none_iff.mp found
  | some item =>
      obtain ⟨_, above, below, split, _⟩ := Grammar.firstUnrecognized?_eq_some_iff.mp found
      obtain ⟨first, head⟩ : ∃ first, (items (blob.slice range)).head? = some first := by
        rw [split]
        cases above with
        | nil => exact ⟨item, rfl⟩
        | cons first above => exact ⟨first, rfl⟩
      -- Strict reading has this line to report, or the first one.
      by_cases leading : first.keyword? = some grammar.leading
      · rw [parse_strict_of_unrecognized head leading found] at parsed
        cases parsed
      · rw [parse_of_wrongLeading head leading] at parsed
        cases parsed

/-- The two readings of a document agree, except that strict reading reports the first line that
is not recognized, unless the first line of all is wrong. -/
theorem parse_strict_iff (blob : Blob) (range : ByteRange) (grammar : Grammar)
    (origin : Option Text) (uncapped : grammar ∈ Registry.standard ∨ grammar.cap = none) :
    let lines := items (blob.slice range)
    let reads := fun strict => parse blob range grammar strict origin
    ((∀ item ∈ lines, grammar.Recognizes item) → reads true = reads false) ∧
      (∀ above item below, lines = above ++ item :: below →
        (∀ earlier ∈ above, grammar.Recognizes earlier) → ¬grammar.Recognizes item →
          ∀ first, lines.head? = some first →
            (first.keyword? ≠ some grammar.leading →
              reads true = .error (.violation (.wrongLeading grammar.leading first.line)) ∧
                reads false = .error (.violation (.wrongLeading grammar.leading first.line))) ∧
            (first.keyword? = some grammar.leading →
              reads true = .error (.violation (.unrecognized item.keyword? item.line)))) ∧
      ∀ document, reads true = .ok document ↔
        reads false = .ok document ∧ document.unrecognized = [] := by
  intro lines reads
  have capless : grammar.cap = none := uncapped.elim Grammar.cap_of_mem_standard id
  have agree : (∀ item ∈ lines, grammar.Recognizes item) → reads true = reads false :=
    fun recognized => parse_strict_of_validated (Grammar.validate_strict_of_recognized recognized)
  refine ⟨agree, ?_, ?_⟩
  · intro above item below split earlier unrecognized first head
    refine ⟨fun wrong => ⟨parse_of_wrongLeading head wrong, parse_of_wrongLeading head wrong⟩, ?_⟩
    intro leading
    exact parse_strict_of_unrecognized head leading
      (Grammar.firstUnrecognized?_eq_some_iff.mpr ⟨unrecognized, above, below, split, earlier⟩)
  · intro document
    constructor
    · intro parsed
      have recognized := recognized_of_parse_strict parsed
      have tolerant : reads false = .ok document := agree recognized ▸ parsed
      exact ⟨tolerant, (unrecognized_eq_nil_iff capless tolerant).mpr recognized⟩
    · rintro ⟨parsed, nothing⟩
      rw [agree ((unrecognized_eq_nil_iff capless parsed).mp nothing)]
      exact parsed

theorem parse_strict_iff_foreign :
    ∃ grammar ∈ Registry.standard,
      let blob : Blob := ⟨"onion-key\nforeign a\nfamily b\n".toList.map Ascii.byte, none⟩
      let range : ByteRange := ⟨0, blob.size, Nat.zero_le _⟩
      parse blob range grammar true none =
          .error (.violation (.unrecognized (some "foreign".toList) "foreign a".toList)) ∧
        ∀ document, parse blob range grammar true none = .ok document ↔
          parse blob range grammar false none = .ok document ∧ document.unrecognized = [] := by
  have found : Registry.standard.find? .microdescriptor = some _ := rfl
  have member := List.mem_of_find?_eq_some found
  obtain ⟨_, differ, agree⟩ := parse_strict_iff
    ⟨"onion-key\nforeign a\nfamily b\n".toList.map Ascii.byte, none⟩
    ⟨0, 29, Nat.zero_le _⟩ _ none (.inl member)
  refine ⟨_, member, ?_, agree⟩
  exact (differ
    [.token ⟨"onion-key".toList, [], "onion-key".toList, false⟩]
    (.token ⟨"foreign".toList, ["a".toList], "foreign a".toList, false⟩)
    [.token ⟨"family".toList, ["b".toList], "family b".toList, false⟩]
    (by decide) (by decide) (by decide) _ rfl).2 rfl

end Document

end RelayDescriptor
