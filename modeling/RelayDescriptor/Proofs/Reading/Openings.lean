import RelayDescriptor.Proofs.Line.Keywords
import RelayDescriptor.Proofs.Reading.Coverage
import RelayDescriptor.Proofs.Reading.Modes
import RelayDescriptor.Proofs.Reading.OwnLines
import RelayDescriptor.Proofs.Text.Encoding

/-!
# Where documents begin

Documents are cut off at lines of bytes and parsed as lines of text.  The two agree on
the first line of a document: where its bytes begin with the leading keyword, the first
line of its text is a token with that keyword.  So a part of a blob can be refused for
its first line only if it begins with an annotation.
-/

namespace RelayDescriptor

open Document

/-- A keyword that is found in bytes where it is read in text. -/
structure IsLeadingKeyword (keyword : Text) : Prop extends IsPlainKeyword keyword where
  ascii : ∀ c ∈ keyword, Ascii.isAscii c = true
  noFeed : '\n' ∉ keyword
  noReturn : '\r' ∉ keyword
  notMark : isAnnotation keyword = false

namespace IsLeadingKeyword

variable {keyword : Text} {raw : List UInt8}

theorem isAnnotation_append (leads : IsLeadingKeyword keyword) (rest : Text) :
    isAnnotation (keyword ++ rest) = false := by
  obtain ⟨c, others, rfl⟩ := List.exists_cons_of_ne_nil leads.nonempty
  exact leads.notMark

theorem exists_line (leads : IsLeadingKeyword keyword)
    (opens : opensWith (keyword.map Ascii.byte) raw = true) :
    ∃ line, (lines (Utf8.decode raw)).head? = some line ∧ isAnnotation line = false ∧
      ∃ token, tokenize line = .item (.token token) ∧ token.keyword = keyword := by
  rcases opensWith_iff_beginning.mp opens with ⟨others, rfl⟩ | ⟨others, rfl⟩
  · have text : Utf8.decode (spaced (keyword.map Ascii.byte) ++ others) =
        (keyword ++ [' ']) ++ Utf8.decode others := by
      have ascii : ∀ c ∈ keyword ++ [' '], Ascii.isAscii c = true :=
        List.forall_mem_append.mpr ⟨leads.ascii, List.forall_mem_singleton.mpr rfl⟩
      rw [← Utf8.decode_append_of_isAscii ascii, List.map_append]
      rfl
    have noFeed : '\n' ∉ keyword ++ [' '] := by simp [leads.noFeed]
    have noReturn : '\r' ∉ keyword ++ [' '] := by simp [leads.noReturn]
    obtain ⟨rest, head⟩ :=
      head?_lines_append (by simp) noFeed noReturn (Utf8.decode others)
    refine ⟨keyword ++ ' ' :: rest, ?_, leads.isAnnotation_append _, _,
      leads.tokenize_cons rest, rfl⟩
    rw [text, head, ← List.append_cons]
  · have text : Utf8.decode (bare (keyword.map Ascii.byte) ++ others) =
        keyword ++ '\n' :: Utf8.decode others := by
      have ascii : ∀ c ∈ keyword ++ ['\n'], Ascii.isAscii c = true :=
        List.forall_mem_append.mpr ⟨leads.ascii, List.forall_mem_singleton.mpr rfl⟩
      rw [List.append_cons, ← Utf8.decode_append_of_isAscii ascii, List.map_append]
      rfl
    refine ⟨keyword, ?_, leads.notMark, _, leads.tokenize_self, rfl⟩
    rw [text, lines_append_cons leads.noFeed leads.noReturn]
    rfl

/-- Bytes that begin with the keyword are a document without annotations whose first item is a
token with that keyword. -/
theorem head?_items (leads : IsLeadingKeyword keyword)
    (opens : opensWith (keyword.map Ascii.byte) raw = true) :
    ∃ token, (items raw).head? = some (.token token) ∧ token.keyword = keyword := by
  obtain ⟨line, head, plain, token, found, same⟩ := leads.exists_line opens
  obtain ⟨others, split⟩ := List.head?_eq_some_iff.mp head
  refine ⟨token, ?_, same⟩
  have unmarked : (parts raw).2 = line :: others := by
    rw [parts, split, splitAnnotations, List.span_eq_takeWhile_dropWhile,
      List.dropWhile_cons_of_neg (by simp [plain])]
  rw [items, unmarked, Scan.items, Scan.events, Scan.eventsFrom, found]
  rfl

end IsLeadingKeyword

/-! ## Violations of the first line -/

namespace Violation

/-- The class of violations by the first line. -/
def IsBadLeading (violation : Violation) : Prop := violation.cause = "bad-leading-keyword"

theorem isBadLeading_iff {violation : Violation} :
    violation.IsBadLeading ↔
      (∃ leading, violation = .empty leading) ∨
        ∃ leading line, violation = .wrongLeading leading line := by
  cases violation <;> simp [IsBadLeading, cause]

end Violation

/-- A fault that is not a violation by the first line. -/
def Fault.IsPastLeading (fault : Fault) : Prop :=
  ∀ violation, fault = .violation violation → ¬violation.IsBadLeading

theorem Fault.IsAbout.isPastLeading {line : Text} {fault : Fault} (about : fault.IsAbout line) :
    fault.IsPastLeading := by
  rintro violation rfl
  cases violation with
  | argumentCount => simp [Violation.isBadLeading_iff]
  | _ => cases about

namespace Constraints

theorem not_isBadLeading_of_violation? {constraints : Constraints} {count : Text → Nat}
    {violation : Violation} (found : constraints.violation? count = some violation) :
    ¬violation.IsBadLeading := by
  rw [violation?, Option.or_eq_some_iff, Option.or_eq_some_iff] at found
  rcases found with once | ⟨_, atMost | ⟨_, dependent⟩⟩
  · obtain ⟨keyword, _, broken⟩ := List.exists_of_findSome?_eq_some once
    rw [exactlyOnceViolation?] at broken
    split at broken
    · cases broken
      simp [Violation.isBadLeading_iff]
    · cases broken
    · cases broken
      simp [Violation.isBadLeading_iff]
  · obtain ⟨keyword, _, broken⟩ := List.exists_of_findSome?_eq_some atMost
    rw [atMostOnceViolation?] at broken
    split at broken
    · cases broken
      simp [Violation.isBadLeading_iff]
    · cases broken
  · obtain ⟨entry, _, broken⟩ := List.exists_of_findSome?_eq_some dependent
    rw [dependencyViolation?] at broken
    split at broken
    · cases broken
      simp [Violation.isBadLeading_iff]
    · cases broken

end Constraints

namespace LineRules

variable {rules : LineRules} {items : List Item} {token : Token} {violation : Violation}

/-- With the leading keyword on the first line, only other rules can be broken. -/
theorem not_isBadLeading_of_validate (head : items.head? = some (.token token))
    (leads : token.keyword = rules.leading) (invalid : rules.validate items = .error violation) :
    ¬violation.IsBadLeading := by
  obtain ⟨others, rfl⟩ := List.head?_eq_some_iff.mp head
  have opened : rules.leadingViolation? (.token token :: others) = none :=
    if_pos (congrArg some leads)
  rw [validate_eq_error_iff, violation?, opened, Option.none_or] at invalid
  rcases Option.or_eq_some_iff.mp invalid with strict | ⟨_, constraint⟩
  · rw [strictViolation?] at strict
    split at strict
    · obtain ⟨item, _, rfl⟩ := Option.map_eq_some_iff.mp strict
      simp [Violation.isBadLeading_iff]
    · cases strict
  · exact Constraints.not_isBadLeading_of_violation? constraint

end LineRules

/-! ## Records -/

namespace Grammar

variable {grammar : Grammar} {tokens : List Token} {raw : List UInt8}

/-- Where values cannot be put into the fields, no rule on lines is broken. -/
theorem failsOnly_writeAll {line : Text} {repeated : Bool} {fields : Fields}
    {updates : List (String × Value)} : IsOwn line (writeAll repeated fields updates) := by
  intro fault failed
  obtain ⟨_, update, _, reached, _, _, failed⟩ := foldlM_eq_error_iff.mp failed
  rw [Fields.put] at failed
  split at failed
  · rw [Fields.append] at failed
    split at failed
    · cases failed
    · cases failed
    · cases failed
      exact trivial
  · cases failed

/-- The fault of a line in a document is about that line. -/
theorem failsOnly_decodeTokens (keep : KeepToLines grammar.rules) (tokens : List Token) :
    FailsOnly (fun fault => ∃ token ∈ tokens, fault.IsAbout token.line)
      (grammar.decodeTokens tokens) := by
  intro fault failed
  obtain ⟨above, token, below, fields, rfl, _, failed⟩ := foldlM_eq_error_iff.mp failed
  refine ⟨token, by simp, ?_⟩
  rw [decodeToken] at failed
  split at failed
  · cases failed
  next rule found =>
    rcases bind_eq_error_iff.mp failed with refused | ⟨updates, _, failed⟩
    · exact keep rule (List.mem_of_find?_eq_some found) token fault (map_eq_error_iff.mp refused)
    · exact failsOnly_writeAll fault failed

theorem failsOnly_digests (raw : List UInt8) :
    FailsOnly Fault.IsPastLeading (grammar.digests raw) := by
  intro fault failed
  rw [digests] at failed
  cases computed : Digests.compute grammar.leading grammar.digestEnd grammar.sha256End raw with
  | ok digests =>
      rw [computed] at failed
      cases failed
  | error flaw =>
      rw [computed] at failed
      cases failed
      rintro violation ⟨⟩

/-- An arrangement of values that is not about the first line of a document. -/
def ArrangesPastLeading (schema : Schema) : Prop :=
  ∀ fields, FailsOnly (fun violation => ¬violation.IsBadLeading) (schema.arrange fields)

theorem failsOnly_build {schema : Schema} (arranges : ArrangesPastLeading schema)
    (fields : Fields) : FailsOnly Fault.IsPastLeading (schema.build fields) := by
  intro fault failed
  rw [Schema.build] at failed
  split at failed
  next violation arranged =>
    cases failed
    rintro other ⟨⟩
    exact arranges fields violation arranged
  next arranged _ =>
    split at failed
    · cases failed
    · cases failed
      rintro violation ⟨⟩

theorem failsOnly_recordOf (keep : KeepToLines grammar.rules)
    (arranges : ArrangesPastLeading grammar.schema) (raw : List UInt8) (tokens : List Token) :
    FailsOnly Fault.IsPastLeading (recordOf grammar raw tokens) := by
  have decoding : FailsOnly Fault.IsPastLeading (grammar.decodeTokens tokens) := by
    intro fault failed
    obtain ⟨token, _, about⟩ := failsOnly_decodeTokens keep tokens fault failed
    exact about.isPastLeading
  simp [recordOf, decoding, failsOnly_digests, failsOnly_build arranges]

end Grammar

namespace DirSource

theorem failsOnly_sectionsFrom (current : AuthoritySection)
    (lines : List AuthorityLine) :
    FailsOnly (fun violation => ¬violation.IsBadLeading) (sectionsFrom current lines) := by
  have extend : ∀ (current : AuthoritySection) (line : AuthorityLine),
      FailsOnly (fun violation => ¬violation.IsBadLeading) (current.extend line) := by
    intro current line
    rw [AuthoritySection.extend]
    split
    · simp
    · simp
    · simp [Violation.isBadLeading_iff]
  induction lines generalizing current with
  | nil => simp [sectionsFrom]
  | cons line lines induction =>
      rw [sectionsFrom]
      split
      · simp [induction]
      · simp [induction, extend]

theorem failsOnly_sections (lines : List AuthorityLine) :
    FailsOnly (fun violation => ¬violation.IsBadLeading) (sections lines) := by
  cases lines with
  | nil => simp [sections]
  | cons line lines =>
      rw [sections]
      split
      · exact failsOnly_sectionsFrom _ lines
      · simp [Violation.isBadLeading_iff]

end DirSource

namespace Registry

variable {grammar : Grammar}

theorem arrangesPastLeading_of_mem_standard (member : grammar ∈ standard) :
    Grammar.ArrangesPastLeading grammar.schema := by
  intro fields
  -- Only authority sections are arranged at all.
  rcases mem_standard_iff.mp member with status | others
  · rw [NetworkStatus.schema_of_mem status]
    show FailsOnly _ (NetworkStatus.arrange fields)
    rw [NetworkStatus.arrange]
    split
    · simp [DirSource.failsOnly_sections]
    · simp
  · rw [arrange_of_mem_plain others]
    exact failsOnly_ok fields

theorem isLeadingKeyword_of_mem_standard (member : grammar ∈ standard) :
    IsLeadingKeyword grammar.leading := by
  have plain : ∀ grammar ∈ standard, grammar.leading ≠ [] ∧ ' ' ∉ grammar.leading ∧
      grammar.leading ++ [' '] ≠ optional ∧ opensBlock grammar.leading = false ∧
      closesBlock grammar.leading = false := by decide
  have found : ∀ grammar ∈ standard, grammar.leading.all Ascii.isAscii = true ∧
      '\n' ∉ grammar.leading ∧ '\r' ∉ grammar.leading ∧
      isAnnotation grammar.leading = false := by decide
  obtain ⟨nonempty, noSpace, notOptional, notOpening, notClosing⟩ := plain grammar member
  obtain ⟨ascii, noFeed, noReturn, notMark⟩ := found grammar member
  exact ⟨⟨nonempty, noSpace, notOptional, notOpening, notClosing⟩, List.all_eq_true.mp ascii,
    noFeed, noReturn, notMark⟩

end Registry

namespace Document

variable {blob : Blob} {range : ByteRange} {grammar : Grammar} {strict : Bool}
  {origin : Option Text}

/-- A document that begins with its keyword is not refused for its first line. -/
theorem failsOnly_parse (member : grammar ∈ Registry.standard)
    (opens : opensWith (grammar.leading.map Ascii.byte) (blob.slice range) = true) :
    FailsOnly Fault.IsPastLeading (parse blob range grammar strict origin) := by
  cases valid : validated grammar strict (blob.slice range) with
  | error violation =>
      rw [parse_of_invalid valid, failsOnly_error]
      rintro other ⟨⟩
      obtain ⟨token, head, leads⟩ :=
        (Registry.isLeadingKeyword_of_mem_standard member).head?_items opens
      exact LineRules.not_isBadLeading_of_validate head leads valid
  | ok checked =>
      rw [parse_of_valid valid, failsOnly_map]
      exact Grammar.failsOnly_recordOf (Registry.keepToLines_of_mem_standard member)
        (Registry.arrangesPastLeading_of_mem_standard member) _ _

/-- The bytes of a range begin with the keyword or with an annotation. -/
theorem IsDocumentRange.slice_opens {keyword : List UInt8}
    (inRange : IsDocumentRange keyword blob.data range) :
    opensWith keyword (blob.slice range) = true ∨
      AnnotationAt blob.data range.start ∧ (blob.slice range).head? = some atSign := by
  obtain ⟨line, behind, _, header⟩ := inRange.holds
  -- The range is long enough for the keyword and the byte after it.
  have size : keyword.length + 1 ≤ range.size := by
    rw [ByteRange.size]
    omega
  have within : ∀ {beginning : List UInt8}, beginning.length ≤ keyword.length + 1 →
      beginning <+: blob.data.drop range.start → beginning <+: blob.slice range := by
    intro beginning short occurs
    exact List.prefix_take_iff.mpr ⟨occurs, Nat.le_trans short size⟩
  rcases inRange.opens with (withSpace | alone) | marked
  · have occurs := within (by simp [spaced]) withSpace.2
    exact .inl (opensWith_iff_beginning.mpr (.inl occurs))
  · have occurs := within (by simp [bare]) alone.2
    exact .inl (opensWith_iff_beginning.mpr (.inr occurs))
  · obtain ⟨others, same⟩ := within (by simp) marked.2
    rw [← same]
    exact .inr ⟨marked, rfl⟩

end Document

namespace Refusal

/-- A part is refused for its first line. -/
def IsBadLeading (refusal : Refusal) : Prop :=
  ∃ violation, refusal.rejection = .malformed violation ∧ violation.IsBadLeading

end Refusal

namespace Reading

variable {reading : Reading} {outcome : Outcome} {refusal : Refusal}

theorem mem_untilInterrupted {α : Type} {read : α → Except Interruption Outcome} {items : List α}
    (member : .ok outcome ∈ untilInterrupted read items) :
    ∃ item ∈ items, read item = .ok outcome := by
  induction items with
  | nil => cases member
  | cons item items induction =>
      rw [untilInterrupted] at member
      split at member
      next other result =>
        rcases List.mem_cons.mp member with same | later
        · cases same
          exact ⟨item, List.mem_cons_self, result⟩
        · obtain ⟨next, inside, result⟩ := induction later
          exact ⟨next, List.mem_cons_of_mem item inside, result⟩
      next => simp at member

theorem detect_ne_malformed (blob : Blob) (hint : Option Hint) (window : Int)
    (violation : Violation) : blob.detect hint window ≠ .error (.malformed violation) := by
  intro same
  rw [Blob.detect.eq_def] at same
  split at same
  next hint =>
    cases hint with
    | known kind => cases same
    | named name =>
        rw [Hint.resolve] at same
        split at same
        · cases same
        · cases same
  next =>
    dsimp only at same
    split at same
    · cases same
    · cases same

theorem grammarOf_ne_malformed (kind : Kind) (violation : Violation) :
    grammarOf kind ≠ .error (.malformed violation) := by
  intro same
  rw [grammarOf] at same
  split at same
  · cases same
  · cases same

/-- A part that is refused for its first line is a range whose document is. -/
theorem exists_range_of_isBadLeading (member : .ok (.refused refusal) ∈ reading.steps)
    (bad : refusal.IsBadLeading) :
    ∃ kind grammar ranges range violation, grammarOf kind = .ok grammar ∧
      reading.blob.documentRanges grammar.leading = .ok ranges ∧ range ∈ ranges ∧
      refusal.raw = reading.blob.slice range ∧ violation.IsBadLeading ∧
      parse reading.blob range grammar reading.strict none = .error (.violation violation) := by
  obtain ⟨violation, malformed, bad⟩ := bad
  cases detected : reading.blob.detect reading.hint reading.window with
  | error rejection =>
      rw [steps_of_undetected detected, List.mem_singleton] at member
      cases member
      cases malformed
      exact absurd detected (detect_ne_malformed _ _ _ violation)
  | ok kind =>
      cases found : grammarOf kind with
      | error rejection =>
          rw [steps_of_unsupported detected found, List.mem_singleton] at member
          cases member
          cases malformed
          exact absurd found (grammarOf_ne_malformed kind violation)
      | ok grammar =>
          have sound := Registry.isSound_of_mem_standard (grammarOf_eq_ok found).2
          obtain ⟨ranges, cut⟩ := exists_documentRanges sound reading.blob
          rw [steps_of_documents detected found cut] at member
          obtain ⟨range, inside, result⟩ := mem_untilInterrupted member
          refine ⟨kind, grammar, ranges, range, violation, found, cut, inside, ?_⟩
          rw [attempt] at result
          split at result
          next => cases result
          next rejection failed =>
            cases result
            cases malformed
            exact ⟨rfl, bad, failed⟩
          next => cases result

theorem annotationAt_of_isBadLeading (member : .ok (.refused refusal) ∈ reading.steps)
    (bad : refusal.IsBadLeading) :
    refusal.raw.head? = some atSign ∧ ∃ line, AnnotationAt reading.blob.data line := by
  obtain ⟨kind, grammar, ranges, range, violation, found, cut, inside, raw, bad, failed⟩ :=
    exists_range_of_isBadLeading member bad
  have standard := (grammarOf_eq_ok found).2
  have sound := Registry.isSound_of_mem_standard standard
  obtain ⟨others, cut', placed⟩ :=
    reading.blob.documentRanges_wellPlaced grammar.leading sound.leading sound.leadingLine
  obtain rfl : ranges = others := Except.ok.inj (cut.symm.trans cut')
  rcases (placed.documents range inside).slice_opens with opens | ⟨marked, head⟩
  · exact absurd bad (failsOnly_parse standard opens _ failed violation rfl)
  · exact ⟨raw ▸ head, range.start, marked⟩

theorem steps_of_outcomes {results : List Outcome} (complete : reading.outcomes = .ok results) :
    reading.steps = results.map .ok := by
  rw [outcomes] at complete
  generalize reading.steps = steps at complete ⊢
  have each := mapM_eq_ok_iff.mp complete
  clear complete
  induction each with
  | nil => rfl
  | cons first _ induction => exact congrArg₂ List.cons first induction

/-- Only parts that begin with an annotation are refused for their first line, so without
annotations in a blob there are none. -/
theorem steps_isBadLeading (reading : Reading) :
    (∀ refusal, .ok (.refused refusal) ∈ reading.steps → refusal.IsBadLeading →
        refusal.raw.head? = some atSign) ∧
      ((∀ line, ¬AnnotationAt reading.blob.data line) →
        ∀ refusal, .ok (.refused refusal) ∈ reading.steps → ¬refusal.IsBadLeading) ∧
      ∀ results, reading.outcomes = .ok results → reading.steps = results.map .ok := by
  refine ⟨fun refusal member bad => (annotationAt_of_isBadLeading member bad).1, ?_,
    fun results => steps_of_outcomes⟩
  intro plain refusal member bad
  obtain ⟨_, line, marked⟩ := annotationAt_of_isBadLeading member bad
  exact plain line marked

theorem steps_isBadLeading_annotated :
    let blob : Blob := ⟨"onion-key\n@a\nfoo\nonion-key\n".toList.map Ascii.byte, none⟩
    let reading := Reading.of blob none (some (.known .microdescriptor)) none none
    ∃ refusal, .ok (.refused refusal) ∈ reading.steps ∧ refusal.IsBadLeading ∧
      refusal.raw.head? = some atSign := by
  intro blob reading
  have found : grammarOf .microdescriptor = .ok _ := rfl
  have ascii : ∀ c ∈ "onion-key".toList, Ascii.isAscii c = true :=
    List.all_eq_true.mp (by decide)
  have cut : blob.documentRanges "onion-key".toList =
      .ok [⟨0, 10, by decide⟩, ⟨10, 27, by decide⟩] := by
    refine Blob.documentRanges_of_isAscii ascii blob ?_
    rw [ranges, rangesFrom_of_found ⟨0, 10, by decide⟩ (by decide) (by decide) (by decide),
      rangesFrom_of_found ⟨10, 27, by decide⟩ (by decide) (by decide) (by decide),
      rangesFrom_of_ended (by decide)]
    rfl
  have member : .ok (.refused
      ⟨some .microdescriptor, "@a\nfoo\nonion-key\n".toList.map Ascii.byte,
        ⟨10, 27, by decide⟩, .malformed (.wrongLeading "onion-key".toList "foo".toList), none⟩) ∈
      reading.steps := by
    rw [steps_of_documents rfl found cut]
    exact List.mem_cons_of_mem _ List.mem_cons_self
  exact ⟨_, member, ⟨_, rfl, rfl⟩, (steps_isBadLeading reading).1 _ member ⟨_, rfl, rfl⟩⟩

end Reading

end RelayDescriptor
