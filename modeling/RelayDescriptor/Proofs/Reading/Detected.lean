import RelayDescriptor.Proofs.Reading.Coverage

/-!
# Detected kinds and their documents

The patterns of detection and the leading keywords of the grammars are two tables, and
they agree: where the content of a blob shows a kind that has a grammar, some line of
the blob is one with that grammar's leading keyword.  So only a kind that was told from
outside the content, by a hint or by a type annotation, can come without a document.
-/

namespace RelayDescriptor

open Document

/-! ## Text of the inspected beginning -/

theorem Ascii.byte_ofNat (b : UInt8) : byte (Char.ofNat b.toNat) = b := by
  have small : b.toNat < 256 := b.toNat_lt
  have valid : b.toNat.isValidChar := .inl (by omega)
  have code : (Char.ofNat b.toNat).toNat = b.toNat := by
    rw [Char.ofNat, dif_pos valid]
    rfl
  rw [byte, code, UInt8.ofNat_toNat]

namespace Blob

variable {blob : Blob} {window : Int} {pattern : Text} {kind : Kind}

theorem map_byte_beginning (blob : Blob) (window : Int) :
    (blob.beginning window).map Ascii.byte <+: blob.data := by
  have same : ∀ bytes : List UInt8,
      (bytes.map fun b => Char.ofNat b.toNat).map Ascii.byte = bytes := by
    intro bytes
    rw [List.map_map]
    exact (List.map_congr_left fun b _ => Ascii.byte_ofNat b).trans (List.map_id bytes)
  rw [beginning, same]
  exact List.take_prefix _ _

theorem lineAt_zero_of_beginning (begins : pattern <+: blob.beginning window) :
    LineAt (pattern.map Ascii.byte) blob.data 0 :=
  lineAt_zero.mpr ((begins.map Ascii.byte).trans (blob.map_byte_beginning window))

/-- What the inspected beginning has after a line feed begins a line of the blob. -/
theorem exists_lineAt_of_occursIn
    (occurs : occursIn ('\n' :: pattern) (blob.beginning window) = true) :
    ∃ position, LineAt (pattern.map Ascii.byte) blob.data position := by
  obtain ⟨index, found⟩ := Option.isSome_iff_exists.mp occurs
  obtain ⟨rest, same⟩ := (searchFrom_eq_some_iff.mp found).2.1
  obtain ⟨others, whole⟩ := blob.map_byte_beginning window
  have bound : index ≤ ((blob.beginning window).map Ascii.byte).length := by
    rw [List.length_map]
    exact (searchFrom_eq_some_iff.mp found).1
  refine ⟨index + 1, lineFeed_cons_prefix_iff.mp ⟨rest.map Ascii.byte ++ others, ?_⟩⟩
  rw [← whole, List.drop_append_of_le_length bound, ← List.map_drop, ← same, List.map_append,
    List.append_assoc]
  rfl

end Blob

/-! ## The two tables -/

namespace Pattern

variable {pattern : Pattern} {grammar : Grammar} {blob : Blob} {window : Int}

/-- Each line start of a kind with a grammar begins with the leading keyword and a space or a line
feed. -/
theorem leading_prefix (member : pattern ∈ all) (registered : grammar ∈ Registry.standard)
    (kinds : grammar.kind = pattern.kind) {start : String} (starts : start ∈ pattern.lineStarts) :
    grammar.leading ++ [' '] <+: start.toList ∨ grammar.leading ++ ['\n'] <+: start.toList := by
  have table : ∀ pattern ∈ all, ∀ grammar ∈ Registry.standard, grammar.kind = pattern.kind →
      ∀ start ∈ pattern.lineStarts,
        (grammar.leading ++ [' ']).isPrefixOf start.toList ∨
          (grammar.leading ++ ['\n']).isPrefixOf start.toList := by decide
  simpa only [List.isPrefixOf_iff_prefix] using
    table pattern member grammar registered kinds start starts

/-- No type annotation is the beginning of another one. -/
theorem kind_eq_of_typeTag_prefix {other : Pattern} (member : pattern ∈ all)
    (others : other ∈ all) {beginning : Text} (tagged : pattern.typeTag <+: beginning)
    (otherTagged : other.typeTag <+: beginning) : pattern.kind = other.kind := by
  have table : ∀ pattern ∈ all, ∀ other ∈ all, pattern.typeTag.isPrefixOf other.typeTag →
      pattern.kind = other.kind := by decide
  rcases List.prefix_or_prefix_of_prefix tagged otherTagged with first | second
  · exact table pattern member other others (List.isPrefixOf_iff_prefix.mpr first)
  · exact (table other others pattern member (List.isPrefixOf_iff_prefix.mpr second)).symm

theorem keywordLineAt_of_lineAt (member : pattern ∈ all)
    (registered : grammar ∈ Registry.standard) (kinds : grammar.kind = pattern.kind)
    {start : String} (starts : start ∈ pattern.lineStarts) {position : Nat}
    (line : LineAt (start.toList.map Ascii.byte) blob.data position) :
    KeywordLineAt (grammar.leading.map Ascii.byte) blob.data position := by
  -- What stands behind the keyword in the table is what ends the keyword in the blob.
  rcases leading_prefix member registered kinds starts with withSpace | alone
  · have opening := withSpace.map Ascii.byte
    rw [List.map_append] at opening
    exact .inl ⟨line.1, opening.trans line.2⟩
  · have opening := alone.map Ascii.byte
    rw [List.map_append] at opening
    exact .inr ⟨line.1, opening.trans line.2⟩

/-- A blob that looks like a kind with a grammar has a line with the leading keyword. -/
theorem exists_keywordLineAt_of_matchesContent (member : pattern ∈ all)
    (registered : grammar ∈ Registry.standard) (kinds : grammar.kind = pattern.kind)
    (looks : pattern.matchesContent (blob.beginning window) = true) :
    ∃ position, KeywordLineAt (grammar.leading.map Ascii.byte) blob.data position := by
  obtain ⟨started, _⟩ := Bool.and_eq_true_iff.mp looks
  obtain ⟨start, starts, matched⟩ := List.any_eq_true.mp started
  have found : ∃ position, LineAt (start.toList.map Ascii.byte) blob.data position := by
    rcases Bool.or_eq_true_iff.mp matched with first | later
    · exact ⟨0, Blob.lineAt_zero_of_beginning (List.isPrefixOf_iff_prefix.mp first)⟩
    · exact Blob.exists_lineAt_of_occursIn (Bool.and_eq_true_iff.mp later).2
  obtain ⟨position, line⟩ := found
  exact ⟨position, keywordLineAt_of_lineAt member registered kinds starts line⟩

end Pattern

/-! ## Readings -/

namespace Reading

variable {reading : Reading} {kind : Kind} {grammar : Grammar} {ranges : List ByteRange}

/-- The kind is told from outside the content: by a hint, or by a type annotation of the first
version at the very beginning. -/
inductive IsTold (reading : Reading) (kind : Kind) : Prop where
  | hint {hint : Hint} (given : reading.hint = some hint) (resolved : hint.resolve = .ok kind)
  | tag (noHint : reading.hint = none)
      (tagged : s!"@type {kind.typeName} 1.".toList <+: reading.blob.beginning reading.window)

/-- The kind is shown by a pattern, after neither a hint nor an annotation told one. -/
structure IsShown (reading : Reading) (kind : Kind) : Prop where
  noHint : reading.hint = none
  unannotated : Blob.annotatedKind? (reading.blob.beginning reading.window) = none
  looks : Blob.contentKind? (reading.blob.beginning reading.window) = some kind

theorem annotatedKind?_eq_some_iff {beginning : Text} :
    Blob.annotatedKind? beginning = some kind ↔
      s!"@type {kind.typeName} 1.".toList <+: beginning := by
  rw [Blob.annotatedKind?, Option.map_eq_some_iff]
  constructor
  · rintro ⟨pattern, found, rfl⟩
    have matched : pattern.matchesAnnotation beginning = true := by
      simpa using List.find?_some found
    exact List.isPrefixOf_iff_prefix.mp matched
  · intro tagged
    have listed : ∀ kind ∈ Kind.all, ∃ pattern ∈ Pattern.all, pattern.kind = kind := by decide
    have complete : kind ∈ Kind.all := by cases kind <;> decide
    obtain ⟨pattern, member, rfl⟩ := listed kind complete
    have matched : pattern.matchesAnnotation beginning = true :=
      List.isPrefixOf_iff_prefix.mpr tagged
    -- The first pattern that matches need not be this one, but it has the same kind.
    have annotated :
        (Pattern.all.find? fun pattern => pattern.matchesAnnotation beginning).isSome :=
      List.find?_isSome.mpr ⟨pattern, member, by simpa using matched⟩
    obtain ⟨first, found⟩ := Option.isSome_iff_exists.mp annotated
    have firstMatched : first.matchesAnnotation beginning = true := by
      simpa using List.find?_some found
    exact ⟨first, found, Pattern.kind_eq_of_typeTag_prefix (List.mem_of_find?_eq_some found)
      member (List.isPrefixOf_iff_prefix.mp firstMatched) tagged⟩

theorem detect_eq_ok_iff :
    reading.blob.detect reading.hint reading.window = .ok kind ↔
      reading.IsTold kind ∨ reading.IsShown kind := by
  cases given : reading.hint with
  | some hint =>
      constructor
      · intro resolved
        exact .inl (.hint given resolved)
      · rintro (told | shown)
        · cases told with
          | hint same resolved =>
              rw [given] at same
              cases same
              exact resolved
          | tag noHint => exact absurd (given.symm.trans noHint) (by simp)
        · exact absurd (given.symm.trans shown.noHint) (by simp)
  | none =>
      have unhinted : reading.blob.detect none reading.window = .ok kind ↔
          ((Blob.annotatedKind? (reading.blob.beginning reading.window)).or
            (Blob.contentKind? (reading.blob.beginning reading.window))) = some kind := by
        rw [Blob.detect]
        split
        next other found => simp [found]
        next absent => simp [absent]
      rw [unhinted, Option.or_eq_some_iff]
      constructor
      · rintro (annotated | ⟨unannotated, looks⟩)
        · exact .inl (.tag given (annotatedKind?_eq_some_iff.mp annotated))
        · exact .inr ⟨given, unannotated, looks⟩
      · rintro (told | shown)
        · cases told with
          | hint same => exact absurd (given.symm.trans same) (by simp)
          | tag _ tagged => exact .inl (annotatedKind?_eq_some_iff.mpr tagged)
        · exact .inr ⟨shown.unannotated, shown.looks⟩

/-- A shown kind with a grammar has a document. -/
theorem IsShown.ranges_ne_nil (shown : reading.IsShown kind) (found : grammarOf kind = .ok grammar)
    (placed : WellPlaced (grammar.leading.map Ascii.byte) reading.blob.data ranges) :
    ranges ≠ [] := by
  obtain ⟨pattern, first, kinds⟩ := Option.map_eq_some_iff.mp shown.looks
  obtain ⟨grammarKind, registered⟩ := grammarOf_eq_ok found
  have looks : pattern.matchesContent (reading.blob.beginning reading.window) = true := by
    simpa using List.find?_some first
  obtain ⟨position, line⟩ := Pattern.exists_keywordLineAt_of_matchesContent
    (List.mem_of_find?_eq_some first) registered (grammarKind.trans kinds.symm) looks
  intro none
  exact placed.eq_nil_iff.mp none position line

theorem exists_wellPlaced (found : grammarOf kind = .ok grammar) (blob : Blob) :
    ∃ ranges, blob.documentRanges grammar.leading = .ok ranges ∧
      WellPlaced (grammar.leading.map Ascii.byte) blob.data ranges := by
  have sound := Registry.isSound_of_mem_standard (grammarOf_eq_ok found).2
  exact blob.documentRanges_wellPlaced grammar.leading sound.leading sound.leadingLine

theorem length_of_outcomes (detected : reading.blob.detect reading.hint reading.window = .ok kind)
    (found : grammarOf kind = .ok grammar)
    (cut : reading.blob.documentRanges grammar.leading = .ok ranges) {results : List Outcome}
    (complete : reading.outcomes = .ok results) : results.length = ranges.length := by
  rw [outcomes_of_documents detected found cut] at complete
  exact (mapM_eq_ok_iff.mp complete).length_eq.symm

/-- Only a kind that is told can come without a result: where its grammar's leading keyword begins
no line.  A kind that is shown always has a first document, which is read first. -/
theorem outcomes_eq_nil_iff (reading : Reading) :
    (∀ results, reading.outcomes = .ok results →
      (results = [] ↔ ∃ kind grammar, reading.IsTold kind ∧ grammarOf kind = .ok grammar ∧
        ∀ line, ¬KeywordLineAt (grammar.leading.map Ascii.byte) reading.blob.data line)) ∧
    ∀ kind grammar, reading.IsShown kind → grammarOf kind = .ok grammar →
      ∃ range others, reading.blob.documentRanges grammar.leading = .ok (range :: others) ∧
        reading.steps.head? = some (reading.attempt grammar range) ∧
        ∀ results, reading.outcomes = .ok results → results.length = others.length + 1 := by
  constructor
  · intro results complete
    constructor
    · rintro rfl
      cases detected : reading.blob.detect reading.hint reading.window with
      | error rejection =>
          rw [outcomes_of_undetected detected] at complete
          cases complete
      | ok kind =>
          cases found : grammarOf kind with
          | error rejection =>
              rw [outcomes_of_unsupported detected found] at complete
              cases complete
          | ok grammar =>
              obtain ⟨ranges, cut, placed⟩ := exists_wellPlaced found reading.blob
              have none : ranges = [] :=
                List.length_eq_zero_iff.mp (length_of_outcomes detected found cut complete).symm
              rcases detect_eq_ok_iff.mp detected with told | shown
              · exact ⟨kind, grammar, told, found, placed.eq_nil_iff.mp none⟩
              · exact absurd none (shown.ranges_ne_nil found placed)
    · rintro ⟨kind, grammar, told, found, never⟩
      obtain ⟨ranges, cut, placed⟩ := exists_wellPlaced found reading.blob
      have same := length_of_outcomes (detect_eq_ok_iff.mpr (.inl told)) found cut complete
      rw [placed.eq_nil_iff.mpr never] at same
      exact List.length_eq_zero_iff.mp same
  · intro kind grammar shown found
    obtain ⟨ranges, cut, placed⟩ := exists_wellPlaced found reading.blob
    have detected := detect_eq_ok_iff.mpr (.inr shown)
    obtain ⟨range, others, rfl⟩ :=
      List.exists_cons_of_ne_nil (shown.ranges_ne_nil found placed)
    refine ⟨range, others, cut, ?_, fun results => length_of_outcomes detected found cut⟩
    rw [steps_of_documents detected found cut, untilInterrupted]
    cases reading.attempt grammar range with
    | ok outcome => rfl
    | error interruption => rfl

theorem outcomes_eq_nil_iff_annotated :
    let told := Reading.of ⟨"@type extra-info 1.0\nrouter a\n".toList.map Ascii.byte, none⟩
      none none none none
    let shown := Reading.of ⟨"a\nrouter a\n".toList.map Ascii.byte, none⟩ none none none none
    (told.outcomes = .ok [] ∧ ∃ kind grammar, told.IsTold kind ∧ grammarOf kind = .ok grammar ∧
      ∀ line, ¬KeywordLineAt (grammar.leading.map Ascii.byte) told.blob.data line) ∧
    ∃ grammar range others, grammarOf .serverDescriptor = .ok grammar ∧
      shown.blob.documentRanges grammar.leading = .ok (range :: others) := by
  intro told shown
  have detected : told.blob.detect told.hint told.window = .ok .extraInfo := by decide
  have found : grammarOf .extraInfo = .ok _ := rfl
  have ascii : ∀ c ∈ "extra-info".toList, Ascii.isAscii c = true :=
    List.all_eq_true.mp (by decide)
  have cut : told.blob.documentRanges "extra-info".toList = .ok [] := by
    refine Blob.documentRanges_of_isAscii ascii told.blob ?_
    rw [ranges, rangesFrom_of_ended (by decide)]
  have complete : told.outcomes = .ok [] := by
    rw [outcomes_of_documents detected found cut]
    rfl
  have looks : shown.IsShown .serverDescriptor := ⟨rfl, by decide, by decide⟩
  obtain ⟨range, others, cut', _⟩ := (outcomes_eq_nil_iff shown).2 _ _ looks rfl
  exact ⟨⟨complete, ((outcomes_eq_nil_iff told).1 [] complete).mp rfl⟩, _, range, others, rfl,
    cut'⟩

end Reading

end RelayDescriptor
