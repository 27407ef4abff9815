import Mathlib.Data.List.TakeDrop
import RelayDescriptor.Proofs.Keyword.Pass
import RelayDescriptor.Proofs.Reading.Collection
import RelayDescriptor.Proofs.Reading.Utf8Runs

/-!
# Parsing one document

A document is refused where its lines break a rule, and then where a value does; the
first line that fails decides.  Only a decoder can interrupt, at a line that is
reached: the lines of the document are valid, and all values above it are read.
-/

namespace RelayDescriptor

namespace Grammar

variable {grammar : Grammar} {fields : Fields} {token : Token} {tokens : List Token}
  {raw : List UInt8} {interruption : Interruption} {strict : Bool} {count : Nat}

theorem decodeToken_eq_interrupted (sound : grammar.IsSound) (collected : grammar.Collects fields) :
    grammar.decodeToken fields token = .error (.interrupted interruption) ↔
      ∃ rule, grammar.rule? token.keyword = some rule ∧
        rule.decoder.values token = .error (.interrupted interruption) := by
  rw [decodeToken]
  cases found : grammar.rule? token.keyword with
  | none => simp
  | some rule =>
      have member : rule ∈ grammar.rules := List.mem_of_find?_eq_some found
      have updated : rule.decoder.updates token = .error (.interrupted interruption) ↔
          rule.decoder.values token = .error (.interrupted interruption) := map_eq_error_iff
      simp only [bind_eq_error_iff, updated, Option.some.injEq, exists_eq_left', or_iff_left_iff_imp]
      -- What has been read can be put into the fields.
      rintro ⟨updates, read, failed⟩
      obtain ⟨later, written⟩ := collected.exists_writeAll sound.apart member
        (mem_fields_of_updates sound.uniform member read)
      cases failed.symm.trans written

/-- A valid document in which reading gets to a line whose decoder meets a numeral with too many
digits. -/
def ReachesOverlong (grammar : Grammar) (strict : Bool) (raw : List UInt8) (count : Nat) : Prop :=
  ∃ validated above token below fields rule,
    Document.validated grammar strict raw = .ok validated ∧
      validated.tokens = above ++ token :: below ∧ grammar.decodeTokens above = .ok fields ∧
      grammar.rule? token.keyword = some rule ∧
      rule.decoder.values token = .error (.interrupted (.digitLimit count))

/-- Neither the digests nor the record interrupt. -/
theorem recordOf_eq_interrupted (sound : grammar.IsSound) (raw : List UInt8)
    (tokens : List Token) :
    Document.recordOf grammar raw tokens = .error (.interrupted interruption) ↔
      grammar.decodeTokens tokens = .error (.interrupted interruption) := by
  rw [Document.recordOf, bind_eq_error_iff]
  constructor
  · rintro (failed | ⟨fields, decoded, failed⟩)
    · exact failed
    · obtain ⟨digests, computed, asked⟩ :=
        Digests.exists_compute sound.leading sound.sha1Marker sound.sha256Marker raw
      have found : grammar.digests raw = .ok digests := by
        rw [Grammar.digests, computed]
        rfl
      rw [found] at failed
      exact absurd failed
        (sound.fills fields digests (collects_of_decodeTokens sound.uniform decoded) asked
          interruption)
  · exact .inl

/-- A line whose decoder is interrupted has an argument with a run of too many digits. -/
theorem overlong_of_values (sound : grammar.IsSound) {rule : FieldRule}
    (found : grammar.rule? token.keyword = some rule)
    (failed : rule.decoder.values token = .error (.interrupted interruption)) :
    ∃ count, interruption = .digitLimit count ∧ Numeral.digitLimit < count ∧
      ∃ argument ∈ token.arguments, HasRun Char.isDigit count argument := by
  have member : rule ∈ grammar.rules := List.mem_of_find?_eq_some found
  exact sound.steady rule member token interruption failed

end Grammar

namespace Document

variable {grammar : Grammar} {strict : Bool} {raw : List UInt8} {token : Token} {count : Nat}

theorem parts_subset {line : Text} (member : line ∈ (parts raw).2) :
    line ∈ lines (Utf8.decode raw) := by
  rw [parts, splitAnnotations, List.span_eq_takeWhile_dropWhile] at member
  exact (List.dropWhile_sublist _).mem member

/-- The arguments of a valid document stand in its text. -/
theorem infix_of_validated {validated : Validated}
    (valid : Document.validated grammar strict raw = .ok validated)
    (member : token ∈ validated.tokens) :
    ∀ argument ∈ token.arguments, argument <:+: Utf8.decode raw := by
  obtain ⟨_, rfl⟩ := LineRules.validate_eq_ok_iff.mp valid
  obtain ⟨item, inItems, recognized⟩ := List.mem_filterMap.mp member
  have isToken : item = .token token := by
    obtain ⟨found, _⟩ := Option.filter_eq_some_iff.mp recognized
    cases item with
    | blank line => cases found
    | token other =>
        cases found
        rfl
  subst isToken
  obtain ⟨line, inParts, tokenized⟩ := exists_line_of_mem_items inItems
  intro argument inArguments
  have within := (infix_of_tokenize tokenized).2 argument inArguments
  exact within.trans (infix_of_mem_lines (parts_subset inParts))

/-- A numeral with too many digits that is reached stands in the bytes of the document. -/
theorem hasRun_of_reachesOverlong (sound : grammar.IsSound)
    (reaches : grammar.ReachesOverlong strict raw count) :
    Numeral.digitLimit < count ∧ HasRun Utf8.isDigitByte count raw := by
  obtain ⟨validated, above, token, below, fields, rule, valid, split, _, found, failed⟩ := reaches
  obtain ⟨count', same, many, argument, member, run⟩ :=
    Grammar.overlong_of_values sound found failed
  cases same
  have inTokens : token ∈ validated.tokens := by
    rw [split]
    simp
  have within := infix_of_validated valid inTokens argument member
  exact ⟨many, Utf8.hasRun_of_decode (Nat.zero_lt_of_lt many) (run.of_within within)⟩

/-- The range of all bytes. -/
def wholeRange (bytes : List UInt8) : ByteRange := ⟨0, bytes.length, Nat.zero_le _⟩

theorem slice_wholeRange (blob : Blob) : blob.slice (wholeRange blob.data) = blob.data :=
  List.take_length

theorem slice_bytes (bytes : List UInt8) (origin : Option Text) :
    Blob.slice ⟨bytes, origin⟩ (wholeRange bytes) = bytes :=
  slice_wholeRange ⟨bytes, origin⟩

/-- The document that is made up of its valid lines and its record. -/
def assembled (blob : Blob) (range : ByteRange) (grammar : Grammar) (origin : Option Text)
    (validated : Validated) (record : Record) : Document where
  kind := grammar.kind
  raw := blob.slice range
  range
  record
  annotations := (parts (blob.slice range)).1
  unrecognized := validated.unrecognized
  origin := origin.or blob.origin

variable {blob : Blob} {range : ByteRange} {origin : Option Text}

theorem parse_of_invalid {violation : Violation}
    (invalid : validated grammar strict (blob.slice range) = .error violation) :
    parse blob range grammar strict origin = .error (.violation violation) := by
  rw [parse, invalid]
  rfl

theorem parse_of_valid {checked : Validated}
    (valid : validated grammar strict (blob.slice range) = .ok checked) :
    parse blob range grammar strict origin =
      (recordOf grammar (blob.slice range) checked.tokens).map
        (assembled blob range grammar origin checked) := by
  rw [parse, valid]
  show (recordOf grammar (blob.slice range) checked.tokens >>= fun record => _) = _
  cases recordOf grammar (blob.slice range) checked.tokens with
  | error fault => rfl
  | ok record => rfl

theorem exists_validated_of_parse {document : Document}
    (parsed : parse blob range grammar strict origin = .ok document) :
    ∃ checked record, validated grammar strict (blob.slice range) = .ok checked ∧
      recordOf grammar (blob.slice range) checked.tokens = .ok record ∧
      document = assembled blob range grammar origin checked record := by
  cases valid : validated grammar strict (blob.slice range) with
  | error violation =>
      rw [parse_of_invalid valid] at parsed
      cases parsed
  | ok checked =>
      rw [parse_of_valid valid] at parsed
      obtain ⟨record, made, rfl⟩ := map_eq_ok_iff.mp parsed
      exact ⟨checked, record, rfl, made, rfl⟩

theorem eq_assembled_of_parse {document : Document}
    (parsed : parse blob range grammar strict origin = .ok document) :
    ∃ checked record, document = assembled blob range grammar origin checked record := by
  obtain ⟨checked, record, _, _, same⟩ := exists_validated_of_parse parsed
  exact ⟨checked, record, same⟩

/-- Parsing is interrupted exactly where a numeral with too many digits is reached. -/
theorem parse_eq_interrupted (sound : grammar.IsSound) {interruption : Interruption} :
    parse blob range grammar strict origin = .error (.interrupted interruption) ↔
      ∃ count, interruption = .digitLimit count ∧
        grammar.ReachesOverlong strict (blob.slice range) count := by
  cases valid : validated grammar strict (blob.slice range) with
  | error violation =>
      rw [parse_of_invalid valid]
      constructor
      · intro same
        cases same
      · rintro ⟨count, _, checked, _, _, _, _, _, valid', _⟩
        rw [valid] at valid'
        cases valid'
  | ok checked =>
      rw [parse_of_valid valid, map_eq_error_iff, Grammar.recordOf_eq_interrupted sound,
        Grammar.decodeTokens, foldlM_eq_error_iff]
      constructor
      · rintro ⟨above, token, below, fields, split, before, failed⟩
        have collected := Grammar.collects_of_decodeTokens sound.uniform before
        obtain ⟨rule, found, failed⟩ :=
          (Grammar.decodeToken_eq_interrupted sound collected).mp failed
        obtain ⟨count, rfl, _⟩ := Grammar.overlong_of_values sound found failed
        exact ⟨count, rfl, checked, above, token, below, fields, rule, valid, split, before,
          found, failed⟩
      · rintro ⟨count, rfl, checked', above, token, below, fields, rule, valid', split, before,
          found, failed⟩
        rw [valid] at valid'
        cases valid'
        have collected := Grammar.collects_of_decodeTokens sound.uniform before
        exact ⟨above, token, below, fields, split, before,
          (Grammar.decodeToken_eq_interrupted sound collected).mpr ⟨rule, found, failed⟩⟩

end Document

end RelayDescriptor
