import RelayDescriptor.Proofs.Reading.LeadingLine
import RelayDescriptor.Proofs.Record.Typed

/-!
# Digests and the part of a document that they cover

A digest is taken from the first line of bytes that begins with the leading keyword, be it
the leading line or not, through the end marker.  The leading line is passed over if its
keyword is marked as deprecated or if it does not begin behind a line feed, and it comes
too late if a line of an embedded block above it begins with the keyword.
-/

namespace RelayDescriptor

namespace Document

/-- The first line of bytes that begins with the keyword starts at a position. -/
def IsKeywordStart (keyword raw : List UInt8) (start : Nat) : Prop :=
  LineAt keyword raw start ∧ ∀ earlier < start, ¬LineAt keyword raw earlier

/-- The bytes from a position through the first marker that begins there or later. -/
def IsSignedPart (marker raw : List UInt8) (start : Nat) (signed : List UInt8) : Prop :=
  ∃ stop, start ≤ stop ∧ stop ≤ raw.length ∧ marker <+: raw.drop stop ∧
    (∀ earlier, start ≤ earlier → earlier < stop → ¬marker <+: raw.drop earlier) ∧
    signed = (raw.take (stop + marker.length)).drop start

end Document

open Document

namespace Digests

variable {keyword marker raw signed : List UInt8} {start : Nat}

theorem fromKeyword?_eq_some_iff :
    fromKeyword? keyword raw = some signed ↔
      ∃ start, IsKeywordStart keyword raw start ∧ signed = raw.drop start := by
  rw [fromKeyword?]
  split
  next begins =>
    have first : LineAt keyword raw 0 := lineAt_zero.mpr (List.isPrefixOf_iff_prefix.mp begins)
    constructor
    · rintro ⟨⟩
      exact ⟨0, ⟨first, fun earlier below => absurd below (Nat.not_lt_zero _)⟩, rfl⟩
    · rintro ⟨start, ⟨_, least⟩, rfl⟩
      cases start with
      | zero => rfl
      | succ start => exact absurd first (least 0 (Nat.succ_pos start))
  next other =>
    have notFirst : ¬LineAt keyword raw 0 := by
      rwa [lineAt_zero, ← List.isPrefixOf_iff_prefix]
    rw [Option.map_eq_some_iff]
    constructor
    · rintro ⟨start, found, rfl⟩
      obtain ⟨positive, line, least⟩ := nextLine?_eq_some_iff.mp found
      refine ⟨start, ⟨line, fun earlier below => ?_⟩, rfl⟩
      cases earlier with
      | zero => exact notFirst
      | succ earlier => exact least (earlier + 1) (Nat.succ_pos earlier) below
    · rintro ⟨start, ⟨line, least⟩, rfl⟩
      have positive : 0 < start := by
        apply Nat.pos_of_ne_zero
        rintro rfl
        exact notFirst line
      exact ⟨start, nextLine?_eq_some_iff.mpr
        ⟨positive, line, fun earlier _ below => least earlier below⟩, rfl⟩

theorem throughMarker?_eq_some_iff (inside : start ≤ raw.length) :
    throughMarker? marker (raw.drop start) = some signed ↔
      IsSignedPart marker raw start signed := by
  simp only [throughMarker?, Option.map_eq_some_iff, searchFrom_eq_some_iff, List.drop_drop,
    List.length_drop]
  constructor
  · rintro ⟨count, ⟨bound, occurs, least⟩, rfl⟩
    refine ⟨start + count, Nat.le_add_right _ _, by omega, occurs, ?_, ?_⟩
    · intro earlier behind before
      obtain ⟨skipped, rfl⟩ := Nat.exists_eq_add_of_le behind
      exact least skipped (Nat.lt_of_add_lt_add_left before)
    · rw [List.drop_take, Nat.add_assoc, Nat.add_sub_cancel_left]
  · rintro ⟨stop, behind, bound, occurs, least, rfl⟩
    obtain ⟨count, rfl⟩ := Nat.exists_eq_add_of_le behind
    refine ⟨count, ⟨by omega, occurs, ?_⟩, ?_⟩
    · intro earlier before
      exact least _ (Nat.le_add_right _ _) (Nat.add_lt_add_left before start)
    · rw [List.drop_take, Nat.add_assoc, Nat.add_sub_cancel_left]

variable {digests : Digests} {fields : Fields}

theorem find?_write_sha1 (foreign : OrderedMap.find? digestField fields = none) :
    OrderedMap.find? digestField (digests.write fields) = digests.sha1.map .text := by
  obtain ⟨first, second⟩ := digests
  have between : OrderedMap.find? digestField (write ⟨first, none⟩ fields) = first.map .text := by
    cases first with
    | none => exact foreign
    | some text => exact OrderedMap.find?_insert_self digestField _ fields
  cases second with
  | none => exact between
  | some text => exact (OrderedMap.find?_insert_of_ne (by decide) _ _).trans between

theorem find?_write_sha256 (foreign : OrderedMap.find? sha256Field fields = none) :
    OrderedMap.find? sha256Field (digests.write fields) = digests.sha256.map .text := by
  obtain ⟨first, second⟩ := digests
  cases second with
  | none =>
      cases first with
      | none => exact foreign
      | some text => exact (OrderedMap.find?_insert_of_ne (by decide) _ fields).trans foreign
  | some text => exact OrderedMap.find?_insert_self sha256Field _ _

end Digests

/-! ## The digests of a grammar -/

/-- A digest that a grammar asks for. -/
structure DigestRule where
  field : String
  /-- Where the signed part ends. -/
  marker : Text
  text : List UInt8 → Text

namespace DigestRule

/-- A digest covers the bytes from a position through the first end marker. -/
def Covers (rule : DigestRule) (raw : List UInt8) (start : Nat) (digest : Text) : Prop :=
  ∃ signed, IsSignedPart (rule.marker.map Ascii.byte) raw start signed ∧ digest = rule.text signed

end DigestRule

namespace Grammar

variable {grammar : Grammar} {rule : DigestRule} {raw : List UInt8} {fields : Fields}
  {digests : Digests}

/-- The digests that a grammar asks for. -/
def digestRules (grammar : Grammar) : List DigestRule :=
  (grammar.digestEnd.map fun marker => ⟨digestField, marker, Digests.sha1Text⟩).toList ++
    (grammar.sha256End.map fun marker => ⟨sha256Field, marker, Digests.sha256Text⟩).toList

theorem mem_digestRules_iff :
    rule ∈ grammar.digestRules ↔
      (∃ marker, grammar.digestEnd = some marker ∧ rule = ⟨digestField, marker, Digests.sha1Text⟩) ∨
        ∃ marker, grammar.sha256End = some marker ∧
          rule = ⟨sha256Field, marker, Digests.sha256Text⟩ := by
  simp only [digestRules, List.mem_append, Option.mem_toList, Option.map_eq_some_iff,
    @eq_comm _ _ rule]

/-- The leading keyword in bytes. -/
def leadingBytes (grammar : Grammar) : List UInt8 := grammar.leading.map Ascii.byte

theorem digests_of_isSound (sound : grammar.IsSound) (raw : List UInt8) :
    grammar.digests raw = .ok
      ⟨Digests.textOf? Digests.sha1Text grammar.digestEnd
          (Digests.fromKeyword? grammar.leadingBytes raw),
        Digests.textOf? Digests.sha256Text grammar.sha256End
          (Digests.fromKeyword? grammar.leadingBytes raw)⟩ := by
  rw [digests, Digests.compute_of_encode (Ascii.encode_of_isAscii sound.leading)
    sound.sha1Marker sound.sha256Marker]
  rfl

/-- Of the digests of a document the field holds the one that is asked for. -/
theorem find?_write_digests (sound : grammar.IsSound) (member : rule ∈ grammar.digestRules)
    (computed : grammar.digests raw = .ok digests)
    (foreign : OrderedMap.find? rule.field fields = none) :
    OrderedMap.find? rule.field (digests.write fields) =
      (Digests.textOf? rule.text (some rule.marker)
        (Digests.fromKeyword? grammar.leadingBytes raw)).map .text := by
  rw [digests_of_isSound sound] at computed
  cases computed
  rcases mem_digestRules_iff.mp member with ⟨marker, asked, rfl⟩ | ⟨marker, asked, rfl⟩
  · rw [Digests.find?_write_sha1 foreign, asked]
  · rw [Digests.find?_write_sha256 foreign, asked]

end Grammar

namespace Registry

variable {grammar : Grammar} {rule : DigestRule}

/-- No line writes a digest. -/
theorem not_mem_fields_of_mem_digestRules (member : grammar ∈ standard)
    (asked : rule ∈ grammar.digestRules) :
    ∀ fieldRule ∈ grammar.rules, rule.field ∉ fieldRule.decoder.fields := by
  have foreign : ∀ grammar ∈ standard, ∀ rule ∈ grammar.digestRules,
      ∀ fieldRule ∈ grammar.rules, rule.field ∉ fieldRule.decoder.fields := by decide +kernel
  exact foreign grammar member rule asked

/-- Without a digest its field is absent. -/
theorem startsAbsent_of_mem_digestRules (member : grammar ∈ standard)
    (asked : rule ∈ grammar.digestRules) : grammar.StartsAbsent rule.field := by
  have absent : ∀ grammar ∈ standard, ∀ rule ∈ grammar.digestRules,
      grammar.StartsAbsent rule.field := by decide +kernel
  exact absent grammar member rule asked

/-- Digests are not among the lines of authority sections. -/
theorem keeps_of_mem_digestRules (member : grammar ∈ standard)
    (asked : rule ∈ grammar.digestRules) : grammar.schema.Keeps rule.field := by
  have digestFields : rule.field = digestField ∨ rule.field = sha256Field := by
    rcases Grammar.mem_digestRules_iff.mp asked with ⟨marker, _, rfl⟩ | ⟨marker, _, rfl⟩
    · exact .inl rfl
    · exact .inr rfl
  have ordinary : rule.field ≠ NetworkStatus.authorityLines ∧
      rule.field ≠ NetworkStatus.sectionsField := by
    rcases digestFields with same | same
    · rw [same]
      decide
    · rw [same]
      decide
  exact keeps_of_ne member ordinary.1 ordinary.2

end Registry

namespace Document

variable {blob : Blob} {range : ByteRange} {grammar : Grammar} {strict : Bool}
  {origin : Option Text} {document : Document} {rule : DigestRule} {raw : List UInt8}
  {position start other : Nat} {token : Token}

theorem IsKeywordStart.unique {keyword : List UInt8} (first : IsKeywordStart keyword raw start)
    (second : IsKeywordStart keyword raw other) : start = other := by
  rcases Nat.lt_trichotomy start other with before | same | after
  · exact absurd first.1 (second.2 start before)
  · exact same
  · exact absurd second.1 (first.2 other after)

/-- The search for the keyword ends at the leading line: it begins behind a line feed, its keyword
is not marked as deprecated, and no line above it begins with the keyword. -/
def IsFound (keyword raw : List UInt8) (position : Nat) (token : Token) : Prop :=
  IsLineStart raw position ∧ token.deprecated = false ∧
    ∀ earlier < position, ¬LineAt keyword raw earlier

theorem LeadsAt.isKeywordStart_iff (leads : LeadsAt grammar.leading raw position token)
    (distinct : IsDistinctKeyword grammar.leading) :
    IsKeywordStart grammar.leadingBytes raw position ↔
      IsFound grammar.leadingBytes raw position token := by
  rw [IsKeywordStart, Grammar.leadingBytes, leads.lineAt_iff distinct, and_assoc, IsFound]

theorem raw_of_parse (parsed : parse blob range grammar strict origin = .ok document) :
    document.raw = blob.slice range := by
  obtain ⟨checked, record, rfl⟩ := eq_assembled_of_parse parsed
  rfl

theorem exists_leadsAt_of_parse
    (parsed : parse blob range grammar strict origin = .ok document) :
    ∃ position token, LeadsAt grammar.leading document.raw position token := by
  obtain ⟨checked, record, valid, _, rfl⟩ := exists_validated_of_parse parsed
  obtain ⟨unviolated, _⟩ := LineRules.validate_eq_ok_iff.mp valid
  rw [LineRules.violation?, Option.or_eq_none_iff] at unviolated
  have opened := unviolated.1
  cases lines : items (blob.slice range) with
  | nil =>
      rw [show Scan.items _ = [] from lines] at opened
      cases opened
  | cons item others =>
      rw [show Scan.items _ = item :: others from lines, LineRules.leadingViolation?] at opened
      split at opened
      next leads =>
        cases item with
        | blank line => cases leads
        | token token =>
            have first : (items (blob.slice range)).head? = some (.token token) := by
              rw [lines]
              rfl
            obtain ⟨position, leads⟩ := exists_leadsAt first (Option.some.inj leads)
            exact ⟨position, token, leads⟩
      next => cases opened

/-- The record holds the digest of what is found in the bytes, or nothing. -/
theorem find?_digest (member : grammar ∈ Registry.standard)
    (parsed : parse blob range grammar strict origin = .ok document)
    (asked : rule ∈ grammar.digestRules) :
    document.record.find? rule.field =
      some (((Digests.textOf? rule.text (some rule.marker)
        (Digests.fromKeyword? grammar.leadingBytes document.raw)).map .text).getD .absent) := by
  obtain ⟨checked, record, _, made, rfl⟩ := exists_validated_of_parse parsed
  obtain ⟨fields, decoded, made⟩ := bind_eq_ok_iff.mp made
  obtain ⟨digests, computed, built⟩ := bind_eq_ok_iff.mp made
  obtain ⟨arranged, result, rfl⟩ := Schema.exists_arranged_of_build built
  have foreign : OrderedMap.find? rule.field fields = none := by
    rw [OrderedMap.find?_eq_none_iff]
    intro written
    have collected :=
      Grammar.collects_of_decodeTokens (Registry.areUniform_of_mem_standard member) decoded
    obtain ⟨fieldRule, inside, own⟩ := collected.written _ written
    exact Registry.not_mem_fields_of_mem_digestRules member asked fieldRule inside own
  show (grammar.schema.fill arranged).find? rule.field = _
  rw [Schema.find?_fill, Registry.keeps_of_mem_digestRules member asked _ _ result,
    Grammar.find?_write_digests (Registry.isSound_of_mem_standard member) asked computed foreign,
    show OrderedMap.find? rule.field grammar.schema.fields = some .absent from
      Registry.startsAbsent_of_mem_digestRules member asked]
  rfl

end Document

namespace DigestRule

/-- A digest covers the bytes from the first line on that begins with the keyword. -/
def Finds (rule : DigestRule) (keyword raw : List UInt8) (digest : Text) : Prop :=
  ∃ start, IsKeywordStart keyword raw start ∧ rule.Covers raw start digest

theorem textOf?_eq_some_iff {rule : DigestRule} {keyword raw : List UInt8} {digest : Text} :
    Digests.textOf? rule.text (some rule.marker) (Digests.fromKeyword? keyword raw) =
      some digest ↔ rule.Finds keyword raw digest := by
  simp only [Digests.textOf?, Option.bind_eq_some_iff, Option.bind_some, Option.map_eq_some_iff,
    Digests.fromKeyword?_eq_some_iff]
  constructor
  · rintro ⟨_, ⟨start, first, rfl⟩, signed, through, rfl⟩
    have inside := first.1.1.le_length
    exact ⟨start, first, signed, (Digests.throughMarker?_eq_some_iff inside).mp through, rfl⟩
  · rintro ⟨start, first, signed, part, rfl⟩
    have inside := first.1.1.le_length
    exact ⟨_, ⟨start, first, rfl⟩, signed,
      (Digests.throughMarker?_eq_some_iff inside).mpr part, rfl⟩

end DigestRule

namespace Document

variable {blob : Blob} {range : ByteRange} {grammar : Grammar} {strict : Bool}
  {origin : Option Text} {document : Document} {rule : DigestRule} {digest : Text}

theorem find?_digest_eq_some_text_iff (member : grammar ∈ Registry.standard)
    (parsed : parse blob range grammar strict origin = .ok document)
    (asked : rule ∈ grammar.digestRules) :
    document.record.find? rule.field = some (.text digest) ↔
      rule.Finds grammar.leadingBytes document.raw digest := by
  rw [find?_digest member parsed asked, ← DigestRule.textOf?_eq_some_iff]
  cases Digests.textOf? rule.text (some rule.marker)
      (Digests.fromKeyword? grammar.leadingBytes document.raw) with
  | none => simp
  | some text => simp

theorem isAbsent_digest_iff (member : grammar ∈ Registry.standard)
    (parsed : parse blob range grammar strict origin = .ok document)
    (asked : rule ∈ grammar.digestRules) :
    document.record.IsAbsent rule.field ↔
      ∀ digest, ¬rule.Finds grammar.leadingBytes document.raw digest := by
  rw [Record.IsAbsent, find?_digest member parsed asked]
  simp only [← DigestRule.textOf?_eq_some_iff]
  cases Digests.textOf? rule.text (some rule.marker)
      (Digests.fromKeyword? grammar.leadingBytes document.raw) with
  | none => simp
  | some text => simp

/-- A digest that a document has covers the bytes from its leading line through the first end
marker. -/
def CoversSigned (grammar : Grammar) (document : Document) : Prop :=
  ∀ position token, LeadsAt grammar.leading document.raw position token →
    ∀ rule ∈ grammar.digestRules, document.record.IsSet rule.field →
      ∃ digest, document.record.find? rule.field = some (.text digest) ∧
        rule.Covers document.raw position digest

theorem coversSigned_of_isFound (member : grammar ∈ Registry.standard)
    (parsed : parse blob range grammar strict origin = .ok document)
    {position : Nat} {token : Token}
    (leads : LeadsAt grammar.leading document.raw position token)
    (found : IsFound grammar.leadingBytes document.raw position token) :
    document.CoversSigned grammar := by
  have distinct := Registry.isDistinctKeyword_of_mem_standard member
  intro other otherToken others rule asked given
  obtain rfl : other = position := leads.unique distinct others
  have taken : ¬∀ digest, ¬rule.Finds grammar.leadingBytes document.raw digest := by
    rw [← isAbsent_digest_iff member parsed asked]
    exact given.not_isAbsent
  obtain ⟨digest, finds⟩ := not_forall_not.mp taken
  refine ⟨digest, (find?_digest_eq_some_text_iff member parsed asked).mpr finds, ?_⟩
  obtain ⟨start, first, covers⟩ := finds
  rwa [first.unique ((leads.isKeywordStart_iff distinct).mpr found)] at covers

/-- A digest of an accepted document covers the bytes from the first line that begins with the
leading keyword through the first end marker, and is absent if there is no such line or no marker
behind it.  That line is the leading line, of which there is one, if and only if the search finds
it; a line above the leading line that is found in its stead stands within an open block. -/
theorem coversSigned_of_parse (member : grammar ∈ Registry.standard)
    (parsed : parse blob range grammar strict origin = .ok document) :
    (∀ rule ∈ grammar.digestRules,
      (∀ digest, document.record.find? rule.field = some (.text digest) ↔
        rule.Finds grammar.leadingBytes document.raw digest) ∧
      (document.record.IsAbsent rule.field ↔
        ∀ digest, ¬rule.Finds grammar.leadingBytes document.raw digest)) ∧
    ∃ position token, LeadsAt grammar.leading document.raw position token ∧
      (∀ other otherToken, LeadsAt grammar.leading document.raw other otherToken →
        other = position) ∧
      (∀ start, IsKeywordStart grammar.leadingBytes document.raw start →
        (start = position ↔ IsFound grammar.leadingBytes document.raw position token)) ∧
      (∀ earlier < position, LineAt grammar.leadingBytes document.raw earlier →
        ¬Scan.EndsOutside (parts (document.raw.take earlier)).2) ∧
      (IsFound grammar.leadingBytes document.raw position token →
        document.CoversSigned grammar) := by
  have distinct := Registry.isDistinctKeyword_of_mem_standard member
  refine ⟨fun rule asked => ⟨fun digest => ?_, isAbsent_digest_iff member parsed asked⟩, ?_⟩
  · exact find?_digest_eq_some_text_iff member parsed asked
  · obtain ⟨position, token, leads⟩ := exists_leadsAt_of_parse parsed
    refine ⟨position, token, leads, fun other otherToken others => leads.unique distinct others,
      ?_, ?_, coversSigned_of_isFound member parsed leads⟩
    · intro start first
      rw [← leads.isKeywordStart_iff distinct]
      constructor
      · rintro rfl
        exact first
      · exact first.unique
    · intro earlier before line
      exact leads.not_endsOutside distinct before line

theorem coversSigned_of_parse_annotated :
    let bytes := ("@a\nextra-info b 0000000000000000000000000000000000000000\n" ++
      "published 2012-02-10 18:32:51\nrouter-signature\n").toList.map Ascii.byte
    ∃ grammar ∈ Registry.standard, ∃ document,
      parse ⟨bytes, none⟩ (wholeRange bytes) grammar true none = .ok document ∧
        document.CoversSigned grammar ∧
          document.record.find? digestField =
            some (.text "4161393E32E3058B22FC4D9D4B5EB38DC0565B3B".toList) := by
  intro bytes
  have registered : Registry.standard.find? .extraInfo = some _ := rfl
  have member := List.mem_of_find?_eq_some registered
  let grammar := ExtraInfo.grammar .extraInfo "Relay extra-info descriptor"
  have accepted : (parse ⟨bytes, none⟩ (wholeRange bytes) grammar true none).isOk = true := by
    decide +kernel
  obtain ⟨document, parsed⟩ := exists_of_isOk accepted
  have whole : document.raw = bytes := by
    rw [raw_of_parse parsed, slice_bytes]
  let line := "extra-info b 0000000000000000000000000000000000000000".toList
  let leading : Token :=
    ⟨grammar.leading, ["b".toList, "0000000000000000000000000000000000000000".toList], line, false⟩
  have here : LeadsAt grammar.leading document.raw 3 leading := by
    rw [whole]
    decide +kernel
  obtain ⟨digests, position, token, leads, unique, _, _, covers⟩ :=
    coversSigned_of_parse member parsed
  obtain rfl : 3 = position := unique 3 leading here
  have found : IsFound grammar.leadingBytes document.raw 3 token := by
    obtain rfl : leading = token :=
      Item.token.inj (Option.some.inj (here.first.symm.trans leads.first))
    have none : ∀ earlier < 3, ¬grammar.leadingBytes <+: bytes.drop earlier := by decide +kernel
    rw [whole]
    exact ⟨.inr rfl, rfl, fun earlier before line => none earlier before line.2⟩
  refine ⟨grammar, member, document, parsed, covers found, ?_⟩
  have asked : (⟨digestField, "\nrouter-signature\n".toList, Digests.sha1Text⟩ : DigestRule) ∈
    grammar.digestRules := List.mem_singleton_self _
  rw [(digests _ asked).1, ← DigestRule.textOf?_eq_some_iff, whole]
  decide +kernel

/-- A line within a block that begins with the keyword is taken for the leading line. -/
theorem not_coversSigned_block :
    let bytes := ("@a\n-----BEGIN X-----\nextra-info-x\n-----END X-----\n" ++
      "extra-info b 0000000000000000000000000000000000000000\n" ++
      "published 2012-02-10 18:32:51\nrouter-signature\n").toList.map Ascii.byte
    ∃ grammar ∈ Registry.standard, ∃ document,
      parse ⟨bytes, none⟩ (wholeRange bytes) grammar true none = .ok document ∧
        ¬document.CoversSigned grammar := by
  intro bytes
  have registered : Registry.standard.find? .extraInfo = some _ := rfl
  have member := List.mem_of_find?_eq_some registered
  let grammar := ExtraInfo.grammar .extraInfo "Relay extra-info descriptor"
  have accepted : (parse ⟨bytes, none⟩ (wholeRange bytes) grammar true none).isOk = true := by
    decide +kernel
  obtain ⟨document, parsed⟩ := exists_of_isOk accepted
  have whole : document.raw = bytes := by
    rw [raw_of_parse parsed, slice_bytes]
  let line := "extra-info b 0000000000000000000000000000000000000000".toList
  let leading : Token :=
    ⟨grammar.leading, ["b".toList, "0000000000000000000000000000000000000000".toList], line, false⟩
  have leads : LeadsAt grammar.leading document.raw 50 leading := by
    rw [whole]
    decide +kernel
  let rule : DigestRule := ⟨digestField, "\nrouter-signature\n".toList, Digests.sha1Text⟩
  have asked : rule ∈ grammar.digestRules := List.mem_singleton_self _
  -- The digest in the record, and that of the signed part.
  have taken : document.record.find? rule.field =
      some (.text "1F97FF9F581526A14BAB6E07D7A382D67F4C68D6".toList) := by
    rw [find?_digest_eq_some_text_iff member parsed asked, ← DigestRule.textOf?_eq_some_iff, whole]
    decide +kernel
  have part : Digests.throughMarker? (rule.marker.map Ascii.byte) (bytes.drop 50) =
      some (bytes.drop 50) := by decide +kernel
  have signed : Digests.sha1Text (bytes.drop 50) =
      "4161393E32E3058B22FC4D9D4B5EB38DC0565B3B".toList := by decide +kernel
  refine ⟨grammar, member, document, parsed, fun covers => ?_⟩
  obtain ⟨digest, found, other, covered, rfl⟩ :=
    covers 50 leading leads rule asked ⟨_, taken, Value.noConfusion⟩
  rw [whole] at covered
  rw [← Digests.throughMarker?_eq_some_iff (by decide +kernel), part] at covered
  obtain rfl := Option.some.inj covered
  have same := Value.text.inj (Option.some.inj (found.symm.trans taken))
  rw [show rule.text (bytes.drop 50) = _ from signed] at same
  exact absurd same (by decide)

end Document

end RelayDescriptor
