import Mathlib.Data.List.TakeWhile
import RelayDescriptor.Proofs.Keyword.Verdict
import RelayDescriptor.Proofs.Line.Blocks
import RelayDescriptor.Proofs.Record.Agreement
import RelayDescriptor.Proofs.Record.Declarations
import RelayDescriptor.Proofs.Text.Encoding

/-!
# Documents with their lines in another order

The order of recognized lines matters only where it is the order in which values are given to
one field.  So a document says the same in every order of its lines that leaves each field its
values in order, and in particular with two lines swapped that write different fields.
-/

namespace RelayDescriptor

/-! ## Rules on lines -/

namespace LineRules

variable {rules : LineRules} {items others : List Item} {checked : Validated}

theorem leadingViolation?_of_head?_eq (head : items.head? = others.head?) :
    rules.leadingViolation? items = rules.leadingViolation? others := by
  cases items with
  | nil =>
      rw [List.head?_eq_none_iff.mp head.symm]
  | cons first items =>
      obtain ⟨others, rfl⟩ := List.head?_eq_some_iff.mp head.symm
      rfl

theorem strictViolation?_eq_none_of_perm (perm : items.Perm others)
    (known : rules.strictViolation? items = none) : rules.strictViolation? others = none := by
  rw [strictViolation?] at known ⊢
  split at known
  next strict =>
    rw [if_pos strict]
    rw [Option.map_eq_none_iff, firstUnrecognized?, List.find?_eq_none] at known ⊢
    exact fun item member => known item (perm.mem_iff.mpr member)
  next tolerant => exact if_neg tolerant

/-- Lines are valid in any order that keeps the first one. -/
theorem validate_of_perm (perm : items.Perm others) (head : items.head? = others.head?)
    (unrecognized : rules.unrecognizedLines items = rules.unrecognizedLines others)
    (valid : rules.validate items = .ok checked) :
    rules.validate others =
      .ok ⟨others.filterMap rules.recognize?, keywordCounts (others.filterMap rules.recognize?),
        checked.unrecognized⟩ := by
  obtain ⟨unviolated, rfl⟩ := validate_eq_ok_iff.mp valid
  rw [violation?, Option.or_eq_none_iff, Option.or_eq_none_iff] at unviolated
  obtain ⟨opened, known, counted⟩ := unviolated
  refine validate_eq_ok_iff.mpr ⟨?_, by rw [extract, extract, unrecognized]⟩
  rw [violation?, Option.or_eq_none_iff, Option.or_eq_none_iff]
  refine ⟨?_, strictViolation?_eq_none_of_perm perm known, ?_⟩
  · rwa [← leadingViolation?_of_head?_eq head]
  · rwa [Constraints.occurrences_of_perm (perm.filterMap rules.recognize?)]

end LineRules

/-! ## Values -/

namespace Grammar

variable {grammar : Grammar} {field : String} {fields : Fields} {token first second : Token}
  {tokens others : List Token}

/-- The fields that lines with a keyword write; lines that mean nothing write none. -/
def writtenFields (grammar : Grammar) (keyword : Text) : List String :=
  match grammar.rule? keyword with
  | none => []
  | some rule => rule.decoder.fields

theorem IsOrderly.valueOf?_eq_none_of_not_mem (orderly : grammar.IsOrderly)
    (foreign : field ∉ grammar.writtenFields token.keyword) :
    grammar.valueOf? field token = none := by
  apply orderly.valueOf?_eq_none
  intro rule found
  rwa [writtenFields, found] at foreign

theorem IsOrderly.writesAnew_or_addsTo (orderly : grammar.IsOrderly) (field : String) :
    grammar.WritesAnew field ∨ grammar.AddsTo field := by
  by_cases anew : grammar.WritesAnew field
  · exact .inl anew
  · right
    simp only [WritesAnew, not_forall, Bool.not_eq_false] at anew
    obtain ⟨rule, member, own, repeated⟩ := anew
    intro other inside shared
    cases once : other.repeated with
    | true => rfl
    | false => exact absurd shared (orderly.apart rule member repeated other inside once field own)

/-- The rule of a line, if there is one, reads it. -/
def Reads (grammar : Grammar) (token : Token) : Prop :=
  ∀ rule, grammar.rule? token.keyword = some rule →
    ∃ values, rule.decoder.values token = .ok values

theorem exists_decodeToken (orderly : grammar.IsOrderly) (reads : grammar.Reads token)
    (collected : grammar.Collects fields) :
    ∃ later, grammar.decodeToken fields token = .ok later := by
  rw [decodeToken]
  cases found : grammar.rule? token.keyword with
  | none => exact ⟨fields, rfl⟩
  | some rule =>
      obtain ⟨values, read⟩ := reads rule found
      have member := (orderly.rule?_eq_some_iff.mp found).1
      have updated := (orderly.complete rule member).uniform.updates read
      obtain ⟨later, written⟩ := collected.exists_writeAll orderly.apart member
        (mem_fields_of_updates orderly.areUniform member updated)
      exact ⟨later, bind_eq_ok_iff.mpr ⟨_, updated, written⟩⟩

/-- Lines are decoded exactly if each of them is read, in whatever order they come. -/
theorem exists_foldlM_iff (orderly : grammar.IsOrderly) (collected : grammar.Collects fields) :
    (∃ later, tokens.foldlM grammar.decodeToken fields = .ok later) ↔
      ∀ token ∈ tokens, grammar.Reads token := by
  constructor
  · rintro ⟨later, decoded⟩ token member rule found
    exact exists_values_of_foldlM decoded member found
  · intro reads
    induction tokens generalizing fields with
    | nil => exact ⟨fields, rfl⟩
    | cons token tokens induction =>
        obtain ⟨here, others⟩ := List.forall_mem_cons.mp reads
        obtain ⟨next, read⟩ := exists_decodeToken orderly here collected
        obtain ⟨later, rest⟩ : ∃ later, tokens.foldlM grammar.decodeToken next = .ok later :=
          induction (collected.decodeToken orderly.areUniform read) others
        rw [List.foldlM_cons]
        exact ⟨later, bind_eq_ok_iff.mpr ⟨next, read, rest⟩⟩

/-- The same lines in an order in which each field is given its values in the same order. -/
structure Rearranges (grammar : Grammar) (tokens others : List Token) : Prop where
  perm : tokens.Perm others
  values : ∀ field,
    tokens.filterMap (grammar.valueOf? field) = others.filterMap (grammar.valueOf? field)

theorem Rearranges.symm (rearranges : grammar.Rearranges tokens others) :
    grammar.Rearranges others tokens :=
  ⟨rearranges.perm.symm, fun field => (rearranges.values field).symm⟩

/-- Two lines that write different fields may be swapped. -/
theorem rearranges_swap (orderly : grammar.IsOrderly)
    (disjoint : List.Disjoint (grammar.writtenFields first.keyword)
      (grammar.writtenFields second.keyword)) (above below : List Token) :
    grammar.Rearranges (above ++ first :: second :: below)
      (above ++ second :: first :: below) where
  perm := (List.Perm.swap second first below).append_left above
  values := by
    intro field
    -- One of the two lines gives the field no value.
    have silent : grammar.valueOf? field first = none ∨ grammar.valueOf? field second = none := by
      by_cases own : field ∈ grammar.writtenFields first.keyword
      · exact .inr (orderly.valueOf?_eq_none_of_not_mem (disjoint own))
      · exact .inl (orderly.valueOf?_eq_none_of_not_mem own)
    rcases silent with none | none <;> simp [List.filterMap_cons, none]

theorem Rearranges.exists_decodeTokens (rearranges : grammar.Rearranges tokens others)
    (orderly : grammar.IsOrderly) (decoded : grammar.decodeTokens tokens = .ok fields) :
    ∃ otherFields, grammar.decodeTokens others = .ok otherFields ∧
      ∀ names, Fields.Agree names fields otherFields := by
  have start := collects_nil grammar
  have reads := (exists_foldlM_iff orderly start).mp ⟨fields, decoded⟩
  obtain ⟨otherFields, otherDecoded⟩ : ∃ later, grammar.decodeTokens others = .ok later :=
    (exists_foldlM_iff orderly start).mpr fun token member => reads token (rearranges.perm.mem_iff.mpr member)
  refine ⟨otherFields, otherDecoded, ?_⟩
  intro names name _
  rcases orderly.writesAnew_or_addsTo name with anew | adding
  · rw [find?_decodeTokens_anew orderly anew decoded, rearranges.values,
      find?_decodeTokens_anew orderly anew otherDecoded]
  · rw [find?_decodeTokens_adding orderly adding decoded, rearranges.values,
      find?_decodeTokens_adding orderly adding otherDecoded]

/-- Rearranged lines make up the same record apart from digests. -/
theorem Rearranges.exists_recordOf (rearranges : grammar.Rearranges tokens others)
    (member : grammar ∈ Registry.standard) {raw : List UInt8} {record : Record}
    (made : Document.recordOf grammar raw tokens = .ok record) (other : List UInt8) :
    ∃ otherRecord, Document.recordOf grammar other others = .ok otherRecord ∧
      otherRecord.without grammar.digestNames = record.without grammar.digestNames := by
  have separates := Registry.separatesDigests_of_mem_standard member
  have orderly := Registry.isOrderly_of_mem_standard member
  obtain ⟨fields, decoded, made⟩ := bind_eq_ok_iff.mp made
  obtain ⟨digests, computed, built⟩ := bind_eq_ok_iff.mp made
  obtain ⟨otherFields, otherDecoded, agree⟩ := rearranges.exists_decodeTokens orderly decoded
  rcases digests_cases separates raw other with
    ⟨fault, failed, _⟩ | ⟨_, otherDigests, computed', otherComputed, asked, otherAsked⟩
  · cases computed.symm.trans failed
  cases computed.symm.trans computed'
  have written : Fields.Agree grammar.digestNames (digests.write fields) fields :=
    Fields.agree_of_without_eq (without_write_digests asked fields)
  have otherWritten :
      Fields.Agree grammar.digestNames (otherDigests.write otherFields) otherFields :=
    Fields.agree_of_without_eq (without_write_digests otherAsked otherFields)
  obtain ⟨otherRecord, otherBuilt, same⟩ := Schema.exists_build_of_agree
    (Registry.respects_of_mem_standard member) separates.fields
    ((written.trans (agree _)).trans otherWritten.symm) built
  refine ⟨otherRecord, ?_, same⟩
  exact bind_eq_ok_iff.mpr ⟨otherFields, otherDecoded,
    bind_eq_ok_iff.mpr ⟨otherDigests, otherComputed, otherBuilt⟩⟩

end Grammar

/-! ## Documents -/

namespace Document

variable {grammar : Grammar} {raw other : List UInt8}

/-- Bytes with the same annotations and the same lines outside blocks, in an order that keeps the
first line and in which unrecognized lines and the values of each field keep theirs. -/
structure Rearranges (grammar : Grammar) (raw other : List UInt8) : Prop where
  annotations : (parts raw).1 = (parts other).1
  perm : (items raw).Perm (items other)
  head : (items raw).head? = (items other).head?
  unrecognized : ∀ strict, (grammar.lineRules strict).unrecognizedLines (items raw) =
    (grammar.lineRules strict).unrecognizedLines (items other)
  tokens : grammar.Rearranges (recognized grammar raw) (recognized grammar other)

theorem Rearranges.symm (rearranges : Rearranges grammar raw other) :
    Rearranges grammar other raw :=
  ⟨rearranges.annotations.symm, rearranges.perm.symm, rearranges.head.symm,
    fun strict => (rearranges.unrecognized strict).symm, rearranges.tokens.symm⟩

variable {blob otherBlob : Blob} {range otherRange : ByteRange} {strict : Bool}
  {origin : Option Text} {document : Document}

theorem Rearranges.exists_parse
    (rearranges : Rearranges grammar (blob.slice range) (otherBlob.slice otherRange))
    (member : grammar ∈ Registry.standard)
    (parsed : parse blob range grammar strict origin = .ok document) :
    ∃ otherDocument, parse otherBlob otherRange grammar strict origin = .ok otherDocument ∧
      content grammar.digestNames otherDocument = content grammar.digestNames document := by
  obtain ⟨checked, record, valid, made, rfl⟩ := exists_validated_of_parse parsed
  have otherValid : validated grammar strict (otherBlob.slice otherRange) =
      .ok ⟨recognized grammar (otherBlob.slice otherRange),
        keywordCounts (recognized grammar (otherBlob.slice otherRange)), checked.unrecognized⟩ :=
    LineRules.validate_of_perm rearranges.perm rearranges.head (rearranges.unrecognized strict)
      valid
  obtain ⟨_, rfl⟩ := LineRules.validate_eq_ok_iff.mp valid
  obtain ⟨otherRecord, otherMade, same⟩ :=
    rearranges.tokens.exists_recordOf member made (otherBlob.slice otherRange)
  have otherParsed : parse otherBlob otherRange grammar strict origin = _ :=
    parse_of_valid otherValid
  rw [otherMade] at otherParsed
  refine ⟨_, otherParsed, ?_⟩
  simp only [content, assembled, same, rearranges.annotations]

/-! ## Swapped lines -/

variable {above below : List Text} {first second : Text} {token next : Token}

/-- Two successive lines are items below those above them. -/
theorem parts_of_lines_eq (outside : Scan.EndsOutside above)
    (begun : Scan.items (splitAnnotations above).2 ≠ [])
    (isFirst : tokenize first = .item (.token token))
    (isSecond : tokenize second = .item (.token next))
    (holds : lines (Utf8.decode raw) = above ++ first :: second :: below) :
    (parts raw).1 = (splitAnnotations above).1 ∧
      items raw = Scan.items (splitAnnotations above).2 ++
        .token token :: .token next :: Scan.items below := by
  have body : ∃ line ∈ above, isAnnotation line = false := by
    by_contra none
    apply begun
    have all : ∀ line ∈ above, isAnnotation line = true := by simpa using none
    rw [splitAnnotations, List.span_eq_takeWhile_dropWhile, List.dropWhile_eq_nil_iff.mpr all]
    rfl
  have split : parts raw =
      ((splitAnnotations above).1, (splitAnnotations above).2 ++ first :: second :: below) := by
    rw [parts, holds, splitAnnotations_append (.inl body)]
  rw [items, split]
  refine ⟨rfl, ?_⟩
  rw [Scan.items_append (Scan.endsOutside_splitAnnotations outside), Scan.items_cons isFirst,
    Scan.items_cons isSecond]

theorem recognize?_of_known (known : token.keyword ∈ grammar.recognized) :
    (grammar.lineRules strict).recognize? (.token token) = some token :=
  LineRules.recognize?_eq_some_iff.mpr ⟨rfl, known⟩

theorem rearranges_of_swap (orderly : grammar.IsOrderly) {lead tail : List Item}
    (begun : lead ≠ []) (known : token.keyword ∈ grammar.recognized)
    (nextKnown : next.keyword ∈ grammar.recognized)
    (disjoint : List.Disjoint (grammar.writtenFields token.keyword)
      (grammar.writtenFields next.keyword))
    (annotations : (parts raw).1 = (parts other).1)
    (holds : items raw = lead ++ .token token :: .token next :: tail)
    (otherHolds : items other = lead ++ .token next :: .token token :: tail) :
    Rearranges grammar raw other where
  annotations := annotations
  perm := by
    rw [holds, otherHolds]
    exact (List.Perm.swap _ _ tail).append_left lead
  head := by
    rw [holds, otherHolds, List.head?_append_of_ne_nil lead begun,
      List.head?_append_of_ne_nil lead begun]
  unrecognized := by
    intro strict
    rw [LineRules.unrecognizedLines, LineRules.unrecognizedLines, holds, otherHolds]
    simp [recognize?_of_known known, recognize?_of_known nextKnown]
  tokens := by
    have kept : ∀ raw, recognized grammar raw =
        (items raw).filterMap (grammar.lineRules true).recognize? := fun _ => rfl
    simp only [kept, holds, otherHolds, List.filterMap_append, List.filterMap_cons,
      recognize?_of_known known, recognize?_of_known nextKnown]
    exact Grammar.rearranges_swap orderly disjoint _ _

/-- Two successive lines that write different fields may be swapped: a document is accepted with
them in one order exactly if it is in the other, and says the same apart from its digests.  The
lines are recognized and stand outside blocks, below the first line that does. -/
theorem parse_swap (grammar : Grammar) (member : grammar ∈ Registry.standard) (strict : Bool)
    (origin : Option Text) (above below : List Text) (first second : Text) (token next : Token)
    (outside : Scan.EndsOutside above) (begun : Scan.items (splitAnnotations above).2 ≠ [])
    (isFirst : tokenize first = .item (.token token))
    (isSecond : tokenize second = .item (.token next))
    (known : token.keyword ∈ grammar.recognized) (nextKnown : next.keyword ∈ grammar.recognized)
    (disjoint : List.Disjoint (grammar.writtenFields token.keyword)
      (grammar.writtenFields next.keyword))
    (blob other : Blob) (range otherRange : ByteRange)
    (holds : lines (Utf8.decode (blob.slice range)) = above ++ first :: second :: below)
    (otherHolds : lines (Utf8.decode (other.slice otherRange)) =
      above ++ second :: first :: below) :
    let reads := fun blob range => parse blob range grammar strict origin
    ((∃ document, reads blob range = .ok document) ↔
        ∃ document, reads other otherRange = .ok document) ∧
      ∀ document otherDocument, reads blob range = .ok document →
        reads other otherRange = .ok otherDocument →
          content grammar.digestNames document = content grammar.digestNames otherDocument := by
  intro reads
  have orderly := Registry.isOrderly_of_mem_standard member
  obtain ⟨annotations, items⟩ := parts_of_lines_eq outside begun isFirst isSecond holds
  obtain ⟨otherAnnotations, otherItems⟩ :=
    parts_of_lines_eq outside begun isSecond isFirst otherHolds
  have rearranges : Rearranges grammar (blob.slice range) (other.slice otherRange) :=
    rearranges_of_swap orderly begun known nextKnown disjoint
      (annotations.trans otherAnnotations.symm) items otherItems
  refine ⟨⟨?_, ?_⟩, ?_⟩
  · rintro ⟨document, parsed⟩
    obtain ⟨otherDocument, otherParsed, _⟩ := rearranges.exists_parse member parsed
    exact ⟨otherDocument, otherParsed⟩
  · rintro ⟨document, parsed⟩
    obtain ⟨otherDocument, otherParsed, _⟩ := rearranges.symm.exists_parse member parsed
    exact ⟨otherDocument, otherParsed⟩
  · intro document otherDocument parsed otherParsed
    obtain ⟨found, again, same⟩ := rearranges.exists_parse member parsed
    cases again.symm.trans otherParsed
    exact same.symm

theorem parse_swap_microdescriptor :
    ∃ grammar ∈ Registry.standard,
      let text := fun lines : List String => Utf8.encode (written (lines.map String.toList))
      let reads := fun bytes => parse ⟨bytes, none⟩ (wholeRange bytes) grammar true none
      ∃ document otherDocument,
        reads (text ["@x", "onion-key", "p accept 80", "a b:1", "a c:2"]) = .ok document ∧
          reads (text ["@x", "onion-key", "a b:1", "p accept 80", "a c:2"]) =
            .ok otherDocument ∧
          content grammar.digestNames document = content grammar.digestNames otherDocument := by
  have found : Registry.standard.find? .microdescriptor = some _ := rfl
  have member := List.mem_of_find?_eq_some found
  refine ⟨_, member, ?_⟩
  intro text reads
  have holds : ∀ texts : List String, (∀ line ∈ texts.map String.toList, IsLine line) →
      lines (Utf8.decode (Blob.slice ⟨text texts, none⟩ (wholeRange (text texts)))) =
        texts.map String.toList := by
    intro texts each
    rw [slice_bytes, Utf8.decode_encode, lines_written each]
  obtain ⟨both, same⟩ := parse_swap _ member true none (["@x", "onion-key"].map String.toList)
    ["a c:2".toList] "p accept 80".toList "a b:1".toList
    ⟨"p".toList, ["accept", "80"].map String.toList, "p accept 80".toList, false⟩
    ⟨"a".toList, ["b:1".toList], "a b:1".toList, false⟩ (by decide) (by decide) (by decide)
    (by decide) (by decide) (by decide) (List.disjoint_left.mpr (by decide)) ⟨_, none⟩ ⟨_, none⟩ _ _
    (holds ["@x", "onion-key", "p accept 80", "a b:1", "a c:2"] (by decide))
    (holds ["@x", "onion-key", "a b:1", "p accept 80", "a c:2"] (by decide))
  obtain ⟨document, parsed⟩ : ∃ document, reads
      (text ["@x", "onion-key", "p accept 80", "a b:1", "a c:2"]) = .ok document := ⟨_, rfl⟩
  obtain ⟨otherDocument, otherParsed⟩ := both.mp ⟨document, parsed⟩
  exact ⟨document, otherDocument, parsed, otherParsed, same _ _ parsed otherParsed⟩

end Document

end RelayDescriptor
