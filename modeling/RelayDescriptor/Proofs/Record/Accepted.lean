import RelayDescriptor.Proofs.Keyword.Occurrences
import RelayDescriptor.Proofs.Reading.Modes
import RelayDescriptor.Proofs.Record.Writes

/-!
# Records of accepted documents

The recognized lines of an accepted document satisfy the constraints of its grammar, and
its record is what they leave behind.  Only the digests and the authority sections of a
record come from elsewhere.
-/

namespace RelayDescriptor

theorem OrderedMap.find?_map {κ α β : Type} [DecidableEq κ] (change : κ → α → β) (key : κ)
    (map : OrderedMap κ α) :
    OrderedMap.find? key (map.map fun entry => (entry.1, change entry.1 entry.2)) =
      (OrderedMap.find? key map).map (change key) := by
  induction map with
  | nil => rfl
  | cons entry entries induction =>
      rw [List.map_cons, find?, find?]
      split
      next same =>
        rw [same]
        rfl
      next => exact induction

namespace Schema

variable {schema : Schema} {fields : Fields} {record : Record}

theorem find?_fill (name : String) :
    (schema.fill fields).find? name =
      (OrderedMap.find? name schema.fields).map (OrderedMap.find? name fields).getD :=
  OrderedMap.find?_map (fun name value => (OrderedMap.find? name fields).getD value) name
    schema.fields

theorem build_eq_ok_iff :
    schema.build fields = .ok record ↔ ∃ arranged, schema.arrange fields = .ok arranged ∧
      (∀ name ∈ OrderedMap.keys arranged, name ∈ schema.fieldNames) ∧
        record = schema.fill arranged := by
  rw [build]
  cases schema.arrange fields with
  | error violation => simp
  | ok arranged =>
      simp only [Except.ok.injEq, exists_eq_left', ← unknown_eq_nil_iff]
      cases schema.unknown arranged with
      | nil => simp [eq_comm]
      | cons name names => simp

theorem exists_arranged_of_build (built : schema.build fields = .ok record) :
    ∃ arranged, schema.arrange fields = .ok arranged ∧ record = schema.fill arranged := by
  obtain ⟨arranged, result, _, same⟩ := build_eq_ok_iff.mp built
  exact ⟨arranged, result, same⟩

/-- Arranging leaves a field alone. -/
def Keeps (schema : Schema) (name : String) : Prop :=
  ∀ fields arranged, schema.arrange fields = .ok arranged →
    OrderedMap.find? name arranged = OrderedMap.find? name fields

end Schema

theorem Digests.find?_write_of_ne {digests : Digests} {fields : Fields} {name : String}
    (sha1 : name ≠ digestField) (sha256 : name ≠ sha256Field) :
    OrderedMap.find? name (digests.write fields) = OrderedMap.find? name fields := by
  refine Digests.write_preserves (motive := fun later => OrderedMap.find? name later =
    OrderedMap.find? name fields) rfl ?_ ?_
  · intro later text _ before
    exact (OrderedMap.find?_insert_of_ne sha1 _ later).trans before
  · intro later text _ before
    exact (OrderedMap.find?_insert_of_ne sha256 _ later).trans before

theorem NetworkStatus.keeps_schema {name : String} (lines : name ≠ authorityLines)
    (sections : name ≠ sectionsField) : NetworkStatus.schema.Keeps name := by
  intro fields arranged result
  replace result : NetworkStatus.arrange fields = .ok arranged := result
  rw [NetworkStatus.arrange] at result
  split at result
  next values found =>
    obtain ⟨sources, _, same⟩ := bind_eq_ok_iff.mp result
    cases same
    exact (OrderedMap.find?_insert_of_ne sections _ _).trans
      (OrderedMap.find?_filter (fun other => other ≠ authorityLines) (decide_eq_true lines) fields)
  next =>
    cases result
    rfl

/-- The names under which values stand that no line leaves behind in the record: the digests, and
the lines of authority sections before and after they are grouped. -/
def arrangedNames : List String :=
  [digestField, sha256Field, NetworkStatus.authorityLines, NetworkStatus.sectionsField]

theorem Registry.keeps_of_ne {grammar : Grammar} (member : grammar ∈ standard) {name : String}
    (lines : name ≠ NetworkStatus.authorityLines) (sections : name ≠ NetworkStatus.sectionsField) :
    grammar.schema.Keeps name := by
  rcases mem_standard_iff.mp member with status | plain
  · rw [NetworkStatus.schema_of_mem status]
    exact NetworkStatus.keeps_schema lines sections
  · intro fields arranged result
    rw [arrange_of_mem_plain plain] at result
    cases result
    rfl

theorem Registry.keeps_of_mem_standard {grammar : Grammar} (member : grammar ∈ standard)
    {name : String} (ordinary : name ∉ arrangedNames) : grammar.schema.Keeps name := by
  simp only [arrangedNames, List.mem_cons, List.not_mem_nil, or_false, not_or] at ordinary
  obtain ⟨_, _, lines, sections⟩ := ordinary
  exact keeps_of_ne member lines sections

namespace Grammar

/-- How the record of an accepted document comes about from its recognized lines. -/
structure Acceptance (grammar : Grammar) (tokens : List Token) (record : Record) where
  /-- What the lines leave behind. -/
  fields : Fields
  digests : Digests
  unviolated : grammar.constraints.violation? (occurrences · tokens) = none
  decoded : grammar.decodeTokens tokens = .ok fields
  built : grammar.schema.build (digests.write fields) = .ok record

namespace Acceptance

variable {grammar : Grammar} {tokens : List Token} {record : Record} {keyword : Text}
  {field : String}

theorem occurrences_eq_one (acceptance : grammar.Acceptance tokens record)
    (required : keyword ∈ grammar.constraints.exactlyOnce) : occurrences keyword tokens = 1 :=
  (Constraints.violation?_eq_none_iff.mp acceptance.unviolated).1 keyword required

theorem occurrences_le_one (acceptance : grammar.Acceptance tokens record)
    (counted : keyword ∈ grammar.constraints.exactlyOnce ++ grammar.constraints.atMostOnce) :
    occurrences keyword tokens ≤ 1 := by
  rcases List.mem_append.mp counted with required | allowed
  · exact Nat.le_of_eq (acceptance.occurrences_eq_one required)
  · exact (Constraints.violation?_eq_none_iff.mp acceptance.unviolated).2.1 keyword allowed

theorem occurs_of_dependsOn (acceptance : grammar.Acceptance tokens record) {needed : Text}
    (needs : (keyword, needed) ∈ grammar.constraints.dependsOn)
    (occurs : 0 < occurrences keyword tokens) : 0 < occurrences needed tokens :=
  (Constraints.violation?_eq_none_iff.mp acceptance.unviolated).2.2 _ needs occurs

/-- A field that is not arranged holds what the lines leave behind, and its initial value if they
leave nothing behind. -/
theorem find?_record (acceptance : grammar.Acceptance tokens record)
    (member : grammar ∈ Registry.standard) (ordinary : field ∉ arrangedNames) :
    record.find? field = (OrderedMap.find? field grammar.schema.fields).map
      (OrderedMap.find? field acceptance.fields).getD := by
  have foreign := ordinary
  simp only [arrangedNames, List.mem_cons, List.not_mem_nil, or_false, not_or] at foreign
  obtain ⟨arranged, result, rfl⟩ := Schema.exists_arranged_of_build acceptance.built
  rw [Schema.find?_fill, Registry.keeps_of_mem_standard member ordinary _ _ result,
    Digests.find?_write_of_ne foreign.1 foreign.2.1]

end Acceptance

end Grammar

namespace Document

variable {blob : Blob} {range : ByteRange} {grammar : Grammar} {strict : Bool}
  {origin : Option Text} {document : Document}

/-- The recognized lines of a document. -/
def recognized (grammar : Grammar) (raw : List UInt8) : List Token :=
  (items raw).filterMap fun item =>
    item.token?.filter fun token => grammar.recognized.contains token.keyword

theorem exists_acceptance_of_parse
    (parsed : parse blob range grammar strict origin = .ok document) :
    Nonempty (grammar.Acceptance (recognized grammar (blob.slice range)) document.record) := by
  obtain ⟨checked, record, valid, made, rfl⟩ := exists_validated_of_parse parsed
  obtain ⟨unviolated, rfl⟩ := LineRules.validate_eq_ok_iff.mp valid
  rw [LineRules.violation?, Option.or_eq_none_iff, Option.or_eq_none_iff] at unviolated
  obtain ⟨fields, decoded, made⟩ := bind_eq_ok_iff.mp made
  obtain ⟨digests, _, built⟩ := bind_eq_ok_iff.mp made
  exact ⟨⟨fields, digests, unviolated.2.2, decoded, built⟩⟩

end Document

end RelayDescriptor
