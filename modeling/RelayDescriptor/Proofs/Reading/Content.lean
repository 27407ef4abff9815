import RelayDescriptor.Proofs.Reading.Parsing

/-!
# What a document says apart from its digests

Only the digests of a document depend on bytes that are no line of it.  Where its end
markers are ASCII and its record is made up without a look at the digests, documents
with the same annotations and the same lines outside blocks have the same outcome apart
from their digests.
-/

namespace RelayDescriptor

namespace Fields

variable {names : List String} {name : String} {value : Value} {fields others : Fields}

/-- The collection without the fields of some names. -/
def without (names : List String) (fields : Fields) : Fields :=
  fields.filter fun entry => entry.1 ∉ names

theorem without_write (member : name ∈ names) (value : Value) (fields : Fields) :
    without names (write name value fields) = without names fields := by
  have insert : ∀ fields : List (String × Value),
      (OrderedMap.insert name value fields).filter (fun entry => entry.1 ∉ names) =
        fields.filter fun entry => entry.1 ∉ names := by
    intro fields
    induction fields with
    | nil => simp [OrderedMap.insert, member]
    | cons entry fields induction =>
        obtain ⟨key, old⟩ := entry
        rw [OrderedMap.insert]
        split
        next same => simp [same, member]
        next => rw [List.filter_cons, List.filter_cons, induction]
  exact insert fields

theorem find?_without (absent : name ∉ names) (fields : Fields) :
    OrderedMap.find? name (without names fields) = OrderedMap.find? name fields :=
  OrderedMap.find?_filter (fun other => other ∉ names) (decide_eq_true absent) fields

/-- Collections agree on all fields but those of some names. -/
def Agree (names : List String) (fields others : Fields) : Prop :=
  ∀ name, name ∉ names → OrderedMap.find? name fields = OrderedMap.find? name others

theorem agree_of_without_eq (same : without names fields = without names others) :
    Agree names fields others := by
  intro name absent
  rw [← find?_without absent fields, same, find?_without absent]

end Fields

/-- The record without the fields of some names. -/
def Record.without (names : List String) (record : Record) : Record :=
  { record with fields := record.fields.filter fun entry => entry.1 ∉ names }

namespace Schema

variable {schema : Schema} {names : List String} {fields others : Fields}

/-- Values are arranged without a look at the fields of some names. -/
def Ignores (schema : Schema) (names : List String) : Prop :=
  ∀ fields others, Fields.without names fields = Fields.without names others →
    (schema.arrange fields).map (Fields.without names) =
      (schema.arrange others).map (Fields.without names)

theorem ignores_of_arrange (plain : schema.arrange = .ok) : schema.Ignores names := by
  intro fields others same
  rw [plain]
  exact congrArg Except.ok same

theorem ignores_nil : schema.Ignores [] := by
  intro fields others same
  have all : ∀ fields, Fields.without [] fields = fields := by
    intro fields
    exact List.filter_eq_self.mpr (by simp)
  rw [all, all] at same
  rw [same]

theorem unknown_of_without_eq (known : ∀ name ∈ names, name ∈ schema.fieldNames)
    (same : Fields.without names fields = Fields.without names others) :
    schema.unknown fields = schema.unknown others := by
  have kept : ∀ fields, schema.unknown (Fields.without names fields) = schema.unknown fields := by
    intro fields
    rw [unknown, unknown, OrderedMap.keys, OrderedMap.keys, List.filter_map, List.filter_map,
      Fields.without, List.filter_filter]
    congr 1
    refine List.filter_congr fun entry _ => ?_
    by_cases inside : entry.1 ∈ names
    · simp [known entry.1 inside]
    · simp [inside]
  rw [← kept, same, kept]

theorem fill_of_agree (agree : Fields.Agree names fields others) :
    (schema.fill fields).without names = (schema.fill others).without names := by
  simp only [Record.without, fill, List.filter_map]
  congr 1
  refine List.map_congr_left fun entry member => ?_
  have absent : entry.1 ∉ names := by simpa using (List.mem_filter.mp member).2
  rw [agree entry.1 absent]

theorem build_of_without_eq (ignores : schema.Ignores names)
    (known : ∀ name ∈ names, name ∈ schema.fieldNames)
    (same : Fields.without names fields = Fields.without names others) :
    (schema.build fields).map (Record.without names) =
      (schema.build others).map (Record.without names) := by
  rw [build, build]
  rcases map_eq_map_cases (ignores fields others same) with
    ⟨violation, left, right⟩ | ⟨arranged, otherwise, left, right, same⟩
  · rw [left, right]
  · rw [left, right]
    dsimp only
    rw [unknown_of_without_eq known same]
    split
    · exact congrArg Except.ok (fill_of_agree (Fields.agree_of_without_eq same))
    · rfl

end Schema

namespace Grammar

variable {grammar : Grammar} {digests : Digests} {fields : Fields}

/-- The digest fields that a grammar asks for. -/
def digestNames (grammar : Grammar) : List String :=
  (if grammar.digestEnd.isSome then [digestField] else []) ++
    if grammar.sha256End.isSome then [sha256Field] else []

/-- A grammar whose digests are computed from any bytes, have fields of their own, and have no
influence on anything else. -/
structure SeparatesDigests (grammar : Grammar) : Prop where
  fields : ∀ name ∈ grammar.digestNames, name ∈ grammar.schema.fieldNames
  sha1Marker : Digests.IsAsciiMarker grammar.digestEnd
  sha256Marker : Digests.IsAsciiMarker grammar.sha256End
  ignores : grammar.schema.Ignores grammar.digestNames

theorem check_eq_ok_iff : grammar.check = .ok grammar ↔ grammar.contradiction? = none := by
  rw [check]
  split
  next error found => simp [found]
  next absent => simp [absent]

theorem mem_fieldNames_of_check (defined : grammar.check = .ok grammar) :
    ∀ name ∈ grammar.digestNames, name ∈ grammar.schema.fieldNames := by
  have complete : grammar.missingDigest? = none := by
    have none := check_eq_ok_iff.mp defined
    rw [contradiction?] at none
    split at none
    next => cases none
    next =>
      simp only [ite_eq_iff, reduceCtorEq, and_false, false_or] at none
      exact Option.map_eq_none_iff.mp none.2.2.2
  rw [missingDigest?, Option.map_eq_none_iff, List.find?_eq_none] at complete
  have sha1 := complete (grammar.digestEnd, digestField) List.mem_cons_self
  have sha256 := complete (grammar.sha256End, sha256Field)
    (List.mem_cons_of_mem _ List.mem_cons_self)
  intro name member
  rw [digestNames, List.mem_append] at member
  rcases member with first | second
  · split at first
    next asked =>
      obtain rfl := List.mem_singleton.mp first
      simpa [asked] using sha1
    next => cases first
  · split at second
    next asked =>
      obtain rfl := List.mem_singleton.mp second
      simpa [asked] using sha256
    next => cases second

theorem without_write_digests (asked : grammar.Asks digests) (fields : Fields) :
    Fields.without grammar.digestNames (digests.write fields) =
      Fields.without grammar.digestNames fields := by
  have sha1 : digests.sha1.isSome → digestField ∈ grammar.digestNames := by
    intro given
    simp [digestNames, asked.1 given]
  have sha256 : digests.sha256.isSome → sha256Field ∈ grammar.digestNames := by
    intro given
    simp [digestNames, asked.2 given]
  refine Digests.write_preserves (motive := fun later => Fields.without grammar.digestNames later =
    Fields.without grammar.digestNames fields) rfl ?_ ?_
  · intro later text given before
    exact (Fields.without_write (sha1 given) _ later).trans before
  · intro later text given before
    exact (Fields.without_write (sha256 given) _ later).trans before

/-- Digests of different bytes both exist, or neither, for the same reason. -/
theorem digests_cases (separates : grammar.SeparatesDigests) (raw other : List UInt8) :
    (∃ fault, grammar.digests raw = .error fault ∧ grammar.digests other = .error fault) ∨
      ∃ first second, grammar.digests raw = .ok first ∧ grammar.digests other = .ok second ∧
        grammar.Asks first ∧ grammar.Asks second := by
  rw [digests, digests]
  cases encoded : Ascii.encode grammar.leading with
  | error flaw =>
      have failed : ∀ bytes, Digests.compute grammar.leading grammar.digestEnd grammar.sha256End
          bytes = .error flaw := by
        intro bytes
        rw [Digests.compute, encoded]
        rfl
      rw [failed, failed]
      exact .inl ⟨_, rfl, rfl⟩
  | ok leading =>
      obtain ⟨first, computed, asked⟩ := Digests.exists_compute_of_encode encoded
        separates.sha1Marker separates.sha256Marker raw
      obtain ⟨second, computed', asked'⟩ := Digests.exists_compute_of_encode encoded
        separates.sha1Marker separates.sha256Marker other
      rw [computed, computed']
      exact .inr ⟨first, second, rfl, rfl, asked, asked'⟩

/-- The same lines make up the same record apart from digests, whatever the bytes are. -/
theorem recordOf_without (separates : grammar.SeparatesDigests) (raw other : List UInt8)
    (tokens : List Token) :
    (Document.recordOf grammar raw tokens).map (Record.without grammar.digestNames) =
      (Document.recordOf grammar other tokens).map (Record.without grammar.digestNames) := by
  rw [Document.recordOf, Document.recordOf]
  cases grammar.decodeTokens tokens with
  | error fault => rfl
  | ok fields =>
      rcases digests_cases separates raw other with
        ⟨fault, left, right⟩ | ⟨first, second, left, right, asked, asked'⟩
      · rw [left, right]
      · rw [left, right]
        refine Schema.build_of_without_eq separates.ignores separates.fields ?_
        rw [without_write_digests asked, without_write_digests asked']

end Grammar

namespace Registry

theorem separatesDigests_of_mem_standard {grammar : Grammar} (member : grammar ∈ standard) :
    grammar.SeparatesDigests := by
  have sound := isSound_of_mem_standard member
  have fields : ∀ grammar ∈ standard, ∀ name ∈ grammar.digestNames,
      name ∈ grammar.schema.fieldNames := by decide
  refine ⟨fields grammar member, sound.sha1Marker, sound.sha256Marker, ?_⟩
  rcases mem_standard_iff.mp member with status | others
  · have none : ∀ grammar ∈ NetworkStatus.grammars, grammar.digestNames = [] := by decide
    rw [none grammar status]
    exact Schema.ignores_nil
  · exact Schema.ignores_of_arrange (arrange_of_mem_plain others)

theorem separatesDigests_of_check {grammar : Grammar}
    (separates : grammar ∈ standard ∨ grammar.check = .ok grammar ∧
      Digests.IsAsciiMarker grammar.digestEnd ∧ Digests.IsAsciiMarker grammar.sha256End ∧
        grammar.schema.Ignores grammar.digestNames) : grammar.SeparatesDigests := by
  rcases separates with member | ⟨defined, sha1Marker, sha256Marker, ignores⟩
  · exact separatesDigests_of_mem_standard member
  · exact ⟨Grammar.mem_fieldNames_of_check defined, sha1Marker, sha256Marker, ignores⟩

end Registry

namespace Document

variable {blob other : Blob} {range otherRange : ByteRange} {grammar : Grammar} {strict : Bool}
  {origin : Option Text}

/-- What a parsed document says, without fields of some names. -/
structure Content where
  kind : Kind
  record : Record
  annotations : List Text
  unrecognized : List Text

/-- What a document says, without fields of some names. -/
def content (names : List String) (document : Document) : Content :=
  ⟨document.kind, document.record.without names, document.annotations, document.unrecognized⟩

/-- Documents with the same annotations and the same lines outside blocks say the same. -/
theorem parse_content_of_parts (separates : grammar.SeparatesDigests)
    (annotations : (parts (blob.slice range)).1 = (parts (other.slice otherRange)).1)
    (items : Scan.items (parts (blob.slice range)).2 =
      Scan.items (parts (other.slice otherRange)).2) :
    (parse blob range grammar strict origin).map (content grammar.digestNames) =
      (parse other otherRange grammar strict origin).map (content grammar.digestNames) := by
  have checked : validated grammar strict (blob.slice range) =
      validated grammar strict (other.slice otherRange) := by
    rw [validated, validated, items]
  cases valid : validated grammar strict (other.slice otherRange) with
  | error violation =>
      rw [parse_of_invalid valid, parse_of_invalid (checked.trans valid)]
  | ok validated =>
      rw [parse_of_valid valid, parse_of_valid (checked.trans valid)]
      rcases map_eq_map_cases (Grammar.recordOf_without separates (blob.slice range)
          (other.slice otherRange) validated.tokens) with
        ⟨fault, left, right⟩ | ⟨record, record', left, right, same⟩
      · rw [left, right]
        rfl
      · rw [left, right]
        simp only [Except.map, content, assembled, annotations, same]

end Document

end RelayDescriptor
