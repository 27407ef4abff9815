import RelayDescriptor.Proofs.Reading.Content
import RelayDescriptor.Proofs.Record.Accepted

/-!
# Records of collections that agree

A record is made up field by field.  So collections that hold the same values, in whatever
order, make up the same record; where they differ only in the digests, so do their records.
-/

namespace RelayDescriptor

namespace Fields

variable {names : List String} {fields others : Fields}

theorem Agree.symm (agree : Agree names fields others) : Agree names others fields :=
  fun name absent => (agree name absent).symm

theorem Agree.trans {between : Fields} (first : Agree names fields between)
    (second : Agree names between others) : Agree names fields others :=
  fun name absent => (first name absent).trans (second name absent)

theorem Agree.write (agree : Agree names fields others) (name : String) (value : Value) :
    Agree names (fields.write name value) (others.write name value) := by
  intro other absent
  rw [Fields.write, Fields.write]
  by_cases same : other = name
  · rw [same, OrderedMap.find?_insert_self, OrderedMap.find?_insert_self]
  · rw [OrderedMap.find?_insert_of_ne same, OrderedMap.find?_insert_of_ne same]
    exact agree other absent

theorem find?_filter_of_not {kept : String → Bool} {name : String} (gone : kept name = false)
    (fields : Fields) :
    OrderedMap.find? name (fields.filter fun entry => kept entry.1) = none := by
  rw [OrderedMap.find?_eq_none_iff]
  intro member
  obtain ⟨entry, inside, rfl⟩ := List.mem_map.mp member
  have here := (List.mem_filter.mp inside).2
  rw [gone] at here
  cases here

theorem Agree.filter (agree : Agree names fields others) (kept : String → Bool) :
    Agree names (fields.filter fun entry => kept entry.1)
      (others.filter fun entry => kept entry.1) := by
  intro name absent
  cases here : kept name with
  | false => rw [find?_filter_of_not here, find?_filter_of_not here]
  | true =>
      rw [OrderedMap.find?_filter kept here, OrderedMap.find?_filter kept here]
      exact agree name absent

theorem Agree.mem_keys_iff (agree : Agree names fields others) {name : String}
    (absent : name ∉ names) :
    name ∈ OrderedMap.keys fields ↔ name ∈ OrderedMap.keys others := by
  rw [← OrderedMap.isSome_find?_iff, ← OrderedMap.isSome_find?_iff, agree name absent]

end Fields

namespace Schema

variable {schema : Schema} {names : List String} {fields others : Fields} {record : Record}

/-- Collections that agree are arranged to collections that agree. -/
def Respects (schema : Schema) (names : List String) : Prop :=
  ∀ fields others, Fields.Agree names fields others →
    ∀ arranged, schema.arrange fields = .ok arranged →
      ∃ otherArranged, schema.arrange others = .ok otherArranged ∧
        Fields.Agree names arranged otherArranged

theorem respects_of_arrange (plain : schema.arrange = .ok) : schema.Respects names := by
  intro fields others agree arranged result
  rw [plain] at result ⊢
  cases result
  exact ⟨others, rfl, agree⟩

/-- Collections that agree both make up a record, and these records agree. -/
theorem exists_build_of_agree (respects : schema.Respects names)
    (known : ∀ name ∈ names, name ∈ schema.fieldNames) (agree : Fields.Agree names fields others)
    (built : schema.build fields = .ok record) :
    ∃ otherRecord, schema.build others = .ok otherRecord ∧
      otherRecord.without names = record.without names := by
  obtain ⟨arranged, result, inside, rfl⟩ := build_eq_ok_iff.mp built
  obtain ⟨otherArranged, otherResult, agree⟩ := respects fields others agree arranged result
  refine ⟨_, build_eq_ok_iff.mpr ⟨otherArranged, otherResult, ?_, rfl⟩, fill_of_agree agree.symm⟩
  intro name member
  by_cases other : name ∈ names
  · exact known name other
  · exact inside name ((agree.mem_keys_iff other).mpr member)

end Schema

/-- Sections are made of the collected lines for them, and everything else stays. -/
theorem NetworkStatus.respects_schema {names : List String} (ordinary : authorityLines ∉ names) :
    schema.Respects names := by
  intro fields others agree arranged result
  replace result : arrange fields = .ok arranged := result
  show ∃ otherArranged, arrange others = .ok otherArranged ∧ _
  rw [arrange] at result ⊢
  rw [← agree authorityLines ordinary]
  split at result
  next values found =>
    obtain ⟨sources, grouped, same⟩ := bind_eq_ok_iff.mp result
    cases same
    refine ⟨_, bind_eq_ok_iff.mpr ⟨sources, grouped, rfl⟩, ?_⟩
    exact (agree.filter fun name => name ≠ authorityLines).write _ _
  next =>
    cases result
    exact ⟨others, rfl, agree⟩

theorem Registry.respects_of_mem_standard {grammar : Grammar} (member : grammar ∈ standard) :
    grammar.schema.Respects grammar.digestNames := by
  rcases mem_standard_iff.mp member with status | plain
  · have ordinary : ∀ grammar ∈ NetworkStatus.grammars,
        NetworkStatus.authorityLines ∉ grammar.digestNames := by decide
    rw [NetworkStatus.schema_of_mem status]
    exact NetworkStatus.respects_schema (ordinary grammar status)
  · exact Schema.respects_of_arrange (arrange_of_mem_plain plain)

end RelayDescriptor
