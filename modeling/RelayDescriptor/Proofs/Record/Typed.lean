import Mathlib.Data.List.Pairwise
import RelayDescriptor.Proofs.Record.Accepted
import RelayDescriptor.Proofs.Record.Declarations

/-!
# Values of the declared shapes

Every field that is written anew is written by the lines of one keyword.  If the keyword
occurs the field holds a value of its declared shape, and otherwise its initial value.
-/

namespace RelayDescriptor

namespace Record

variable {record : Record} {field : String} {shape : Shape}

/-- A field holds a value of a shape. -/
def Holds (record : Record) (field : String) (shape : Shape) : Prop :=
  ∃ value, record.find? field = some value ∧ shape.Holds value

/-- A field is there and not given. -/
def IsAbsent (record : Record) (field : String) : Prop := record.find? field = some .absent

def IsSet (record : Record) (field : String) : Prop :=
  ∃ value, record.find? field = some value ∧ value ≠ .absent

/-- A field is not given or holds a value of a shape. -/
def MayHold (record : Record) (field : String) (shape : Shape) : Prop :=
  record.IsAbsent field ∨ record.Holds field shape

theorem IsSet.not_isAbsent (given : record.IsSet field) : ¬record.IsAbsent field := by
  obtain ⟨value, found, different⟩ := given
  intro absent
  exact different (Option.some.inj (found.symm.trans absent))

end Record

namespace Grammar

variable {grammar : Grammar} {tokens : List Token} {record : Record} {rule other : FieldRule}
  {field : String} {shape : Shape} {shapes : Shapes} {keyword : Text}

/-- The rules that write their fields anew. -/
def onceRules (grammar : Grammar) : List FieldRule :=
  grammar.rules.filter fun rule => !rule.repeated

theorem mem_onceRules :
    rule ∈ grammar.onceRules ↔ rule ∈ grammar.rules ∧ rule.repeated = false := by
  simp [onceRules]

/-- A grammar in which different rules write different fields anew, all of which belong to the
record. -/
structure IsUnshared (grammar : Grammar) : Prop where
  apart : (grammar.onceRules.flatMap fun rule => rule.decoder.fields).Nodup
  ordinary : ∀ rule ∈ grammar.onceRules, ∀ field ∈ rule.decoder.fields, field ∉ arrangedNames
  known : ∀ rule ∈ grammar.onceRules, ∀ field ∈ rule.decoder.fields,
    field ∈ grammar.schema.fieldNames

theorem IsUnshared.exists_initial (unshared : grammar.IsUnshared)
    (inside : rule ∈ grammar.onceRules) (own : field ∈ rule.decoder.fields) :
    ∃ initial, OrderedMap.find? field grammar.schema.fields = some initial :=
  Option.isSome_iff_exists.mp
    (OrderedMap.isSome_find?_iff.mpr (unshared.known rule inside field own))

theorem isUnshared_of_mem_standard (member : grammar ∈ Registry.standard) :
    grammar.IsUnshared := by
  have apart : ∀ grammar ∈ Registry.standard,
      (grammar.onceRules.flatMap fun rule => rule.decoder.fields).Nodup := by decide +kernel
  have ordinary : ∀ grammar ∈ Registry.standard, ∀ rule ∈ grammar.onceRules,
      ∀ field ∈ rule.decoder.fields, field ∉ arrangedNames := by decide
  have known : ∀ grammar ∈ Registry.standard, ∀ rule ∈ grammar.onceRules,
      ∀ field ∈ rule.decoder.fields, field ∈ grammar.schema.fieldNames := by decide +kernel
  exact ⟨apart grammar member, ordinary grammar member, known grammar member⟩

/-- A field that a rule writes anew belongs to no rule of another keyword. -/
theorem eq_of_shared (member : grammar ∈ Registry.standard) (inside : rule ∈ grammar.rules)
    (once : rule.repeated = false) (among : other ∈ grammar.rules)
    (own : field ∈ rule.decoder.fields) (shared : field ∈ other.decoder.fields) :
    rule = other ∧ other.repeated = false := by
  have again : other.repeated = false :=
    (Registry.isOrderly_of_mem_standard member).writesAnew inside once own other among shared
  refine ⟨?_, again⟩
  by_contra different
  have apart := (List.nodup_flatMap.mp (isUnshared_of_mem_standard member).apart).2
  have symmetric : Std.Symm (Function.onFun List.Disjoint fun rule : FieldRule =>
      rule.decoder.fields) := ⟨fun _ _ disjoint _ left right => disjoint right left⟩
  exact apart.forall (mem_onceRules.mpr ⟨inside, once⟩) (mem_onceRules.mpr ⟨among, again⟩)
    different own shared

/-- What a line gives to a field has the declared shape. -/
theorem holds_of_valueOf? (orderly : grammar.IsOrderly) (fit : Fit shapes grammar.rules)
    (declared : OrderedMap.find? field shapes = some shape) {token : Token} {value : Value}
    (given : grammar.valueOf? field token = some value) : shape.Holds value := by
  obtain ⟨rule, found, given⟩ := Option.bind_eq_some_iff.mp given
  have inside := (orderly.rule?_eq_some_iff.mp found).1
  obtain ⟨values, read⟩ : ∃ values, rule.decoder.values token = .ok values := by
    cases read : rule.decoder.values token with
    | error fault => simp [Decoder.valueOf?, Decoder.updates, read, Except.map] at given
    | ok values => exact ⟨values, rfl⟩
  rw [Decoder.valueOf?_of_values (orderly.complete rule inside).uniform read] at given
  obtain ⟨other, same, holds⟩ := List.forall₂_zip (fit rule inside token values read)
    (OrderedMap.mem_of_find?_eq_some given)
  cases declared.symm.trans same
  exact holds

/-- The lines of a keyword write a field anew. -/
def Writes (grammar : Grammar) (keyword : Text) (field : String) : Prop :=
  ∃ rule ∈ grammar.onceRules, rule.keyword = keyword ∧ field ∈ rule.decoder.fields

instance (grammar : Grammar) (keyword : Text) (field : String) :
    Decidable (grammar.Writes keyword field) :=
  inferInstanceAs (Decidable (∃ rule ∈ grammar.onceRules, _ ∧ _))

/-- A field is not given before a line gives it. -/
def StartsAbsent (grammar : Grammar) (field : String) : Prop :=
  OrderedMap.find? field grammar.schema.fields = some .absent

instance (grammar : Grammar) (field : String) : Decidable (grammar.StartsAbsent field) :=
  match found : OrderedMap.find? field grammar.schema.fields with
  | some .absent => .isTrue found
  | none | some (.flag _) | some (.integer _) | some (.real _) | some (.text _)
  | some (.counts _) | some (.history _) | some (.interval _) | some (.source _)
  | some (.entry _) | some (.authorityLine _) | some (.row _) | some (.list _) =>
      .isFalse fun same => nomatch found.symm.trans same

namespace Acceptance

/-- A field whose keyword occurs holds a value of its shape. -/
theorem holds (acceptance : grammar.Acceptance tokens record)
    (member : grammar ∈ Registry.standard) (fit : Fit shapes grammar.rules)
    (declared : OrderedMap.find? field shapes = some shape)
    (writes : grammar.Writes keyword field) (occurs : 0 < occurrences keyword tokens) :
    record.Holds field shape := by
  have orderly := Registry.isOrderly_of_mem_standard member
  have unshared := isUnshared_of_mem_standard member
  obtain ⟨rule, inside, named, own⟩ := writes
  obtain ⟨among, once⟩ := mem_onceRules.mp inside
  obtain ⟨token, line, same⟩ := occurrences_pos_iff.mp occurs
  have found := orderly.rule?_eq_some_iff.mpr ⟨among, named.trans same.symm⟩
  obtain ⟨given, gives⟩ := exists_valueOf? orderly acceptance.decoded line found own
  obtain ⟨value, last⟩ :
      ∃ value, (tokens.filterMap (grammar.valueOf? field)).getLast? = some value := by
    apply Option.isSome_iff_exists.mp
    apply List.getLast?_isSome.mpr
    exact List.ne_nil_of_mem (List.mem_filterMap.mpr ⟨token, line, gives⟩)
  -- The line that gives the last value need not be the one by which the keyword occurs.
  obtain ⟨source, _, read⟩ := List.mem_filterMap.mp (List.mem_of_getLast? last)
  obtain ⟨initial, known⟩ := unshared.exists_initial inside own
  refine ⟨value, ?_, holds_of_valueOf? orderly fit declared read⟩
  rw [acceptance.find?_record member (unshared.ordinary rule inside field own), known,
    find?_decodeTokens_anew orderly (orderly.writesAnew among once own) acceptance.decoded, last]
  rfl

theorem holds_of_required (acceptance : grammar.Acceptance tokens record)
    (member : grammar ∈ Registry.standard) (fit : Fit shapes grammar.rules)
    (declared : OrderedMap.find? field shapes = some shape)
    (writes : grammar.Writes keyword field)
    (required : keyword ∈ grammar.constraints.exactlyOnce) : record.Holds field shape := by
  apply acceptance.holds member fit declared writes
  rw [acceptance.occurrences_eq_one required]
  exact Nat.one_pos

theorem find?_of_silent (acceptance : grammar.Acceptance tokens record)
    (member : grammar ∈ Registry.standard) (ordinary : field ∉ arrangedNames)
    (anew : grammar.WritesAnew field)
    (silent : ∀ token ∈ tokens, grammar.valueOf? field token = none) :
    record.find? field = OrderedMap.find? field grammar.schema.fields := by
  have orderly := Registry.isOrderly_of_mem_standard member
  rw [acceptance.find?_record member ordinary,
    find?_decodeTokens_anew orderly anew acceptance.decoded,
    List.filterMap_eq_nil_iff.mpr silent]
  exact Option.map_id_apply

theorem find?_of_unwritten (acceptance : grammar.Acceptance tokens record)
    (member : grammar ∈ Registry.standard) (ordinary : field ∉ arrangedNames)
    (unwritten : ∀ rule ∈ grammar.rules, field ∉ rule.decoder.fields) :
    record.find? field = OrderedMap.find? field grammar.schema.fields := by
  have orderly := Registry.isOrderly_of_mem_standard member
  apply acceptance.find?_of_silent member ordinary
  · intro rule inside own
    exact absurd own (unwritten rule inside)
  · intro token _
    exact orderly.valueOf?_eq_none fun rule found =>
      unwritten rule (orderly.rule?_eq_some_iff.mp found).1

/-- A field whose keyword does not occur keeps its initial value. -/
theorem isAbsent_of_missing (acceptance : grammar.Acceptance tokens record)
    (member : grammar ∈ Registry.standard) (initial : grammar.StartsAbsent field)
    (writes : grammar.Writes keyword field) (missing : occurrences keyword tokens = 0) :
    record.IsAbsent field := by
  have orderly := Registry.isOrderly_of_mem_standard member
  have unshared := isUnshared_of_mem_standard member
  obtain ⟨rule, inside, named, own⟩ := writes
  obtain ⟨among, once⟩ := mem_onceRules.mp inside
  have silent : ∀ token ∈ tokens, grammar.valueOf? field token = none := by
    intro token line
    apply orderly.valueOf?_eq_none
    intro other found shared
    obtain ⟨besides, same⟩ := orderly.rule?_eq_some_iff.mp found
    obtain ⟨rfl, _⟩ := eq_of_shared member among once besides own shared
    exact Nat.ne_of_gt (occurrences_pos_iff.mpr ⟨token, line, same.symm.trans named⟩) missing
  exact (acceptance.find?_of_silent member (unshared.ordinary rule inside field own)
    (orderly.writesAnew among once own) silent).trans initial

theorem mayHold (acceptance : grammar.Acceptance tokens record)
    (member : grammar ∈ Registry.standard) (fit : Fit shapes grammar.rules)
    (declared : OrderedMap.find? field shapes = some shape)
    (initial : grammar.StartsAbsent field) (writes : grammar.Writes keyword field) :
    record.MayHold field shape := by
  rcases Nat.eq_zero_or_pos (occurrences keyword tokens) with missing | occurs
  · exact .inl (acceptance.isAbsent_of_missing member initial writes missing)
  · exact .inr (acceptance.holds member fit declared writes occurs)

theorem occurs_of_isSet (acceptance : grammar.Acceptance tokens record)
    (member : grammar ∈ Registry.standard) (initial : grammar.StartsAbsent field)
    (writes : grammar.Writes keyword field) (given : record.IsSet field) :
    0 < occurrences keyword tokens := by
  apply Nat.pos_of_ne_zero
  intro missing
  exact given.not_isAbsent (acceptance.isAbsent_of_missing member initial writes missing)

end Acceptance

end Grammar

end RelayDescriptor
