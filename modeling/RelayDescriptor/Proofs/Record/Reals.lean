import RelayDescriptor.Proofs.Json.Rendering
import RelayDescriptor.Proofs.Record.Invariants
import RelayDescriptor.Report.Outcomes

/-!
# Floating-point numbers in records

The only floating-point numbers in a record are the shares of directory requests and the decimal
numbers of queued cells, which extra-info descriptors have.  They are what the JSON of a result
consists of, apart from texts and whole numbers.
-/

namespace RelayDescriptor

namespace Value

mutual

/-- The floating-point numbers in a value. -/
def realsWithin : Value → List Binary64
  | .real number => [number]
  | .row values | .list values => realsOfList values
  | .absent | .flag _ | .integer _ | .text _ | .counts _ | .history _ | .interval _ | .source _
  | .entry _ | .authorityLine _ => []

/-- The floating-point numbers in values. -/
def realsOfList : List Value → List Binary64
  | [] => []
  | value :: values => realsWithin value ++ realsOfList values

end

theorem realsOfList_eq_nil_iff {values : List Value} :
    realsOfList values = [] ↔ ∀ value ∈ values, value.realsWithin = [] := by
  induction values with
  | nil => simp [realsOfList]
  | cons value values induction =>
      rw [realsOfList, List.append_eq_nil_iff, induction, List.forall_mem_cons]

end Value

/-! ## In JSON -/

namespace Datum

theorem memberReals_jsonEntries_map {α : Type} {entry : α → Datum × Datum}
    (plain : ∀ a, (entry a).2.json.reals = []) (values : List α) :
    Json.memberReals (jsonEntries (values.map entry)) = [] := by
  induction values with
  | nil => rfl
  | cons value values induction =>
      rw [List.map_cons, jsonEntries, Json.memberReals, plain, induction]
      rfl

theorem reals_json_ofText? (text : Option Text) : (Datum.ofText? text).json.reals = [] := by
  cases text <;> rfl

theorem reals_json_history (history : BandwidthHistory) : history.datum.json.reals = [] := by
  rw [BandwidthHistory.datum]
  exact (List.append_nil _).trans (memberReals_jsonEntries_map (fun _ => rfl) history.values)

theorem reals_json_source (source : DirSource) : source.datum.json.reals = [] := by
  simp [DirSource.datum, json, jsonParts, Json.reals, Json.memberReals, reals_json_ofText?]

theorem reals_json_entry (entry : StatusEntry) : entry.datum.json.reals = [] := by
  simp [StatusEntry.datum, json, jsonParts, Json.reals, Json.memberReals, reals_json_ofText?]

theorem reals_json_authorityLine (line : AuthorityLine) : line.datum.json.reals = [] := by
  cases content : line.content with
  | source source =>
      simp [AuthorityLine.datum, content, json, jsonElements, Json.reals, Json.elementReals,
        reals_json_source]
  | contact value | voteDigest value =>
      simp [AuthorityLine.datum, content, json, jsonElements, Json.reals, Json.elementReals]

end Datum

namespace Value

mutual

/-- The JSON of a value has the floating-point numbers of the value. -/
theorem reals_json : ∀ value : Value, value.datum.json.reals = value.realsWithin
  | .absent | .flag _ | .integer _ | .real _ | .text _ | .interval _ => rfl
  | .counts value => Datum.memberReals_jsonEntries_map (fun _ => rfl) value
  | .history value => Datum.reals_json_history value
  | .source value => Datum.reals_json_source value
  | .entry value => Datum.reals_json_entry value
  | .authorityLine value => Datum.reals_json_authorityLine value
  | .row values | .list values => elementReals_json values

theorem elementReals_json : ∀ values : List Value,
    Json.elementReals (Datum.jsonElements (data values)) = realsOfList values
  | [] => rfl
  | value :: values => by
      rw [data, Datum.jsonElements, Json.elementReals, reals_json value, elementReals_json values,
        realsOfList]

end

end Value

namespace Record

/-- The floating-point numbers in a record. -/
def reals (record : Record) : List Binary64 :=
  record.fields.flatMap fun field => field.2.realsWithin

theorem reals_json (record : Record) : record.datum.json.reals = record.reals := by
  rw [datum, reals]
  induction record.fields with
  | nil => rfl
  | cons field fields induction =>
      rw [List.map_cons, List.flatMap_cons, ← induction, ← Value.reals_json]
      rfl

end Record

theorem Json.reals_ofMembers (members : List (String × Json)) :
    (ofMembers members).reals = members.flatMap fun member => member.2.reals := by
  rw [ofMembers, reals]
  induction members with
  | nil => rfl
  | cons member members induction =>
      rw [List.map_cons, memberReals, induction, List.flatMap_cons]

namespace Outcome

/-- The floating-point numbers in a result: those of the record. -/
def reals : Outcome → List Binary64
  | .parsed document => document.record.reals
  | .refused _ => []

theorem reals_json (outcome : Outcome) : outcome.json.reals = outcome.reals := by
  have texts (texts : List Text) : Json.elementReals (texts.map Json.text) = [] := by
    simp [Json.elementReals_eq_flatMap, List.flatMap_map, Json.reals]
  have missing (text : Option Text) : (Json.ofText? text).reals = [] := by cases text <;> rfl
  rw [json.eq_def]
  cases outcome with
  | parsed document =>
      simp [Json.reals_ofMembers, Json.reals, Json.ofString, reals, kind?, origin?, missing, texts,
        Record.reals_json]
  | refused refusal =>
      have rejection : refusal.rejection.json.reals = [] := by
        cases refusal.rejection <;>
          simp [Rejection.json, Json.reals_ofMembers, Json.reals, Json.ofString, missing]
      cases kind : refusal.kind <;>
        simp [Json.reals_ofMembers, Json.reals, Json.ofString, reals, kind?, origin?, missing, kind,
          rejection]

end Outcome

/-! ## Fields with floating-point numbers -/

namespace Shape

/-- Whether values of a shape may have floating-point numbers. -/
def isReal : Shape → Bool
  | .real => true
  | .list _ element => element.isReal
  | _ => false

theorem Holds.realsWithin {shape : Shape} {value : Value} (holds : shape.Holds value)
    (other : shape.isReal = false) : value.realsWithin = [] := by
  induction holds with
  | real => cases other
  | row _ _ induction | list _ _ induction =>
      exact Value.realsOfList_eq_nil_iff.mpr fun value member => induction value member other
  | _ => rfl

end Shape

/-- The fields of a kind that hold floating-point numbers. -/
def Kind.realFields : Kind → List String
  | .extraInfo | .bridgeExtraInfo => ["dirreq_v2_share", "dirreq_v3_share", "cell_queued_cells"]
  | _ => []

theorem OrderedMap.mem_of_mem_insert {κ α : Type} [DecidableEq κ] {key : κ} {value : α}
    {map : OrderedMap κ α} {entry : κ × α} (member : entry ∈ insert key value map) :
    entry = (key, value) ∨ entry ∈ map := by
  induction map with
  | nil => exact .inl (List.mem_singleton.mp member)
  | cons first entries induction =>
      rw [insert.eq_def] at member
      dsimp only at member
      split at member
      next =>
        rcases List.mem_cons.mp member with rfl | later
        · exact .inl rfl
        · exact .inr (List.mem_cons_of_mem first later)
      next =>
        rcases List.mem_cons.mp member with rfl | later
        · exact .inr List.mem_cons_self
        · exact (induction later).imp_right (List.mem_cons_of_mem first)

namespace Fields

variable {names : List String} {name : String} {value : Value} {fields later : Fields}

/-- A field has no floating-point numbers unless its name is among some. -/
def MayHold (names : List String) (name : String) (value : Value) : Prop :=
  name ∈ names ∨ value.realsWithin = []

/-- Only collected fields of some names have floating-point numbers. -/
def RealsAmong (names : List String) (fields : Fields) : Prop :=
  ∀ entry ∈ fields, MayHold names entry.1 entry.2

theorem RealsAmong.write (among : RealsAmong names fields) (may : MayHold names name value) :
    RealsAmong names (fields.write name value) := by
  intro entry member
  rcases OrderedMap.mem_of_mem_insert member with rfl | inside
  · exact may
  · exact among entry inside

theorem MayHold.append {values : List Value} (listed : MayHold names name (.list values))
    (may : MayHold names name value) : MayHold names name (.list (values ++ [value])) := by
  rcases listed with known | before
  · exact .inl known
  · refine may.imp_right fun last => Value.realsOfList_eq_nil_iff.mpr ?_
    exact List.forall_mem_append.mpr ⟨Value.realsOfList_eq_nil_iff.mp before, by simpa using last⟩

theorem RealsAmong.append (among : RealsAmong names fields) (may : MayHold names name value)
    (added : fields.append name value = .ok later) : RealsAmong names later := by
  rw [Fields.append] at added
  split at added
  next =>
    cases added
    have listed : MayHold names name (.list []) := .inr rfl
    exact among.write (listed.append may)
  next values found =>
    cases added
    have listed : MayHold names name (.list values) :=
      among (name, .list values) (OrderedMap.mem_of_find?_eq_some found)
    exact among.write (listed.append may)
  next => cases added

theorem RealsAmong.writeAll {updates : List (String × Value)} {repeated : Bool}
    (among : RealsAmong names fields) (may : ∀ update ∈ updates, MayHold names update.1 update.2)
    (written : Grammar.writeAll repeated fields updates = .ok later) : RealsAmong names later := by
  rw [Grammar.writeAll] at written
  induction updates generalizing fields with
  | nil =>
      cases written
      exact among
  | cons update updates induction =>
      obtain ⟨here, may⟩ := List.forall_mem_cons.mp may
      rw [List.foldlM_cons] at written
      obtain ⟨next, put, rest⟩ := bind_eq_ok_iff.mp written
      apply induction _ may rest
      cases repeated with
      | false =>
          cases put
          exact among.write here
      | true => exact among.append here put

end Fields

/-- Rules whose decoders give floating-point numbers to some fields only. -/
def RealsOnlyIn (names : List String) (rules : List FieldRule) : Prop :=
  ∀ rule ∈ rules, ∀ token updates, rule.decoder.updates token = .ok updates →
    ∀ update ∈ updates, Fields.MayHold names update.1 update.2

theorem Fit.realsOnlyIn {shapes : Shapes} {rules : List FieldRule} {names : List String}
    (fit : Fit shapes rules) (uniform : AreUniform rules)
    (declared : ∀ entry ∈ shapes, entry.2.isReal = true → entry.1 ∈ names) :
    RealsOnlyIn names rules := by
  intro rule inside token updates updated update member
  obtain ⟨values, read, rfl⟩ := map_eq_ok_iff.mp updated
  rw [uniform rule inside token] at member
  obtain ⟨shape, found, holds⟩ := List.forall₂_zip (fit rule inside token values read) member
  cases isReal : shape.isReal with
  | true => exact .inl (declared _ (OrderedMap.mem_of_find?_eq_some found) isReal)
  | false => exact .inr (holds.realsWithin isReal)

namespace Grammar

variable {grammar : Grammar} {names : List String} {fields later : Fields} {token : Token}
  {tokens : List Token} {record : Record}

/-- A line gives floating-point numbers to fields of the rules only. -/
theorem realsAmong_decodeToken (only : RealsOnlyIn names grammar.rules)
    (among : Fields.RealsAmong names fields)
    (decoded : grammar.decodeToken fields token = .ok later) : Fields.RealsAmong names later := by
  rw [decodeToken] at decoded
  split at decoded
  next =>
    cases decoded
    exact among
  next rule found =>
    obtain ⟨updates, updated, written⟩ := bind_eq_ok_iff.mp decoded
    exact among.writeAll (only rule (List.mem_of_find?_eq_some found) token updates updated) written

/-- All lines together give floating-point numbers to fields of the rules only. -/
theorem realsAmong_foldlM (only : RealsOnlyIn names grammar.rules)
    (among : Fields.RealsAmong names fields)
    (decoded : tokens.foldlM grammar.decodeToken fields = .ok later) :
    Fields.RealsAmong names later := by
  induction tokens generalizing fields with
  | nil =>
      cases decoded
      exact among
  | cons token tokens induction =>
      rw [List.foldlM_cons] at decoded
      obtain ⟨next, first, rest⟩ := bind_eq_ok_iff.mp decoded
      exact induction (realsAmong_decodeToken only among first) rest

/-- Grouping the lines of authority sections brings no floating-point numbers. -/
theorem realsAmong_arrange (member : grammar ∈ Registry.standard)
    (among : Fields.RealsAmong names fields)
    (arranged : grammar.schema.arrange fields = .ok later) : Fields.RealsAmong names later := by
  rcases Registry.mem_standard_iff.mp member with status | plain
  · rw [NetworkStatus.schema_of_mem status] at arranged
    replace arranged : NetworkStatus.arrange fields = .ok later := arranged
    rw [NetworkStatus.arrange] at arranged
    split at arranged
    next =>
      obtain ⟨sources, _, same⟩ := bind_eq_ok_iff.mp arranged
      cases same
      have others : Fields.RealsAmong names
          (fields.filter fun entry => entry.1 ≠ NetworkStatus.authorityLines) :=
        fun entry inside => among entry (List.mem_of_mem_filter inside)
      apply others.write
      refine .inr (Value.realsOfList_eq_nil_iff.mpr ?_)
      intro value inside
      obtain ⟨source, _, rfl⟩ := List.mem_map.mp inside
      rfl
    next =>
      cases arranged
      exact among
  · rw [Registry.arrange_of_mem_plain plain] at arranged
    cases arranged
    exact among

theorem realsOnlyIn_nil {rules : List FieldRule}
    (listed : rules ∈ [NetworkStatus.consensusRules, NetworkStatus.voteRules, Server.rules,
      Microdescriptor.rules, KeyCertificate.rules]) (uniform : AreUniform rules) :
    RealsOnlyIn [] rules := by
  have without {shapes : Shapes} (fit : Fit shapes rules)
      (plain : ∀ entry ∈ shapes, entry.2.isReal = false) : RealsOnlyIn [] rules :=
    fit.realsOnlyIn uniform fun entry member isReal => by simp [plain entry member] at isReal
  simp only [List.mem_cons, List.not_mem_nil, or_false] at listed
  rcases listed with rfl | rfl | rfl | rfl | rfl
  · exact without NetworkStatus.fit_consensusRules (by decide)
  · exact without NetworkStatus.fit_voteRules (by decide)
  · exact without Server.fit_rules (by decide)
  · exact without Microdescriptor.fit_rules (by decide)
  · exact without KeyCertificate.fit_rules (by decide)

/-- The lines of a document give floating-point numbers to the fields of its kind only. -/
theorem realsOnlyIn_realFields (member : grammar ∈ Registry.standard) :
    RealsOnlyIn grammar.kind.realFields grammar.rules := by
  have uniform := Registry.areUniform_of_mem_standard member
  have families : grammar ∈ ExtraInfo.grammars ∨ grammar.rules ∈ [NetworkStatus.consensusRules,
      NetworkStatus.voteRules, Server.rules, Microdescriptor.rules, KeyCertificate.rules] := by
    have all : ∀ grammar ∈ Registry.standard, grammar ∈ ExtraInfo.grammars ∨
        grammar.rules ∈ [NetworkStatus.consensusRules, NetworkStatus.voteRules, Server.rules,
          Microdescriptor.rules, KeyCertificate.rules] := by
      simp [Registry.standard, NetworkStatus.grammars, Server.grammars, ExtraInfo.grammars,
        Microdescriptor.grammars, KeyCertificate.grammars, NetworkStatus.consensusGrammar,
        NetworkStatus.voteGrammar, Server.grammar, ExtraInfo.grammar]
    exact all grammar member
  rcases families with extra | listed
  · have declared : ∀ grammar ∈ ExtraInfo.grammars, ∀ entry ∈ ExtraInfo.shapes,
        entry.2.isReal = true → entry.1 ∈ grammar.kind.realFields := by decide
    exact (ExtraInfo.fit_of_mem extra).realsOnlyIn uniform (declared grammar extra)
  · intro rule inside token updates updated update member
    exact (realsOnlyIn_nil listed uniform rule inside token updates updated update
      member).imp_left List.not_mem_nil.elim

/-- Only those fields of a record have floating-point numbers that its kind has for them. -/
theorem Acceptance.realsAmong (acceptance : grammar.Acceptance tokens record)
    (member : grammar ∈ Registry.standard) :
    Fields.RealsAmong grammar.kind.realFields record.fields := by
  obtain ⟨collected, digests, _, decoded, built⟩ := acceptance
  have lines : Fields.RealsAmong grammar.kind.realFields collected :=
    realsAmong_foldlM (realsOnlyIn_realFields member) (fun _ inside => by cases inside) decoded
  have digested : Fields.RealsAmong grammar.kind.realFields (digests.write collected) :=
    Digests.write_preserves lines (fun _ _ _ before => before.write (.inr rfl))
      fun _ _ _ before => before.write (.inr rfl)
  obtain ⟨arranged, result, rfl⟩ := Schema.exists_arranged_of_build built
  have all := realsAmong_arrange member digested result
  have initials : ∀ grammar ∈ Registry.standard, ∀ entry ∈ grammar.schema.fields,
      entry.2.realsWithin = [] := by
    decide
  intro entry inside
  obtain ⟨⟨name, initial⟩, declared, rfl⟩ := List.mem_map.mp inside
  change Fields.MayHold _ name ((OrderedMap.find? name arranged).getD initial)
  cases found : OrderedMap.find? name arranged with
  | none => exact .inr (initials grammar member _ declared)
  | some value => exact all (name, value) (OrderedMap.mem_of_find?_eq_some found)

end Grammar

theorem Document.realsAmong_of_parse {blob : Blob} {range : ByteRange} {grammar : Grammar}
    {strict : Bool} {origin : Option Text} {document : Document}
    (member : grammar ∈ Registry.standard)
    (parsed : parse blob range grammar strict origin = .ok document) :
    Fields.RealsAmong document.kind.realFields document.record.fields := by
  obtain ⟨acceptance⟩ := exists_acceptance_of_parse parsed
  have kinds : document.kind = grammar.kind := by
    obtain ⟨checked, record, rfl⟩ := eq_assembled_of_parse parsed
    rfl
  rw [kinds]
  exact acceptance.realsAmong member

theorem Reading.realsAmong_of_outcomes {reading : Reading} {results : List Outcome}
    {document : Document} (complete : reading.outcomes = .ok results)
    (member : .parsed document ∈ results) :
    Fields.RealsAmong document.kind.realFields document.record.fields := by
  have step : .ok (.parsed document) ∈ reading.steps := by
    rw [steps_of_outcomes complete]
    exact List.mem_map_of_mem member
  obtain ⟨grammar, standard, range, parsed⟩ := exists_parse_of_mem_steps step
  exact Document.realsAmong_of_parse standard parsed

end RelayDescriptor
