import RelayDescriptor.Proofs.Reading.Decoders

/-!
# Collected fields

While the lines of a document are decoded, only fields that some rule writes are
collected, and a field that only repeated rules write holds a list.  The record of a
document is therefore always made up of fields of its schema.
-/

namespace RelayDescriptor

variable {κ α : Type} [DecidableEq κ]

namespace OrderedMap

theorem mem_keys_insert {key other : κ} {value : α} {map : OrderedMap κ α} :
    other ∈ keys (insert key value map) ↔ other = key ∨ other ∈ keys map := by
  by_cases same : other = key
  · subst same
    simp [← isSome_find?_iff, find?_insert_self]
  · simp [← isSome_find?_iff, find?_insert_of_ne same, same]

theorem find?_filter (kept : κ → Bool) {key : κ} (here : kept key = true) (map : OrderedMap κ α) :
    find? key (map.filter fun entry => kept entry.1) = find? key map := by
  induction map with
  | nil => rfl
  | cons entry entries induction =>
      obtain ⟨first, value⟩ := entry
      rw [List.filter_cons, find?]
      by_cases same : first = key
      · rw [if_pos same, same, here]
        exact if_pos rfl
      · rw [if_neg same, ← induction]
        split
        · rw [find?, if_neg same]
        · rfl

end OrderedMap

namespace Decoder

/-- The fields that are written for a line with nothing on it. -/
def fields (decoder : Decoder) : List String := decoder.names ⟨[], [], [], false⟩

/-- Every line writes the same fields. -/
def IsUniform (decoder : Decoder) : Prop := ∀ token, decoder.names token = decoder.fields

end Decoder

namespace Fields

variable {name : String} {value : Value} {fields later : Fields} {repeated : Bool}
  {update : String × Value}

theorem exists_write_of_append (added : append name value fields = .ok later) :
    ∃ values, later = fields.write name (.list (values ++ [value])) := by
  rw [append] at added
  split at added
  · cases added
    exact ⟨[], rfl⟩
  next values _ =>
    cases added
    exact ⟨values, rfl⟩
  · cases added

/-- Whatever is done with the value of a line, its field is written; it holds a list if the value is
added. -/
theorem exists_write_of_put (put : put repeated fields update = .ok later) :
    ∃ value, later = fields.write update.1 value ∧
      (repeated = true → ∃ values, value = .list values) := by
  rw [Fields.put] at put
  split at put
  next =>
    obtain ⟨values, rfl⟩ := exists_write_of_append put
    exact ⟨_, rfl, fun _ => ⟨_, rfl⟩⟩
  next once =>
    cases put
    exact ⟨_, rfl, fun again => absurd again once⟩

theorem isAppendable_iff :
    (∃ later, append name value fields = .ok later) ↔
      ∀ held, OrderedMap.find? name fields = some held → ∃ values, held = .list values := by
  rw [append]
  split
  next none => simp [none]
  next values found => simp [found]
  next held noList found =>
    simp only [reduceCtorEq, exists_false, found, Option.some.injEq, forall_eq', false_iff]
    rintro ⟨values, rfl⟩
    exact noList values rfl

end Fields

/-- Rules whose decoders write the same fields for every line. -/
def AreUniform (rules : List FieldRule) : Prop := ∀ rule ∈ rules, rule.decoder.IsUniform

namespace Grammar

variable {grammar : Grammar} {fields later : Fields} {token : Token} {tokens : List Token}
  {rule : FieldRule} {update : String × Value} {updates : List (String × Value)}

/-- A field is either written anew or added to. -/
def KeepsApart (grammar : Grammar) : Prop :=
  ∀ rule ∈ grammar.rules, rule.repeated = true → ∀ other ∈ grammar.rules,
    other.repeated = false → ∀ field ∈ rule.decoder.fields, field ∉ other.decoder.fields

theorem KeepsApart.repeated (apart : grammar.KeepsApart) (member : rule ∈ grammar.rules)
    (again : rule.repeated = true) {field : String} (own : field ∈ rule.decoder.fields) :
    ∀ other ∈ grammar.rules, field ∈ other.decoder.fields → other.repeated = true := by
  intro other inside shared
  cases once : other.repeated with
  | true => rfl
  | false => exact absurd shared (apart rule member again other inside once field own)

/-- What is known about the fields that a grammar has collected. -/
structure Collects (grammar : Grammar) (fields : Fields) : Prop where
  written : ∀ name ∈ OrderedMap.keys fields, ∃ rule ∈ grammar.rules, name ∈ rule.decoder.fields
  lists : ∀ name, (∀ rule ∈ grammar.rules, name ∈ rule.decoder.fields → rule.repeated = true) →
    ∀ value, OrderedMap.find? name fields = some value → ∃ values, value = .list values

theorem collects_nil (grammar : Grammar) : grammar.Collects [] where
  written := by simp [OrderedMap.keys]
  lists := by simp

/-- A value keeps what is known. -/
theorem Collects.put (collected : grammar.Collects fields) (member : rule ∈ grammar.rules)
    (own : update.1 ∈ rule.decoder.fields) (put : fields.put rule.repeated update = .ok later) :
    grammar.Collects later := by
  obtain ⟨value, rfl, added⟩ := Fields.exists_write_of_put put
  constructor
  · intro other inside
    rcases OrderedMap.mem_keys_insert.mp inside with rfl | inside
    · exact ⟨rule, member, own⟩
    · exact collected.written other inside
  · intro other repeated found same
    rw [Fields.write] at same
    by_cases equal : other = update.1
    · subst equal
      rw [OrderedMap.find?_insert_self] at same
      cases same
      exact added (repeated rule member own)
    · rw [OrderedMap.find?_insert_of_ne equal] at same
      exact collected.lists other repeated found same

theorem Collects.writeAll (collected : grammar.Collects fields) (member : rule ∈ grammar.rules)
    (own : ∀ update ∈ updates, update.1 ∈ rule.decoder.fields)
    (written : writeAll rule.repeated fields updates = .ok later) : grammar.Collects later := by
  rw [Grammar.writeAll] at written
  induction updates generalizing fields with
  | nil =>
      cases written
      exact collected
  | cons update updates induction =>
      obtain ⟨here, own⟩ := List.forall_mem_cons.mp own
      rw [List.foldlM_cons] at written
      obtain ⟨next, first, rest⟩ := bind_eq_ok_iff.mp written
      exact induction (collected.put member here first) own rest

/-- Where fields are kept apart, a field to which a value is added holds a list. -/
theorem Collects.exists_put (collected : grammar.Collects fields) (apart : grammar.KeepsApart)
    (member : rule ∈ grammar.rules) (own : update.1 ∈ rule.decoder.fields) :
    ∃ later, fields.put rule.repeated update = .ok later := by
  rw [Fields.put]
  split
  next again =>
    exact Fields.isAppendable_iff.mpr
      (collected.lists update.1 (apart.repeated member again own))
  next => exact ⟨_, rfl⟩

theorem Collects.exists_writeAll (collected : grammar.Collects fields)
    (apart : grammar.KeepsApart) (member : rule ∈ grammar.rules)
    (own : ∀ update ∈ updates, update.1 ∈ rule.decoder.fields) :
    ∃ later, Grammar.writeAll rule.repeated fields updates = .ok later := by
  rw [Grammar.writeAll]
  induction updates generalizing fields with
  | nil => exact ⟨fields, rfl⟩
  | cons update updates induction =>
      obtain ⟨here, own⟩ := List.forall_mem_cons.mp own
      obtain ⟨next, first⟩ := collected.exists_put apart member here
      obtain ⟨later, rest⟩ := induction (collected.put member here first) own
      rw [List.foldlM_cons]
      exact ⟨later, bind_eq_ok_iff.mpr ⟨next, first, rest⟩⟩

theorem mem_fields_of_updates (uniform : AreUniform grammar.rules) (member : rule ∈ grammar.rules)
    (updated : rule.decoder.updates token = .ok updates) :
    ∀ update ∈ updates, update.1 ∈ rule.decoder.fields := by
  obtain ⟨values, _, rfl⟩ := map_eq_ok_iff.mp updated
  intro update inside
  rw [← uniform rule member token]
  exact (List.of_mem_zip inside).1

/-- A line keeps what is known. -/
theorem Collects.decodeToken (collected : grammar.Collects fields)
    (uniform : AreUniform grammar.rules)
    (decoded : grammar.decodeToken fields token = .ok later) : grammar.Collects later := by
  rw [Grammar.decodeToken] at decoded
  split at decoded
  next =>
    cases decoded
    exact collected
  next rule found =>
    have member : rule ∈ grammar.rules := List.mem_of_find?_eq_some found
    obtain ⟨updates, updated, written⟩ := bind_eq_ok_iff.mp decoded
    exact collected.writeAll member (mem_fields_of_updates uniform member updated) written

/-- All lines together keep what is known. -/
theorem Collects.foldlM (collected : grammar.Collects fields)
    (uniform : AreUniform grammar.rules) (decoded : tokens.foldlM grammar.decodeToken fields = .ok later) :
    grammar.Collects later := by
  induction tokens generalizing fields with
  | nil =>
      cases decoded
      exact collected
  | cons token tokens induction =>
      rw [List.foldlM_cons] at decoded
      obtain ⟨next, first, rest⟩ := bind_eq_ok_iff.mp decoded
      exact induction (collected.decodeToken uniform first) rest

theorem collects_of_decodeTokens (uniform : AreUniform grammar.rules)
    (decoded : grammar.decodeTokens tokens = .ok fields) : grammar.Collects fields :=
  (collects_nil grammar).foldlM uniform decoded

end Grammar

namespace Digests

variable {marker keyword sha1End sha256End : Option Text} {digests : Digests} {fields : Fields}

/-- A text that may be missing is ASCII if it is given. -/
def IsAsciiMarker (marker : Option Text) : Prop :=
  ∀ text, marker = some text → ∀ c ∈ text, Ascii.isAscii c = true

/-- The text of a digest of the bytes through a marker, if there are bytes and a marker in them. -/
def textOf? (digest : List UInt8 → Text) (marker : Option Text) (bytes : Option (List UInt8)) :
    Option Text :=
  bytes.bind fun bytes => marker.bind fun marker =>
    (throughMarker? (marker.map Ascii.byte) bytes).map digest

theorem isSome_of_textOf? {digest : List UInt8 → Text} {bytes : Option (List UInt8)}
    (found : (textOf? digest marker bytes).isSome) : marker.isSome := by
  cases marker with
  | none => cases bytes <;> cases found
  | some text => rfl

theorem through_of_isAsciiMarker (ascii : IsAsciiMarker marker) (digest : List UInt8 → Text)
    (bytes : List UInt8) : through digest marker bytes = .ok (textOf? digest marker bytes) := by
  cases marker with
  | none => rfl
  | some text =>
      rw [through, Ascii.encode_of_isAscii (ascii text rfl)]
      rfl

/-- With ASCII end markers there are digests of the bytes from the keyword on. -/
theorem compute_of_encode {keyword : Text} {found : List UInt8}
    (encoded : Ascii.encode keyword = .ok found)
    (sha1Ascii : IsAsciiMarker sha1End) (sha256Ascii : IsAsciiMarker sha256End)
    (bytes : List UInt8) :
    compute keyword sha1End sha256End bytes =
      .ok ⟨textOf? sha1Text sha1End (fromKeyword? found bytes),
        textOf? sha256Text sha256End (fromKeyword? found bytes)⟩ := by
  rw [compute, encoded]
  simp only [bind, Except.bind]
  cases fromKeyword? found bytes with
  | none => rfl
  | some signed =>
      simp only [through_of_isAsciiMarker sha1Ascii, through_of_isAsciiMarker sha256Ascii]
      rfl

/-- With ASCII end markers there are digests, each only for its marker. -/
theorem exists_compute_of_encode {keyword : Text} {found : List UInt8}
    (encoded : Ascii.encode keyword = .ok found)
    (sha1Ascii : IsAsciiMarker sha1End) (sha256Ascii : IsAsciiMarker sha256End)
    (bytes : List UInt8) :
    ∃ digests, compute keyword sha1End sha256End bytes = .ok digests ∧
      (digests.sha1.isSome → sha1End.isSome) ∧ (digests.sha256.isSome → sha256End.isSome) :=
  ⟨_, compute_of_encode encoded sha1Ascii sha256Ascii bytes, isSome_of_textOf?, isSome_of_textOf?⟩

theorem exists_compute {keyword : Text} (leading : ∀ c ∈ keyword, Ascii.isAscii c = true)
    (sha1Ascii : IsAsciiMarker sha1End) (sha256Ascii : IsAsciiMarker sha256End)
    (bytes : List UInt8) :
    ∃ digests, compute keyword sha1End sha256End bytes = .ok digests ∧
      (digests.sha1.isSome → sha1End.isSome) ∧ (digests.sha256.isSome → sha256End.isSome) :=
  exists_compute_of_encode (Ascii.encode_of_isAscii leading) sha1Ascii sha256Ascii bytes

/-- What holds of a collection holds of it with the digests, if neither of them destroys it. -/
theorem write_preserves {motive : Fields → Prop} (start : motive fields)
    (sha1 : ∀ fields text, digests.sha1.isSome → motive fields →
      motive (fields.write digestField (.text text)))
    (sha256 : ∀ fields text, digests.sha256.isSome → motive fields →
      motive (fields.write sha256Field (.text text))) : motive (digests.write fields) := by
  obtain ⟨first, second⟩ := digests
  have between : motive (Digests.write ⟨first, none⟩ fields) := by
    cases first with
    | none => exact start
    | some text => exact sha1 fields text rfl start
  cases second with
  | none => exact between
  | some text => exact sha256 _ text rfl between

theorem mem_keys_write {name : String} (member : name ∈ OrderedMap.keys (digests.write fields)) :
    name ∈ OrderedMap.keys fields ∨ (name = digestField ∧ digests.sha1.isSome) ∨
      (name = sha256Field ∧ digests.sha256.isSome) := by
  refine write_preserves (motive := fun later => name ∈ OrderedMap.keys later →
    name ∈ OrderedMap.keys fields ∨ (name = digestField ∧ digests.sha1.isSome) ∨
      (name = sha256Field ∧ digests.sha256.isSome)) Or.inl ?_ ?_ member
  · intro later text given before inside
    rcases OrderedMap.mem_keys_insert.mp inside with rfl | inside
    · exact .inr (.inl ⟨rfl, given⟩)
    · exact before inside
  · intro later text given before inside
    rcases OrderedMap.mem_keys_insert.mp inside with rfl | inside
    · exact .inr (.inr ⟨rfl, given⟩)
    · exact before inside

end Digests

theorem Schema.unknown_eq_nil_iff {schema : Schema} {fields : Fields} :
    schema.unknown fields = [] ↔ ∀ name ∈ OrderedMap.keys fields, name ∈ schema.fieldNames := by
  simp [unknown]

/-- Values that belong to the schema never interrupt. -/
theorem Schema.build_ne_interrupted {schema : Schema} {fields : Fields}
    (known : ∀ arranged, schema.arrange fields = .ok arranged →
      ∀ name ∈ OrderedMap.keys arranged, name ∈ schema.fieldNames)
    (interruption : Interruption) : schema.build fields ≠ .error (.interrupted interruption) := by
  intro same
  rw [build] at same
  split at same
  next => cases same
  next arranged result =>
    rw [unknown_eq_nil_iff.mpr (known arranged result)] at same
    cases same

namespace Grammar

variable {grammar : Grammar} {fields : Fields} {digests : Digests}

/-- The digests that a grammar asks for. -/
def Asks (grammar : Grammar) (digests : Digests) : Prop :=
  (digests.sha1.isSome → grammar.digestEnd.isSome) ∧
    (digests.sha256.isSome → grammar.sha256End.isSome)

/-- Whatever is collected makes up a record, or is refused. -/
def FillsSchema (grammar : Grammar) : Prop :=
  ∀ fields digests, grammar.Collects fields → grammar.Asks digests →
    ∀ interruption, grammar.schema.build (digests.write fields) ≠
      .error (.interrupted interruption)

theorem fillsSchema_of_plain (plain : grammar.schema.arrange = .ok)
    (known : ∀ rule ∈ grammar.rules, ∀ name ∈ rule.decoder.fields,
      name ∈ grammar.schema.fieldNames)
    (sha1 : grammar.digestEnd.isSome → digestField ∈ grammar.schema.fieldNames)
    (sha256 : grammar.sha256End.isSome → sha256Field ∈ grammar.schema.fieldNames) :
    grammar.FillsSchema := by
  intro fields digests collected asked interruption
  apply Schema.build_ne_interrupted
  intro arranged result name member
  rw [plain] at result
  cases result
  rcases Digests.mem_keys_write member with inside | ⟨rfl, given⟩ | ⟨rfl, given⟩
  · obtain ⟨rule, ruled, written⟩ := collected.written name inside
    exact known rule ruled name written
  · exact sha1 (asked.1 given)
  · exact sha256 (asked.2 given)

/-- The lines of authority sections, which only repeated rules collect, are grouped into a field of
the schema. -/
theorem fillsSchema_of_networkStatus (schema : grammar.schema = NetworkStatus.schema)
    (known : ∀ rule ∈ grammar.rules, ∀ name ∈ rule.decoder.fields,
      name ∈ NetworkStatus.schema.fieldNames ∨ name = NetworkStatus.authorityLines)
    (repeated : ∀ rule ∈ grammar.rules, NetworkStatus.authorityLines ∈ rule.decoder.fields →
      rule.repeated = true)
    (sha1 : grammar.digestEnd = none) (sha256 : grammar.sha256End = none) :
    grammar.FillsSchema := by
  intro fields digests collected asked interruption
  obtain rfl : digests = ⟨none, none⟩ := by
    obtain ⟨first, second⟩ := digests
    rw [Asks, sha1, sha256] at asked
    cases first with
    | some text => cases asked.1 rfl
    | none =>
        cases second with
        | some text => cases asked.2 rfl
        | none => rfl
  have inSchema : ∀ name ∈ OrderedMap.keys fields, name ≠ NetworkStatus.authorityLines →
      name ∈ NetworkStatus.schema.fieldNames := by
    intro name inside different
    obtain ⟨rule, ruled, written⟩ := collected.written name inside
    exact (known rule ruled name written).resolve_right different
  rw [schema]
  apply Schema.build_ne_interrupted
  intro arranged result name member
  replace result : NetworkStatus.arrange fields = .ok arranged := result
  rw [NetworkStatus.arrange] at result
  split at result
  next values found =>
    obtain ⟨sources, _, same⟩ := bind_eq_ok_iff.mp result
    cases same
    rcases OrderedMap.mem_keys_insert.mp member with rfl | member
    · decide
    · obtain ⟨entry, inside, rfl⟩ := List.mem_map.mp member
      obtain ⟨inside, different⟩ := List.mem_filter.mp inside
      exact inSchema entry.1 (List.mem_map_of_mem inside) (by simpa using different)
  next noList =>
    cases result
    apply inSchema name member
    rintro rfl
    obtain ⟨value, found⟩ := Option.isSome_iff_exists.mp (OrderedMap.isSome_find?_iff.mpr member)
    obtain ⟨values, rfl⟩ := collected.lists _ repeated value found
    exact noList values found

end Grammar

/-- A grammar for which only its decoders can interrupt the reading of a document. -/
structure Grammar.IsSound (grammar : Grammar) : Prop where
  leading : ∀ c ∈ grammar.leading, Ascii.isAscii c = true
  leadingLine : '\n' ∉ grammar.leading
  sha1Marker : Digests.IsAsciiMarker grammar.digestEnd
  sha256Marker : Digests.IsAsciiMarker grammar.sha256End
  steady : AreSteady grammar.rules
  uniform : AreUniform grammar.rules
  apart : grammar.KeepsApart
  fills : grammar.FillsSchema

theorem NetworkStatus.schema_of_mem {grammar : Grammar}
    (member : grammar ∈ NetworkStatus.grammars) : grammar.schema = NetworkStatus.schema := by
  have all : ∀ grammar ∈ NetworkStatus.grammars, grammar.schema = NetworkStatus.schema := by
    simp [grammars, consensusGrammar, voteGrammar]
  exact all grammar member

theorem NetworkStatus.fillsSchema {grammar : Grammar}
    (member : grammar ∈ NetworkStatus.grammars) : grammar.FillsSchema := by
  have known : ∀ grammar ∈ NetworkStatus.grammars, ∀ rule ∈ grammar.rules,
      ∀ name ∈ rule.decoder.fields,
        name ∈ NetworkStatus.schema.fieldNames ∨ name = authorityLines := by decide
  have repeated : ∀ grammar ∈ NetworkStatus.grammars, ∀ rule ∈ grammar.rules,
      authorityLines ∈ rule.decoder.fields → rule.repeated = true := by decide
  have plain : ∀ grammar ∈ NetworkStatus.grammars,
      grammar.digestEnd = none ∧ grammar.sha256End = none := by decide
  exact Grammar.fillsSchema_of_networkStatus (schema_of_mem member) (known grammar member)
    (repeated grammar member) (plain grammar member).1 (plain grammar member).2

namespace Registry

/-- The grammars whose values need no arranging. -/
def plain : Registry :=
  Server.grammars ++ ExtraInfo.grammars ++ Microdescriptor.grammars ++ KeyCertificate.grammars

theorem mem_standard_iff {grammar : Grammar} :
    grammar ∈ standard ↔ grammar ∈ NetworkStatus.grammars ∨ grammar ∈ plain := by
  simp only [standard, plain, List.append_assoc, List.mem_append]

theorem arrange_of_mem_plain {grammar : Grammar} (member : grammar ∈ plain) :
    grammar.schema.arrange = .ok := by
  have all : ∀ grammar ∈ plain, grammar.schema.arrange = .ok := by
    simp [plain, Server.grammars, Server.grammar, Server.schema, ExtraInfo.grammars,
      ExtraInfo.grammar, ExtraInfo.schema, Microdescriptor.grammars, Microdescriptor.schema,
      KeyCertificate.grammars, KeyCertificate.schema]
  exact all grammar member

theorem fillsSchema_of_mem_plain {grammar : Grammar} (member : grammar ∈ plain) :
    grammar.FillsSchema := by
  have known : ∀ grammar ∈ plain, ∀ rule ∈ grammar.rules, ∀ name ∈ rule.decoder.fields,
      name ∈ grammar.schema.fieldNames := by decide
  have sha1 : ∀ grammar ∈ plain, grammar.digestEnd.isSome →
      digestField ∈ grammar.schema.fieldNames := by decide
  have sha256 : ∀ grammar ∈ plain, grammar.sha256End.isSome →
      sha256Field ∈ grammar.schema.fieldNames := by decide
  exact Grammar.fillsSchema_of_plain (arrange_of_mem_plain member) (known grammar member)
    (sha1 grammar member) (sha256 grammar member)

theorem areUniform_of_mem_standard {grammar : Grammar} (member : grammar ∈ standard) :
    AreUniform grammar.rules := by
  intro rule inside token
  have same : (standard.flatMap Grammar.rules).map (fun rule => rule.decoder.names token) =
      (standard.flatMap Grammar.rules).map fun rule => rule.decoder.fields := rfl
  exact List.map_inj_left.mp same rule (List.mem_flatMap.mpr ⟨grammar, member, inside⟩)

theorem keepsApart_of_mem_standard {grammar : Grammar} (member : grammar ∈ standard) :
    grammar.KeepsApart := by
  have all : ∀ grammar ∈ standard, grammar.KeepsApart := by
    unfold Grammar.KeepsApart
    decide
  exact all grammar member

theorem isAsciiMarker_of_all {marker : Option Text}
    (ascii : marker.all (·.all Ascii.isAscii) = true) : Digests.IsAsciiMarker marker := by
  rintro text rfl
  exact List.all_eq_true.mp ascii

/-- The grammars of the library are sound. -/
theorem isSound_of_mem_standard {grammar : Grammar} (member : grammar ∈ standard) :
    grammar.IsSound := by
  have leading : ∀ grammar ∈ standard, grammar.leading.all Ascii.isAscii = true ∧
      '\n' ∉ grammar.leading := by decide
  have markers : ∀ grammar ∈ standard, grammar.digestEnd.all (·.all Ascii.isAscii) = true ∧
      grammar.sha256End.all (·.all Ascii.isAscii) = true := by decide
  have fills : grammar.FillsSchema :=
    (mem_standard_iff.mp member).elim NetworkStatus.fillsSchema fillsSchema_of_mem_plain
  exact ⟨List.all_eq_true.mp (leading grammar member).1, (leading grammar member).2,
    isAsciiMarker_of_all (markers grammar member).1,
    isAsciiMarker_of_all (markers grammar member).2, areSteady_of_mem_standard member,
    areUniform_of_mem_standard member, keepsApart_of_mem_standard member, fills⟩

end Registry

end RelayDescriptor
