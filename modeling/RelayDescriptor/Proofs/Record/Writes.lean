import Mathlib.Data.List.Nodup
import RelayDescriptor.Proofs.OrderedMap
import RelayDescriptor.Proofs.Reading.Collection

/-!
# What lines leave behind

A line gives a value to each field of its decoder.  Of a field that lines write anew the
collection holds the last value that a line gave it, and of a field that lines add to it
holds all of them in the order of the lines.
-/

namespace RelayDescriptor

namespace Decoder

variable {decoder : Decoder} {field : String} {token : Token} {values : List Value}

/-- Every line that is read gives a value to each field, and these are always the same fields. -/
structure IsComplete (decoder : Decoder) : Prop where
  uniform : decoder.IsUniform
  values : ∀ token values, decoder.values token = .ok values →
    values.length = decoder.fields.length

/-- The value that a line gives to a field, if the decoder writes the field and reads the line. -/
def valueOf? (decoder : Decoder) (field : String) (token : Token) : Option Value :=
  match decoder.updates token with
  | .ok updates => OrderedMap.find? field updates
  | .error _ => none

theorem valueOf?_of_updates {updates : List (String × Value)}
    (updated : decoder.updates token = .ok updates) :
    decoder.valueOf? field token = OrderedMap.find? field updates := by
  rw [valueOf?, updated]

theorem IsUniform.updates (uniform : decoder.IsUniform) (read : decoder.values token = .ok values) :
    decoder.updates token = .ok (decoder.fields.zip values) := by
  rw [Decoder.updates, uniform token, read]
  rfl

theorem valueOf?_of_values (uniform : decoder.IsUniform) (read : decoder.values token = .ok values) :
    decoder.valueOf? field token = OrderedMap.find? field (decoder.fields.zip values) :=
  valueOf?_of_updates (uniform.updates read)

theorem keys_zip (complete : decoder.IsComplete) (read : decoder.values token = .ok values) :
    OrderedMap.keys (decoder.fields.zip values) = decoder.fields :=
  List.map_fst_zip (Nat.le_of_eq (complete.values token values read).symm)

theorem valueOf?_eq_none (complete : decoder.IsComplete) (foreign : field ∉ decoder.fields) :
    decoder.valueOf? field token = none := by
  cases read : decoder.values token with
  | error fault => simp only [valueOf?, updates, read, Except.map]
  | ok values =>
      rw [valueOf?_of_values complete.uniform read, OrderedMap.find?_eq_none_iff,
        keys_zip complete read]
      exact foreign

theorem exists_valueOf? (complete : decoder.IsComplete) (own : field ∈ decoder.fields)
    (read : decoder.values token = .ok values) :
    ∃ value, decoder.valueOf? field token = some value := by
  rw [valueOf?_of_values complete.uniform read, ← Option.isSome_iff_exists,
    OrderedMap.isSome_find?_iff, keys_zip complete read]
  exact own

end Decoder

namespace Fields

variable {field : String} {value : Value} {values : List Value} {fields : Fields}

/-- What a field holds to which values were added one after the other; it is there from the first
one on. -/
def listed : List Value → Option Value
  | [] => none
  | value :: values => some (.list (value :: values))

theorem listed_append_singleton (values : List Value) (value : Value) :
    listed (values ++ [value]) = some (.list (values ++ [value])) := by
  cases values with
  | nil => rfl
  | cons first values => rfl

theorem append_of_listed (before : OrderedMap.find? field fields = listed values) :
    fields.append field value = .ok (fields.write field (.list (values ++ [value]))) := by
  rw [append, before]
  cases values with
  | nil => rfl
  | cons first values => rfl

end Fields

namespace Grammar

variable {grammar : Grammar} {field : String} {fields later : Fields} {token : Token}
  {tokens : List Token} {rule : FieldRule}

/-- A grammar in which a keyword has one rule, no rule writes a field twice, and a field is either
written anew or added to. -/
structure IsOrderly (grammar : Grammar) : Prop where
  keywords : grammar.ruled.Nodup
  fields : ∀ rule ∈ grammar.rules, rule.decoder.fields.Nodup
  complete : ∀ rule ∈ grammar.rules, rule.decoder.IsComplete
  apart : grammar.KeepsApart

theorem IsOrderly.areUniform (orderly : grammar.IsOrderly) : AreUniform grammar.rules :=
  fun rule member => (orderly.complete rule member).uniform

theorem IsOrderly.rule?_eq_some_iff (orderly : grammar.IsOrderly) {keyword : Text} :
    grammar.rule? keyword = some rule ↔ rule ∈ grammar.rules ∧ rule.keyword = keyword := by
  constructor
  · intro found
    exact ⟨List.mem_of_find?_eq_some found, by simpa using List.find?_some found⟩
  · rintro ⟨member, rfl⟩
    have ruled : (grammar.rule? rule.keyword).isSome :=
      List.find?_isSome.mpr ⟨rule, member, decide_eq_true rfl⟩
    obtain ⟨first, found⟩ := Option.isSome_iff_exists.mp ruled
    have same : first.keyword = rule.keyword := by simpa using List.find?_some found
    rw [found, List.inj_on_of_nodup_map orderly.keywords (List.mem_of_find?_eq_some found) member
      same]

/-- Lines write a field anew, if they write it at all. -/
def WritesAnew (grammar : Grammar) (field : String) : Prop :=
  ∀ rule ∈ grammar.rules, field ∈ rule.decoder.fields → rule.repeated = false

/-- Lines add to a field, if they write it at all. -/
def AddsTo (grammar : Grammar) (field : String) : Prop :=
  ∀ rule ∈ grammar.rules, field ∈ rule.decoder.fields → rule.repeated = true

theorem IsOrderly.writesAnew (orderly : grammar.IsOrderly) (member : rule ∈ grammar.rules)
    (once : rule.repeated = false) (own : field ∈ rule.decoder.fields) :
    grammar.WritesAnew field := by
  intro other inside shared
  cases repeated : other.repeated with
  | false => rfl
  | true => exact absurd own (orderly.apart other inside repeated rule member once field shared)

/-- The value that a line gives to a field, if it gives one. -/
def valueOf? (grammar : Grammar) (field : String) (token : Token) : Option Value :=
  (grammar.rule? token.keyword).bind fun rule => rule.decoder.valueOf? field token

theorem valueOf?_of_rule (found : grammar.rule? token.keyword = some rule) :
    grammar.valueOf? field token = rule.decoder.valueOf? field token := by
  rw [valueOf?, found]
  rfl

theorem IsOrderly.valueOf?_eq_none (orderly : grammar.IsOrderly)
    (foreign : ∀ rule, grammar.rule? token.keyword = some rule → field ∉ rule.decoder.fields) :
    grammar.valueOf? field token = none := by
  cases found : grammar.rule? token.keyword with
  | none =>
      rw [valueOf?, found]
      rfl
  | some rule =>
      have member := (orderly.rule?_eq_some_iff.mp found).1
      rw [valueOf?_of_rule found]
      exact Decoder.valueOf?_eq_none (orderly.complete rule member) (foreign rule found)

theorem find?_writeAll_anew {updates : List (String × Value)}
    (distinct : (OrderedMap.keys updates).Nodup)
    (written : writeAll false fields updates = .ok later) :
    OrderedMap.find? field later =
      (OrderedMap.find? field updates).or (OrderedMap.find? field fields) := by
  rw [writeAll] at written
  induction updates generalizing fields with
  | nil =>
      cases written
      rfl
  | cons update updates induction =>
      obtain ⟨name, value⟩ := update
      obtain ⟨absent, distinct⟩ := List.nodup_cons.mp distinct
      replace written : updates.foldlM (Fields.put false) (fields.write name value) = .ok later :=
        written
      rw [induction distinct written, OrderedMap.find?, Fields.write]
      by_cases same : name = field
      · subst same
        rw [OrderedMap.find?_eq_none_iff.mpr absent, OrderedMap.find?_insert_self]
        simp
      · rw [OrderedMap.find?_insert_of_ne (Ne.symm same), if_neg same]

theorem find?_put_of_ne {repeated : Bool} {update : String × Value} (different : field ≠ update.1)
    (put : fields.put repeated update = .ok later) :
    OrderedMap.find? field later = OrderedMap.find? field fields := by
  obtain ⟨value, rfl, _⟩ := Fields.exists_write_of_put put
  exact OrderedMap.find?_insert_of_ne different _ _

theorem find?_writeAll_adding {updates : List (String × Value)}
    (distinct : (OrderedMap.keys updates).Nodup) {values : List Value} {fields : Fields}
    (before : OrderedMap.find? field fields = Fields.listed values)
    (written : writeAll true fields updates = .ok later) :
    OrderedMap.find? field later =
      Fields.listed (values ++ (OrderedMap.find? field updates).toList) := by
  rw [writeAll] at written
  induction updates generalizing fields values with
  | nil =>
      cases written
      simpa [OrderedMap.find?] using before
  | cons update updates induction =>
      obtain ⟨name, value⟩ := update
      obtain ⟨absent, distinct⟩ := List.nodup_cons.mp distinct
      rw [List.foldlM_cons] at written
      obtain ⟨next, put, rest⟩ := bind_eq_ok_iff.mp written
      rw [OrderedMap.find?]
      by_cases same : name = field
      · subst same
        replace put : fields.append name value = .ok next := put
        rw [Fields.append_of_listed before] at put
        cases put
        have added : OrderedMap.find? name (fields.write name (.list (values ++ [value]))) =
            Fields.listed (values ++ [value]) := by
          rw [Fields.write, OrderedMap.find?_insert_self, Fields.listed_append_singleton]
        rw [induction distinct added rest, OrderedMap.find?_eq_none_iff.mpr absent]
        simp
      · rw [if_neg same]
        exact induction distinct ((find?_put_of_ne (Ne.symm same) put).trans before) rest

theorem find?_writeAll_of_foreign {updates : List (String × Value)} {repeated : Bool}
    (foreign : field ∉ OrderedMap.keys updates)
    (written : writeAll repeated fields updates = .ok later) :
    OrderedMap.find? field later = OrderedMap.find? field fields := by
  rw [writeAll] at written
  induction updates generalizing fields with
  | nil =>
      cases written
      rfl
  | cons update updates induction =>
      obtain ⟨different, foreign⟩ : field ≠ update.1 ∧ field ∉ OrderedMap.keys updates := by
        simpa [OrderedMap.keys] using foreign
      rw [List.foldlM_cons] at written
      obtain ⟨next, put, rest⟩ := bind_eq_ok_iff.mp written
      exact (induction foreign rest).trans (find?_put_of_ne different put)

/-- How a line that gives a field its value changes the collection. -/
theorem decodeToken_of_value (orderly : grammar.IsOrderly)
    (decoded : grammar.decodeToken fields token = .ok later) {value : Value}
    (given : grammar.valueOf? field token = some value) :
    ∃ rule ∈ grammar.rules, field ∈ rule.decoder.fields ∧ ∃ updates : List (String × Value),
      (OrderedMap.keys updates).Nodup ∧ OrderedMap.find? field updates = some value ∧
        writeAll rule.repeated fields updates = .ok later := by
  obtain ⟨rule, found, given⟩ := Option.bind_eq_some_iff.mp given
  have member := (orderly.rule?_eq_some_iff.mp found).1
  have complete := orderly.complete rule member
  rw [decodeToken, found] at decoded
  obtain ⟨updates, updated, written⟩ := bind_eq_ok_iff.mp decoded
  rw [Decoder.valueOf?_of_updates updated] at given
  obtain ⟨values, read, rfl⟩ := map_eq_ok_iff.mp updated
  have keys := Decoder.keys_zip complete read
  rw [complete.uniform token] at given written
  refine ⟨rule, member, ?_, _, ?_, given, written⟩
  · rw [← keys, ← OrderedMap.isSome_find?_iff, given]
    rfl
  · rw [keys]
    exact orderly.fields rule member

theorem find?_decodeToken_of_none
    (decoded : grammar.decodeToken fields token = .ok later)
    (silent : grammar.valueOf? field token = none) :
    OrderedMap.find? field later = OrderedMap.find? field fields := by
  rw [decodeToken] at decoded
  split at decoded
  next =>
    cases decoded
    rfl
  next rule found =>
    obtain ⟨updates, updated, written⟩ := bind_eq_ok_iff.mp decoded
    rw [valueOf?_of_rule found, Decoder.valueOf?_of_updates updated,
      OrderedMap.find?_eq_none_iff] at silent
    exact find?_writeAll_of_foreign silent written

theorem find?_decodeToken_anew (orderly : grammar.IsOrderly) (anew : grammar.WritesAnew field)
    (decoded : grammar.decodeToken fields token = .ok later) :
    OrderedMap.find? field later =
      (grammar.valueOf? field token).or (OrderedMap.find? field fields) := by
  cases given : grammar.valueOf? field token with
  | none => exact find?_decodeToken_of_none decoded given
  | some value =>
      obtain ⟨rule, member, own, updates, distinct, found, written⟩ :=
        decodeToken_of_value orderly decoded given
      rw [anew rule member own] at written
      rw [find?_writeAll_anew distinct written, found]

theorem find?_decodeToken_adding (orderly : grammar.IsOrderly) (adding : grammar.AddsTo field)
    {values : List Value} (before : OrderedMap.find? field fields = Fields.listed values)
    (decoded : grammar.decodeToken fields token = .ok later) :
    OrderedMap.find? field later =
      Fields.listed (values ++ (grammar.valueOf? field token).toList) := by
  cases given : grammar.valueOf? field token with
  | none =>
      rw [find?_decodeToken_of_none decoded given, before]
      simp
  | some value =>
      obtain ⟨rule, member, own, updates, distinct, found, written⟩ :=
        decodeToken_of_value orderly decoded given
      rw [adding rule member own] at written
      rw [find?_writeAll_adding distinct before written, found]

/-- Of a field that is written anew, the last value is left. -/
theorem find?_foldlM_anew (orderly : grammar.IsOrderly) (anew : grammar.WritesAnew field)
    (decoded : tokens.foldlM grammar.decodeToken fields = .ok later) :
    OrderedMap.find? field later =
      (tokens.filterMap (grammar.valueOf? field)).getLast?.or (OrderedMap.find? field fields) := by
  induction tokens generalizing fields with
  | nil =>
      cases decoded
      rfl
  | cons token tokens induction =>
      rw [List.foldlM_cons] at decoded
      obtain ⟨next, first, rest⟩ := bind_eq_ok_iff.mp decoded
      rw [induction rest, find?_decodeToken_anew orderly anew first, List.filterMap_cons]
      -- The value of this line stands only if no later line gives another one.
      cases given : grammar.valueOf? field token with
      | none => rfl
      | some value =>
          rw [List.getLast?_cons]
          cases (tokens.filterMap (grammar.valueOf? field)).getLast? with
          | none => rfl
          | some last => rfl

/-- Of a field that is added to, all values are left in the order of their lines. -/
theorem find?_foldlM_adding (orderly : grammar.IsOrderly) (adding : grammar.AddsTo field)
    {values : List Value} (before : OrderedMap.find? field fields = Fields.listed values)
    (decoded : tokens.foldlM grammar.decodeToken fields = .ok later) :
    OrderedMap.find? field later =
      Fields.listed (values ++ tokens.filterMap (grammar.valueOf? field)) := by
  -- The values of the lines passed by are carried along, since every line extends them.
  induction tokens generalizing fields values with
  | nil =>
      cases decoded
      simpa using before
  | cons token tokens induction =>
      rw [List.foldlM_cons] at decoded
      obtain ⟨next, first, rest⟩ := bind_eq_ok_iff.mp decoded
      rw [induction (find?_decodeToken_adding orderly adding before first) rest,
        List.append_assoc, List.filterMap_cons]
      cases grammar.valueOf? field token with
      | none => rfl
      | some value => rfl

theorem find?_decodeTokens_anew (orderly : grammar.IsOrderly) (anew : grammar.WritesAnew field)
    (decoded : grammar.decodeTokens tokens = .ok fields) :
    OrderedMap.find? field fields = (tokens.filterMap (grammar.valueOf? field)).getLast? := by
  rw [find?_foldlM_anew orderly anew decoded]
  exact Option.or_none

theorem find?_decodeTokens_adding (orderly : grammar.IsOrderly) (adding : grammar.AddsTo field)
    (decoded : grammar.decodeTokens tokens = .ok fields) :
    OrderedMap.find? field fields =
      Fields.listed (tokens.filterMap (grammar.valueOf? field)) := by
  have before : OrderedMap.find? field ([] : Fields) = Fields.listed [] := rfl
  simpa using find?_foldlM_adding orderly adding before decoded

theorem exists_values_of_foldlM (decoded : tokens.foldlM grammar.decodeToken fields = .ok later)
    (member : token ∈ tokens) (found : grammar.rule? token.keyword = some rule) :
    ∃ values, rule.decoder.values token = .ok values := by
  induction tokens generalizing fields with
  | nil => cases member
  | cons first tokens induction =>
      rw [List.foldlM_cons] at decoded
      obtain ⟨next, here, rest⟩ := bind_eq_ok_iff.mp decoded
      rcases List.mem_cons.mp member with rfl | member
      · rw [decodeToken, found] at here
        obtain ⟨updates, updated, _⟩ := bind_eq_ok_iff.mp here
        obtain ⟨values, read, _⟩ := map_eq_ok_iff.mp updated
        exact ⟨values, read⟩
      · exact induction rest member

theorem exists_valueOf? (orderly : grammar.IsOrderly)
    (decoded : grammar.decodeTokens tokens = .ok fields) (member : token ∈ tokens)
    (found : grammar.rule? token.keyword = some rule) (own : field ∈ rule.decoder.fields) :
    ∃ value, grammar.valueOf? field token = some value := by
  obtain ⟨values, read⟩ := exists_values_of_foldlM decoded member found
  rw [valueOf?_of_rule found]
  exact Decoder.exists_valueOf? (orderly.complete rule (orderly.rule?_eq_some_iff.mp found).1)
    own read

end Grammar

end RelayDescriptor
