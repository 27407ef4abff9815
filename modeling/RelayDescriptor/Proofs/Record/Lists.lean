import RelayDescriptor.Proofs.Record.Accepted
import RelayDescriptor.Proofs.Record.Declarations

/-!
# Lists of lines

Some fields keep the values of all lines of certain keywords.  Neither the lines between
them nor the two keywords of an exit policy disturb the order, and nothing is left out.
-/

namespace RelayDescriptor

/-- What follows from a relation between elements holds of all elements on one side. -/
theorem forall_mem_right_of_forall₂ {α β : Type} {R : α → β → Prop} {P : β → Prop} {items : List α}
    {results : List β} (each : List.Forall₂ R items results) (follows : ∀ a b, R a b → P b) :
    ∀ b ∈ results, P b := by
  induction each with
  | nil => simp
  | cons holds _ induction => exact List.forall_mem_cons.mpr ⟨follows _ _ holds, induction⟩

theorem forall₂_filterMap {α β : Type} {value? : α → Option β} {chosen : α → Bool}
    {items : List α} (given : ∀ item ∈ items, chosen item = true → ∃ b, value? item = some b)
    (foreign : ∀ item ∈ items, chosen item = false → value? item = none) :
    List.Forall₂ (fun item b => value? item = some b) (items.filter chosen)
      (items.filterMap value?) := by
  induction items with
  | nil => exact .nil
  | cons item items induction =>
      have later := induction (fun other member => given other (List.mem_cons_of_mem item member))
        fun other member => foreign other (List.mem_cons_of_mem item member)
      rw [List.filter_cons, List.filterMap_cons]
      cases here : chosen item with
      | false =>
          rw [foreign item List.mem_cons_self here]
          exact later
      | true =>
          obtain ⟨b, found⟩ := given item List.mem_cons_self here
          rw [found]
          exact .cons found later

/-- A field holds a list with one value for each of some lines, in their order. -/
def Record.Lists (record : Record) (field : String) (reads : Token → Value → Prop)
    (lines : List Token) : Prop :=
  ∃ values, record.find? field = some (.list values) ∧ values.length = lines.length ∧
    List.Forall₂ reads lines values

theorem Record.Lists.imp {record : Record} {field : String} {reads others : Token → Value → Prop}
    {lines : List Token} (lists : record.Lists field reads lines)
    (weaker : ∀ token value, reads token value → others token value) :
    record.Lists field others lines := by
  obtain ⟨values, found, long, each⟩ := lists
  exact ⟨values, found, long, each.imp weaker⟩

theorem Decoder.valueOf?_ofToken {field : String} {read : Token → Except Fault Value}
    {token : Token} {value : Value} :
    (ofToken field read).valueOf? field token = some value ↔ read token = .ok value := by
  cases found : read token with
  | error fault => simp [valueOf?, updates, ofToken, found, Except.map]
  | ok result => simp [valueOf?, updates, ofToken, found, Except.map, OrderedMap.find?]

namespace Grammar

variable {grammar : Grammar} {field : String} {keywords : List Text} {decoder : Decoder}
  {tokens : List Token} {record : Record}

/-- The lines of some keywords, and no other lines, are added to a field. -/
structure Gathers (grammar : Grammar) (field : String) (keywords : List Text)
    (decoder : Decoder) : Prop where
  ordinary : field ∉ arrangedNames
  initial : OrderedMap.find? field grammar.schema.fields = some (.list [])
  own : field ∈ decoder.fields
  rules : ∀ keyword ∈ keywords, grammar.rule? keyword = some ⟨keyword, decoder, true⟩
  others : ∀ rule ∈ grammar.rules, field ∈ rule.decoder.fields → rule.keyword ∈ keywords

theorem Gathers.of_single {keyword : String} (ordinary : field ∉ arrangedNames)
    (initial : OrderedMap.find? field grammar.schema.fields = some (.list []))
    (own : field ∈ decoder.fields)
    (ruled : grammar.rule? keyword.toList = some ⟨keyword.toList, decoder, true⟩)
    (others : ∀ rule ∈ grammar.rules, field ∈ rule.decoder.fields →
      rule.keyword = keyword.toList) :
    grammar.Gathers field ([keyword].map String.toList) decoder := by
  refine ⟨ordinary, initial, own, ?_, ?_⟩
  · intro other inside
    cases List.mem_singleton.mp inside
    exact ruled
  · intro rule member shared
    exact List.mem_singleton.mpr (others rule member shared)

theorem Gathers.recognized (gathers : grammar.Gathers field keywords decoder) :
    ∀ keyword ∈ keywords, keyword ∈ grammar.recognized := by
  intro keyword inside
  have found := gathers.rules keyword inside
  exact List.mem_append_left _ (List.mem_map_of_mem (List.mem_of_find?_eq_some found))

theorem Gathers.addsTo (gathers : grammar.Gathers field keywords decoder)
    (orderly : grammar.IsOrderly) : grammar.AddsTo field := by
  intro rule member own
  have found := gathers.rules rule.keyword (gathers.others rule member own)
  rw [orderly.rule?_eq_some_iff.mpr ⟨member, rfl⟩] at found
  rw [Option.some.inj found]

theorem Gathers.valueOf?_eq_none (gathers : grammar.Gathers field keywords decoder)
    (orderly : grammar.IsOrderly) {token : Token} (other : token.keyword ∉ keywords) :
    grammar.valueOf? field token = none := by
  apply orderly.valueOf?_eq_none
  intro rule found own
  obtain ⟨member, same⟩ := orderly.rule?_eq_some_iff.mp found
  exact other (same ▸ gathers.others rule member own)

theorem Acceptance.lists (acceptance : grammar.Acceptance tokens record)
    (member : grammar ∈ Registry.standard) (gathers : grammar.Gathers field keywords decoder) :
    record.Lists field (fun token value => decoder.valueOf? field token = some value)
      (tokens.filter fun token => keywords.contains token.keyword) := by
  have orderly := Registry.isOrderly_of_mem_standard member
  have each : List.Forall₂ (fun token value => grammar.valueOf? field token = some value)
      (tokens.filter fun token => keywords.contains token.keyword)
      (tokens.filterMap (grammar.valueOf? field)) := by
    apply forall₂_filterMap
    · intro token inside chosen
      have found := gathers.rules token.keyword (List.contains_iff_mem.mp chosen)
      exact exists_valueOf? orderly acceptance.decoded inside found gathers.own
    · intro token _ other
      exact gathers.valueOf?_eq_none orderly
        fun own => Bool.eq_false_iff.mp other (List.contains_iff_mem.mpr own)
  have chosen : ∀ token ∈ tokens.filter fun token => keywords.contains token.keyword,
      token.keyword ∈ keywords := by
    intro token inside
    exact List.contains_iff_mem.mp (List.mem_filter.mp inside).2
  refine ⟨tokens.filterMap (grammar.valueOf? field), ?_, each.length_eq.symm, ?_⟩
  · rw [acceptance.find?_record member gathers.ordinary, gathers.initial,
      find?_decodeTokens_adding orderly (gathers.addsTo orderly) acceptance.decoded]
    cases tokens.filterMap (grammar.valueOf? field) with
    | nil => rfl
    | cons value values => rfl
  · apply ((List.forall₂_and_left _ _).mpr ⟨chosen, each⟩).imp
    intro token value ⟨own, given⟩
    rwa [valueOf?_of_rule (gathers.rules token.keyword own)] at given

end Grammar

namespace Document

variable {blob : Blob} {range : ByteRange} {grammar : Grammar} {strict : Bool}
  {origin : Option Text} {document : Document} {keywords : List String} {field : String}
  {decoder : Decoder}

/-- The lines of a document with some keywords, below its annotations and outside embedded blocks;
the mark of a deprecated keyword is not part of the keyword. -/
def linesOf (raw : List UInt8) (keywords : List String) : List Token :=
  ((items raw).filterMap Item.token?).filter fun token =>
    (keywords.map String.toList).contains token.keyword

theorem filter_recognized {raw : List UInt8}
    (known : ∀ keyword ∈ keywords.map String.toList, keyword ∈ grammar.recognized) :
    ((recognized grammar raw).filter fun token =>
        (keywords.map String.toList).contains token.keyword) = linesOf raw keywords := by
  rw [recognized, ← List.filter_filterMap, List.filter_filter, linesOf]
  apply List.filter_congr
  intro token _
  by_cases own : token.keyword ∈ keywords.map String.toList
  · rw [List.contains_iff_mem.mpr own, List.contains_iff_mem.mpr (known token.keyword own)]
    rfl
  · rw [Bool.eq_false_iff.mpr (mt List.contains_iff_mem.mp own)]
    rfl

theorem lists_of_gathers (member : grammar ∈ Registry.standard)
    (parsed : parse blob range grammar strict origin = .ok document)
    (gathers : grammar.Gathers field (keywords.map String.toList) decoder) :
    document.record.Lists field (fun token value => decoder.valueOf? field token = some value)
      (linesOf (blob.slice range) keywords) := by
  obtain ⟨acceptance⟩ := exists_acceptance_of_parse parsed
  rw [← filter_recognized gathers.recognized]
  exact acceptance.lists member gathers

end Document

variable {grammar : Grammar} {field : String} {token : Token} {value : Value}

/-- A line gives its only argument. -/
def ReadsArgument (token : Token) (value : Value) : Prop :=
  ∃ argument, token.arguments = [argument] ∧ value = .text argument

theorem Decoder.readsArgument_of_single
    (given : (Decoder.single field).valueOf? field token = some value) :
    ReadsArgument token value := by
  obtain ⟨_, counted, read⟩ := bind_eq_ok_iff.mp (Decoder.valueOf?_ofToken.mp given)
  obtain ⟨argument, only⟩ := List.length_eq_one_iff.mp (Token.length_of_expectExactly counted)
  cases read
  refine ⟨argument, only, ?_⟩
  rw [Token.argument, only]
  rfl

namespace Server

/-- A line of the exit policy gives its keyword and its only argument. -/
def ReadsPolicy (token : Token) (value : Value) : Prop :=
  ∃ argument, token.arguments = [argument] ∧ value = .text (token.keyword ++ ' ' :: argument)

theorem readsPolicy_of_policyLine
    (given : policyLine.valueOf? "exit_policy" token = some value) : ReadsPolicy token value := by
  obtain ⟨_, counted, read⟩ := bind_eq_ok_iff.mp (Decoder.valueOf?_ofToken.mp given)
  obtain ⟨argument, only⟩ := List.length_eq_one_iff.mp (Token.length_of_expectExactly counted)
  cases read
  refine ⟨argument, only, ?_⟩
  rw [Token.argument, only]
  rfl

theorem exists_of_mem_grammars (member : grammar ∈ grammars) :
    ∃ kind description, grammar = Server.grammar kind description := by
  simp only [grammars, List.mem_cons, List.not_mem_nil, or_false] at member
  rcases member with rfl | rfl
  · exact ⟨_, _, rfl⟩
  · exact ⟨_, _, rfl⟩

theorem gathers_exitPolicy (member : grammar ∈ grammars) :
    grammar.Gathers "exit_policy" (["accept", "reject"].map String.toList) policyLine := by
  obtain ⟨kind, description, rfl⟩ := exists_of_mem_grammars member
  refine ⟨by decide, rfl, List.mem_cons_self, ?_, ?_⟩
  · intro keyword inside
    simp only [List.map_cons, List.map_nil, List.mem_cons, List.not_mem_nil, or_false] at inside
    rcases inside with rfl | rfl
    · rfl
    · rfl
  · show ∀ rule ∈ rules, _
    decide

theorem gathers_orAddresses (member : grammar ∈ grammars) :
    grammar.Gathers "or_addresses" (["or-address"].map String.toList)
      (.single "or_addresses") := by
  obtain ⟨kind, description, rfl⟩ := exists_of_mem_grammars member
  apply Grammar.Gathers.of_single (by decide) rfl List.mem_cons_self rfl
  show ∀ rule ∈ rules, _
  decide

end Server

namespace Microdescriptor

/-- A line gives the list of its two arguments. -/
def ReadsIdentity (token : Token) (value : Value) : Prop :=
  ∃ keyType digest, token.arguments = [keyType, digest] ∧ value = Value.texts [keyType, digest]

theorem readsIdentity_of_identity (given : identity.valueOf? "identities" token = some value) :
    ReadsIdentity token value := by
  obtain ⟨_, counted, read⟩ := bind_eq_ok_iff.mp (Decoder.valueOf?_ofToken.mp given)
  obtain ⟨keyType, digest, both⟩ :=
    List.length_eq_two.mp (Token.length_of_expectExactly counted)
  cases read
  refine ⟨keyType, digest, both, ?_⟩
  rw [Token.argument, Token.argument, both]
  rfl

theorem gathers_orAddresses (member : grammar ∈ grammars) :
    grammar.Gathers "or_addresses" (["a"].map String.toList) (.single "or_addresses") := by
  cases List.mem_singleton.mp member
  exact .of_single (by decide) rfl List.mem_cons_self rfl (by decide)

theorem gathers_identities (member : grammar ∈ grammars) :
    grammar.Gathers "identities" (["id"].map String.toList) identity := by
  cases List.mem_singleton.mp member
  exact .of_single (by decide) rfl List.mem_cons_self rfl (by decide)

end Microdescriptor

namespace NetworkStatus

/-- A line gives the entry of a router. -/
def ReadsEntry (token : Token) (value : Value) : Prop :=
  ∃ entry, statusEntry token = .ok entry ∧ value = .entry entry

theorem readsEntry_of_entry (given : entry.valueOf? "entries" token = some value) :
    ReadsEntry token value := by
  obtain ⟨entry, read, same⟩ := map_eq_ok_iff.mp (Decoder.valueOf?_ofToken.mp given)
  exact ⟨entry, read, same.symm⟩

/-- A line gives the identity of the signer in capitals.  The name of a digest may stand before
it, and the digest of the key stands behind it. -/
def ReadsSigner (token : Token) (value : Value) : Prop :=
  ∃ identity key, (token.arguments = [identity, key] ∨
    ∃ algorithm, token.arguments = [algorithm, identity, key]) ∧
      value = .text (identity.map Char.toUpper)

theorem readsSigner_of_signature (given : signature.valueOf? "signatures" token = some value) :
    ReadsSigner token value := by
  have read := Decoder.valueOf?_ofToken.mp given
  split at read
  next three =>
    obtain ⟨algorithm, identity, key, all⟩ := List.length_eq_three.mp three
    obtain ⟨digest, found, read⟩ := bind_eq_ok_iff.mp read
    cases read
    rw [Token.argument, all] at found
    exact ⟨identity, key, .inr ⟨algorithm, all⟩, congrArg Value.text (eq_of_hexDigest found)⟩
  next =>
    obtain ⟨_, counted, read⟩ := bind_eq_ok_iff.mp read
    obtain ⟨identity, key, both⟩ :=
      List.length_eq_two.mp (Token.length_of_expectExactly counted)
    obtain ⟨digest, found, read⟩ := bind_eq_ok_iff.mp read
    cases read
    rw [Token.argument, both] at found
    exact ⟨identity, key, .inl both, congrArg Value.text (eq_of_hexDigest found)⟩

theorem gathers_entries (member : grammar ∈ grammars) :
    grammar.Gathers "entries" (["r"].map String.toList) entry := by
  simp only [grammars, List.mem_cons, List.not_mem_nil, or_false] at member
  rcases member with rfl | rfl | rfl
  · exact .of_single (by decide) rfl List.mem_cons_self rfl (by decide)
  · exact .of_single (by decide) rfl List.mem_cons_self rfl (by decide)
  · exact .of_single (by decide) rfl List.mem_cons_self rfl (by decide)

theorem gathers_signatures (member : grammar ∈ grammars) :
    grammar.Gathers "signatures" (["directory-signature"].map String.toList) signature := by
  simp only [grammars, List.mem_cons, List.not_mem_nil, or_false] at member
  rcases member with rfl | rfl | rfl
  · exact .of_single (by decide) rfl List.mem_cons_self rfl (by decide)
  · exact .of_single (by decide) rfl List.mem_cons_self rfl (by decide)
  · exact .of_single (by decide) rfl List.mem_cons_self rfl (by decide)

end NetworkStatus

namespace Document

variable {blob : Blob} {range : ByteRange} {strict : Bool} {origin : Option Text}
  {document : Document}

/-- The lists of an accepted document hold the values of all their lines, one for each line and
in the order of the lines. -/
theorem lists_of_parse (member : grammar ∈ Registry.standard)
    (parsed : parse blob range grammar strict origin = .ok document) :
    let lines := linesOf (blob.slice range)
    let record := document.record
    (grammar ∈ Server.grammars →
      record.Lists "exit_policy" Server.ReadsPolicy (lines ["accept", "reject"]) ∧
        record.Lists "or_addresses" ReadsArgument (lines ["or-address"])) ∧
    (grammar ∈ Microdescriptor.grammars →
      record.Lists "or_addresses" ReadsArgument (lines ["a"]) ∧
        record.Lists "identities" Microdescriptor.ReadsIdentity (lines ["id"])) ∧
    (grammar ∈ NetworkStatus.grammars →
      record.Lists "entries" NetworkStatus.ReadsEntry (lines ["r"]) ∧
        record.Lists "signatures" NetworkStatus.ReadsSigner (lines ["directory-signature"])) := by
  intro lines record
  refine ⟨?_, ?_, ?_⟩
  · intro server
    exact ⟨(lists_of_gathers member parsed (Server.gathers_exitPolicy server)).imp
        fun token value => Server.readsPolicy_of_policyLine,
      (lists_of_gathers member parsed (Server.gathers_orAddresses server)).imp
        fun token value => Decoder.readsArgument_of_single⟩
  · intro micro
    exact ⟨(lists_of_gathers member parsed (Microdescriptor.gathers_orAddresses micro)).imp
        fun token value => Decoder.readsArgument_of_single,
      (lists_of_gathers member parsed (Microdescriptor.gathers_identities micro)).imp
        fun token value => Microdescriptor.readsIdentity_of_identity⟩
  · intro status
    exact ⟨(lists_of_gathers member parsed (NetworkStatus.gathers_entries status)).imp
        fun token value => NetworkStatus.readsEntry_of_entry,
      (lists_of_gathers member parsed (NetworkStatus.gathers_signatures status)).imp
        fun token value => NetworkStatus.readsSigner_of_signature⟩

theorem lists_of_parse_interleaved :
    let bytes := ("router a 1.2.3.4 1 0 0\nbandwidth 1 1 1\npublished 2020-01-01 00:00:00\n" ++
      "accept *:80\nopt reject *:25\naccept *:1\n").toList.map Ascii.byte
    ∃ grammar ∈ Registry.standard, ∃ document,
      parse ⟨bytes, none⟩ (wholeRange bytes) grammar true none = .ok document ∧
        document.record.Lists "exit_policy" Server.ReadsPolicy
          (linesOf bytes ["accept", "reject"]) ∧
        (linesOf bytes ["accept", "reject"]).map Token.line =
          ["accept *:80", "opt reject *:25", "accept *:1"].map String.toList := by
  intro bytes
  have found : Registry.standard.find? .serverDescriptor = some _ := rfl
  have member := List.mem_of_find?_eq_some found
  have accepted : (parse ⟨bytes, none⟩ (wholeRange bytes)
      (Server.grammar .serverDescriptor "Relay server descriptor") true none).isOk = true := by
    decide +kernel
  obtain ⟨document, parsed⟩ := exists_of_isOk accepted
  refine ⟨_, member, document, parsed, ?_, by decide +kernel⟩
  have lists := (lists_of_parse member parsed).1 List.mem_cons_self
  rw [slice_bytes] at lists
  exact lists.1

end Document

end RelayDescriptor
