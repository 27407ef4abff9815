import RelayDescriptor.Proofs.Reading.Openings
import RelayDescriptor.Proofs.Record.Typed

/-!
# Invariants of records

What holds of every record that a reading ends up with, by kind.  The constraints make
sure that a line is there, its decoder that the value is right, and the tables that the
value goes into the field that is meant.
-/

namespace RelayDescriptor

variable {grammar : Grammar} {tokens : List Token} {record : Record}

namespace Server

/-- What holds of the records of server descriptors. -/
structure Invariants (record : Record) : Prop where
  nickname : record.Holds "nickname" .nickname
  address : record.Holds "address" .address
  ports : ∀ field ∈ ["or_port", "socks_port", "dir_port"],
    record.Holds field (.integer (.between 0 65535))
  bandwidths : ∀ field ∈ ["bandwidth_rate", "bandwidth_burst", "bandwidth_observed"],
    record.Holds field (.integer (.atLeast 0))
  uptime : record.MayHold "uptime" (.integer (.atLeast 0))
  fingerprint : record.MayHold "fingerprint" (.digest 40)
  extraInfoDigest : record.MayHold "extra_info_digest" (.digest 40)

theorem invariants (member : grammar ∈ Registry.standard) (family : grammar ∈ grammars)
    (acceptance : grammar.Acceptance tokens record) : Invariants record := by
  have fit : Fit shapes grammar.rules := fit_of_mem family
  have ofRouter : ∀ grammar ∈ grammars, "router".toList ∈ grammar.constraints.exactlyOnce ∧
      ∀ field ∈ router.fields, grammar.Writes "router".toList field := by decide
  have ofBandwidth : ∀ grammar ∈ grammars,
      "bandwidth".toList ∈ grammar.constraints.exactlyOnce ∧
        ∀ field ∈ bandwidth.fields, grammar.Writes "bandwidth".toList field := by decide
  have optional : ∀ grammar ∈ grammars,
      ∀ entry ∈ [("uptime", "uptime"), ("fingerprint", "fingerprint"),
        ("extra-info-digest", "extra_info_digest")],
          grammar.StartsAbsent entry.2 ∧ grammar.Writes entry.1.toList entry.2 := by decide
  have routed : ∀ field ∈ router.fields, ∀ shape,
      OrderedMap.find? field shapes = some shape → record.Holds field shape := by
    intro field own shape declared
    obtain ⟨required, writes⟩ := ofRouter grammar family
    exact acceptance.holds_of_required member fit declared (writes field own) required
  constructor
  · exact routed "nickname" (by decide) _ rfl
  · exact routed "address" (by decide) _ rfl
  · intro field port
    have declared : ∀ field ∈ ["or_port", "socks_port", "dir_port"], field ∈ router.fields ∧
        OrderedMap.find? field shapes = some (.integer (.between 0 65535)) := by decide
    obtain ⟨own, declared⟩ := declared field port
    exact routed field own _ declared
  · intro field own
    have declared : ∀ field ∈ bandwidth.fields,
        OrderedMap.find? field shapes = some (.integer (.atLeast 0)) := by decide
    obtain ⟨required, writes⟩ := ofBandwidth grammar family
    exact acceptance.holds_of_required member fit (declared field own) (writes field own) required
  · obtain ⟨initial, writes⟩ := optional grammar family ("uptime", "uptime") (by decide)
    exact acceptance.mayHold member fit rfl initial writes
  · obtain ⟨initial, writes⟩ := optional grammar family ("fingerprint", "fingerprint") (by decide)
    exact acceptance.mayHold member fit rfl initial writes
  · obtain ⟨initial, writes⟩ :=
      optional grammar family ("extra-info-digest", "extra_info_digest") (by decide)
    exact acceptance.mayHold member fit rfl initial writes

end Server

namespace ExtraInfo

/-- The fields of the groups of statistics, each with the field that says when they end. -/
def statistics : List (String × List String) :=
  [
    ("dirreq_stats_end",
      [
        "dirreq_v2_ips", "dirreq_v3_ips", "dirreq_v2_reqs", "dirreq_v3_reqs", "dirreq_v2_share",
        "dirreq_v3_share", "dirreq_v2_resp", "dirreq_v3_resp", "dirreq_v2_direct_dl",
        "dirreq_v3_direct_dl", "dirreq_v2_tunneled_dl", "dirreq_v3_tunneled_dl"
      ]),
    ("entry_stats_end", ["entry_ips"]),
    ("cell_stats_end",
      [
        "cell_processed_cells", "cell_queued_cells", "cell_time_in_queue",
        "cell_circuits_per_decile"
      ]),
    ("exit_stats_end", ["exit_kibibytes_written", "exit_kibibytes_read", "exit_streams_opened"]),
    ("bridge_stats_end", ["bridge_ips"])
  ]

/-- The fields of the connections by direction. -/
def connectionCounts : List String :=
  ["conn_bi_direct_below", "conn_bi_direct_read", "conn_bi_direct_write", "conn_bi_direct_both"]

/-- What holds of the records of extra-info descriptors. -/
structure Invariants (record : Record) : Prop where
  fingerprint : record.Holds "fingerprint" (.digest 40)
  ended : ∀ group ∈ statistics, ∀ field ∈ group.2,
    record.IsSet field → record.Holds group.1 .interval
  connections :
    (record.Holds "conn_bi_direct_stats_end" .interval ∧
      ∀ field ∈ connectionCounts, record.Holds field (.integer .none)) ∨
    (record.IsAbsent "conn_bi_direct_stats_end" ∧
      ∀ field ∈ connectionCounts, record.IsAbsent field)

/-- A field is written by the lines of a keyword that needs the one by which its ending is
written. -/
def Needs (grammar : Grammar) (ending field : String) : Prop :=
  ∃ rule ∈ grammar.onceRules, field ∈ rule.decoder.fields ∧
    ∃ needed ∈ grammar.onceRules, ending ∈ needed.decoder.fields ∧
      (rule.keyword, needed.keyword) ∈ grammar.constraints.dependsOn

instance (grammar : Grammar) (ending field : String) : Decidable (Needs grammar ending field) :=
  inferInstanceAs (Decidable (∃ rule ∈ grammar.onceRules, _ ∧ ∃ needed ∈ grammar.onceRules, _ ∧ _))

theorem holds_of_needs (member : grammar ∈ Registry.standard) (family : grammar ∈ grammars)
    (acceptance : grammar.Acceptance tokens record) {ending field : String}
    (needs : Needs grammar ending field) (initial : grammar.StartsAbsent field)
    (declared : OrderedMap.find? ending shapes = some .interval)
    (given : record.IsSet field) : record.Holds ending .interval := by
  obtain ⟨rule, inside, own, needed, besides, ends, depends⟩ := needs
  have occurs := acceptance.occurs_of_isSet member initial ⟨rule, inside, rfl, own⟩ given
  exact acceptance.holds member (fit_of_mem family) declared ⟨needed, besides, rfl, ends⟩
    (acceptance.occurs_of_dependsOn depends occurs)

theorem invariants (member : grammar ∈ Registry.standard) (family : grammar ∈ grammars)
    (acceptance : grammar.Acceptance tokens record) : Invariants record := by
  have fit : Fit shapes grammar.rules := fit_of_mem family
  have ofRelay : ∀ grammar ∈ grammars, "extra-info".toList ∈ grammar.constraints.exactlyOnce ∧
      grammar.Writes "extra-info".toList "fingerprint" := by decide
  have needs : ∀ grammar ∈ grammars, ∀ group ∈ statistics, ∀ field ∈ group.2,
      Needs grammar group.1 field ∧ grammar.StartsAbsent field := by decide +kernel
  have intervals : ∀ group ∈ statistics,
      OrderedMap.find? group.1 shapes = some .interval := by decide
  have ofConnections : ∀ grammar ∈ grammars,
      ∀ field ∈ "conn_bi_direct_stats_end" :: connectionCounts,
        grammar.StartsAbsent field ∧ grammar.Writes "conn-bi-direct".toList field := by decide
  have counts : ∀ field ∈ connectionCounts,
      OrderedMap.find? field shapes = some (.integer .none) := by decide
  have connected := ofConnections grammar family
  obtain ⟨startsAbsent, writesEnd⟩ := connected "conn_bi_direct_stats_end" List.mem_cons_self
  constructor
  · obtain ⟨required, writes⟩ := ofRelay grammar family
    exact acceptance.holds_of_required member fit rfl writes required
  · intro group listed field own
    obtain ⟨needs, initial⟩ := needs grammar family group listed field own
    exact holds_of_needs member family acceptance needs initial (intervals group listed)
  · rcases Nat.eq_zero_or_pos (occurrences "conn-bi-direct".toList tokens) with missing | occurs
    · refine .inr ⟨acceptance.isAbsent_of_missing member startsAbsent writesEnd missing, ?_⟩
      intro field own
      obtain ⟨initial, writes⟩ := connected field (List.mem_cons_of_mem _ own)
      exact acceptance.isAbsent_of_missing member initial writes missing
    · refine .inl ⟨acceptance.holds member fit rfl writesEnd occurs, ?_⟩
      intro field own
      obtain ⟨_, writes⟩ := connected field (List.mem_cons_of_mem _ own)
      exact acceptance.holds member fit (counts field own) writes occurs

end ExtraInfo

namespace KeyCertificate

/-- What holds of the records of key certificates. -/
structure Invariants (record : Record) : Prop where
  version : record.Holds "version" (.integer (.between 3 3))
  fingerprint : record.Holds "fingerprint" (.digest 40)
  place :
    (record.Holds "address" .address ∧ record.Holds "dir_port" (.integer (.between 0 65535))) ∨
      (record.IsAbsent "address" ∧ record.IsAbsent "dir_port")

theorem invariants (member : grammar ∈ Registry.standard) (family : grammar ∈ grammars)
    (acceptance : grammar.Acceptance tokens record) : Invariants record := by
  have fit : Fit shapes grammar.rules := fit_of_mem family
  have required : ∀ grammar ∈ grammars,
      ∀ entry ∈ [("dir-key-certificate-version", "version"), ("fingerprint", "fingerprint")],
        entry.1.toList ∈ grammar.constraints.exactlyOnce ∧
          grammar.Writes entry.1.toList entry.2 := by decide
  have ofAddress : ∀ grammar ∈ grammars, ∀ field ∈ ["address", "dir_port"],
      grammar.StartsAbsent field ∧ grammar.Writes "dir-address".toList field := by decide
  obtain ⟨addressAbsent, writesAddress⟩ := ofAddress grammar family "address" (by decide)
  obtain ⟨portAbsent, writesPort⟩ := ofAddress grammar family "dir_port" (by decide)
  constructor
  · obtain ⟨required, writes⟩ :=
      required grammar family ("dir-key-certificate-version", "version") (by decide)
    exact acceptance.holds_of_required member fit rfl writes required
  · obtain ⟨required, writes⟩ :=
      required grammar family ("fingerprint", "fingerprint") (by decide)
    exact acceptance.holds_of_required member fit rfl writes required
  · rcases Nat.eq_zero_or_pos (occurrences "dir-address".toList tokens) with missing | occurs
    · exact .inr ⟨acceptance.isAbsent_of_missing member addressAbsent writesAddress missing,
        acceptance.isAbsent_of_missing member portAbsent writesPort missing⟩
    · exact .inl ⟨acceptance.holds member fit rfl writesAddress occurs,
        acceptance.holds member fit rfl writesPort occurs⟩

end KeyCertificate

namespace DirSource

variable {lines : List AuthorityLine} {sources : List DirSource}

/-- Without lines for digests of votes no section has one. -/
theorem voteDigest_of_sections (bare : ∀ line ∈ lines, line.IsBare)
    (plain : ∀ line ∈ lines, line.voteDigest? = none) (grouped : sections lines = .ok sources) :
    ∀ source ∈ sources, source.voteDigest = none := by
  obtain ⟨parts, rfl, each⟩ := exists_parts_of_sections grouped
  clear grouped
  induction each with
  | nil => simp
  | @cons part source parts sources holds _ induction =>
      rw [List.flatten_cons] at bare plain
      have none : part.filterMap AuthorityLine.voteDigest? = [] :=
        List.filterMap_eq_nil_iff.mpr fun line among => plain line (List.mem_append_left _ among)
      have given := (holds.given fun line among => bare line (List.mem_append_left _ among)).2
      rw [none] at given
      have later := induction (fun line among => bare line (List.mem_append_right _ among))
        fun line among => plain line (List.mem_append_right _ among)
      exact List.forall_mem_cons.mpr ⟨Option.toList_eq_nil_iff.mp given.symm, later⟩

end DirSource

namespace NetworkStatus

/-- What holds of the records of network statuses that have a status. -/
structure Invariants (status : String) (record : Record) : Prop where
  version : record.Holds "version" (.integer (.between 3 3))
  status : record.Holds "vote_status" (.word status.toList)
  footer : record.IsSet "bandwidth_weights" → record.Holds "has_footer" .mark

/-- What holds of the records of consensuses. -/
structure ConsensusInvariants (record : Record) : Prop extends Invariants "consensus" record where
  method : record.Holds "consensus_method" (.integer (.atLeast 1))
  noMethods : record.IsAbsent "consensus_methods"
  unpublished : record.IsAbsent "published_millis"

/-- What holds of the records of votes. -/
structure VoteInvariants (record : Record) : Prop extends Invariants "vote" record where
  methods : record.Holds "consensus_methods" (.list 1 (.integer (.atLeast 1)))
  published : record.Holds "published_millis" (.integer .none)
  noMethod : record.IsAbsent "consensus_method"
  noVoteDigests : ∃ sources : List DirSource,
    record.find? sectionsField = some (.list (sources.map .source)) ∧
      ∀ source ∈ sources, source.voteDigest = none

variable {status : String} {voteDigests : Bool}

theorem invariants (member : grammar ∈ Registry.standard) (family : grammar ∈ grammars)
    (fit : Fit (shapes status voteDigests) grammar.rules)
    (acceptance : grammar.Acceptance tokens record) : Invariants status record := by
  have required : ∀ grammar ∈ grammars,
      ∀ entry ∈ [("network-status-version", "version"), ("vote-status", "vote_status")],
        entry.1.toList ∈ grammar.constraints.exactlyOnce ∧
          grammar.Writes entry.1.toList entry.2 := by decide
  have depends : ∀ grammar ∈ grammars,
      ("bandwidth-weights".toList, "directory-footer".toList) ∈ grammar.constraints.dependsOn ∧
        grammar.StartsAbsent "bandwidth_weights" ∧
          grammar.Writes "bandwidth-weights".toList "bandwidth_weights" ∧
            grammar.Writes "directory-footer".toList "has_footer" := by decide
  constructor
  · obtain ⟨required, writes⟩ :=
      required grammar family ("network-status-version", "version") (by decide)
    exact acceptance.holds_of_required member fit rfl writes required
  · obtain ⟨required, writes⟩ :=
      required grammar family ("vote-status", "vote_status") (by decide)
    exact acceptance.holds_of_required member fit rfl writes required
  · intro weighted
    obtain ⟨needs, initial, writes, footer⟩ := depends grammar family
    exact acceptance.holds member fit rfl footer
      (acceptance.occurs_of_dependsOn needs
        (acceptance.occurs_of_isSet member initial writes weighted))

theorem consensusInvariants (member : grammar ∈ Registry.standard)
    (family : grammar ∈ grammars) (decided : grammar.kind ≠ .vote)
    (acceptance : grammar.Acceptance tokens record) : ConsensusInvariants record := by
  have rules : ∀ grammar ∈ grammars, grammar.kind ≠ .vote → grammar.rules = consensusRules := by
    simp [grammars, consensusGrammar, voteGrammar]
  have fit : Fit (shapes "consensus" true) grammar.rules := by
    rw [rules grammar family decided]
    exact fit_consensusRules
  have required : ∀ grammar ∈ grammars, grammar.kind ≠ .vote →
      "consensus-method".toList ∈ grammar.constraints.exactlyOnce ∧
        grammar.Writes "consensus-method".toList "consensus_method" := by decide
  have unwritten : ∀ grammar ∈ grammars, grammar.kind ≠ .vote →
      ∀ field ∈ ["consensus_methods", "published_millis"],
        grammar.StartsAbsent field ∧ ∀ rule ∈ grammar.rules, field ∉ rule.decoder.fields := by
    decide
  refine ⟨invariants member family fit acceptance, ?_, ?_, ?_⟩
  · obtain ⟨required, writes⟩ := required grammar family decided
    exact acceptance.holds_of_required member fit rfl writes required
  · obtain ⟨initial, never⟩ := unwritten grammar family decided "consensus_methods" (by decide)
    exact (acceptance.find?_of_unwritten member (by decide) never).trans initial
  · obtain ⟨initial, never⟩ := unwritten grammar family decided "published_millis" (by decide)
    exact (acceptance.find?_of_unwritten member (by decide) never).trans initial

/-- The sections of the record are made up of the lines of authority sections. -/
theorem exists_sections (member : grammar ∈ Registry.standard) (family : grammar ∈ grammars)
    (acceptance : grammar.Acceptance tokens record) :
    ∃ sources, DirSource.sections ((tokens.filterMap (grammar.valueOf? authorityLines)).filterMap
        Value.authorityLine?) = .ok sources ∧
      record.find? sectionsField = some (.list (sources.map .source)) := by
  have tables : ∀ grammar ∈ grammars,
      (∀ rule ∈ grammar.rules, authorityLines ∈ rule.decoder.fields → rule.repeated = true) ∧
        ∀ rule ∈ grammar.rules, sectionsField ∉ rule.decoder.fields := by decide
  obtain ⟨adding, unwritten⟩ := tables grammar family
  obtain ⟨fields, digests, _, decoded, built⟩ := acceptance
  obtain ⟨arranged, result, rfl⟩ := Schema.exists_arranged_of_build built
  have collected : OrderedMap.find? authorityLines (digests.write fields) =
      Fields.listed (tokens.filterMap (grammar.valueOf? authorityLines)) :=
    (Digests.find?_write_of_ne (by decide) (by decide)).trans
      (Grammar.find?_decodeTokens_adding (Registry.isOrderly_of_mem_standard member) adding
        decoded)
  have ungrouped : OrderedMap.find? sectionsField (digests.write fields) = none := by
    rw [Digests.find?_write_of_ne (by decide) (by decide), OrderedMap.find?_eq_none_iff]
    intro inside
    have collected :=
      Grammar.collects_of_decodeTokens (Registry.areUniform_of_mem_standard member) decoded
    obtain ⟨rule, among, own⟩ := collected.written _ inside
    exact unwritten rule among own
  rw [schema_of_mem family] at result ⊢
  replace result : arrange _ = .ok arranged := result
  rw [arrange, collected] at result
  rw [Schema.find?_fill]
  generalize tokens.filterMap (grammar.valueOf? authorityLines) = values at result ⊢
  cases values with
  | nil =>
      -- Without such lines nothing is grouped, and the field keeps its initial empty list.
      cases result
      refine ⟨[], rfl, ?_⟩
      rw [ungrouped]
      rfl
  | cons value values =>
      obtain ⟨sources, grouped, same⟩ := bind_eq_ok_iff.mp result
      cases same
      refine ⟨sources, grouped, ?_⟩
      rw [Fields.write, OrderedMap.find?_insert_self]
      rfl

theorem voteInvariants (member : grammar ∈ Registry.standard)
    (family : grammar ∈ grammars) (votes : grammar.kind = .vote)
    (acceptance : grammar.Acceptance tokens record) : VoteInvariants record := by
  have rules : ∀ grammar ∈ grammars, grammar.kind = .vote → grammar.rules = voteRules := by
    simp [grammars, consensusGrammar, voteGrammar]
  have fit : Fit (shapes "vote" false) grammar.rules := by
    rw [rules grammar family votes]
    exact fit_voteRules
  have required : ∀ grammar ∈ grammars, grammar.kind = .vote →
      ∀ entry ∈ [("consensus-methods", "consensus_methods"), ("published", "published_millis")],
        entry.1.toList ∈ grammar.constraints.exactlyOnce ∧
          grammar.Writes entry.1.toList entry.2 := by decide
  have unwritten : ∀ grammar ∈ grammars, grammar.kind = .vote →
      grammar.StartsAbsent "consensus_method" ∧
        ∀ rule ∈ grammar.rules, "consensus_method" ∉ rule.decoder.fields := by decide
  refine ⟨invariants member family fit acceptance, ?_, ?_, ?_, ?_⟩
  · obtain ⟨required, writes⟩ :=
      required grammar family votes ("consensus-methods", "consensus_methods") (by decide)
    exact acceptance.holds_of_required member fit rfl writes required
  · obtain ⟨required, writes⟩ :=
      required grammar family votes ("published", "published_millis") (by decide)
    exact acceptance.holds_of_required member fit rfl writes required
  · obtain ⟨initial, never⟩ := unwritten grammar family votes
    exact (acceptance.find?_of_unwritten member (by decide) never).trans initial
  · obtain ⟨sources, grouped, found⟩ := exists_sections member family acceptance
    -- A digest of a vote would have to come from a line, and no rule of votes reads one.
    have read : ∀ line ∈ (tokens.filterMap (grammar.valueOf? authorityLines)).filterMap
        Value.authorityLine?, line.IsBare ∧ line.voteDigest? = none := by
      intro line inside
      obtain ⟨value, among, same⟩ := List.mem_filterMap.mp inside
      obtain ⟨token, _, given⟩ := List.mem_filterMap.mp among
      have holds := Grammar.holds_of_valueOf? (Registry.isOrderly_of_mem_standard member) fit
        authorityLines_declared given
      cases holds with
      | authorityLine bare plain =>
          cases same
          exact ⟨bare, plain rfl⟩
    exact ⟨sources, found, DirSource.voteDigest_of_sections (fun line inside => (read line inside).1)
      (fun line inside => (read line inside).2) grouped⟩

end NetworkStatus

namespace Document

/-- The invariants of the kind of a document hold of its record. -/
def MeetsInvariants (document : Document) : Prop :=
  match document.kind with
  | .serverDescriptor | .bridgeServerDescriptor => Server.Invariants document.record
  | .extraInfo | .bridgeExtraInfo => ExtraInfo.Invariants document.record
  | .consensus | .microdescConsensus => NetworkStatus.ConsensusInvariants document.record
  | .vote => NetworkStatus.VoteInvariants document.record
  | .keyCertificate => KeyCertificate.Invariants document.record
  | _ => True

variable {blob : Blob} {range : ByteRange} {strict : Bool} {origin : Option Text}
  {document : Document}

theorem meetsInvariants_of_parse (member : grammar ∈ Registry.standard)
    (parsed : parse blob range grammar strict origin = .ok document) :
    document.MeetsInvariants := by
  obtain ⟨acceptance⟩ := exists_acceptance_of_parse parsed
  have kinds : document.kind = grammar.kind := by
    obtain ⟨checked, record, rfl⟩ := eq_assembled_of_parse parsed
    rfl
  have families := member
  simp only [Registry.standard, List.mem_append] at families
  rw [MeetsInvariants, kinds]
  rcases families with (((status | server) | extra) | micro) | certificate
  · have each : ∀ grammar ∈ NetworkStatus.grammars, grammar.kind = .consensus ∨
        grammar.kind = .microdescConsensus ∨ grammar.kind = .vote := by decide
    rcases each grammar status with same | same | same
    · rw [same]
      exact NetworkStatus.consensusInvariants member status (by simp [same]) acceptance
    · rw [same]
      exact NetworkStatus.consensusInvariants member status (by simp [same]) acceptance
    · rw [same]
      exact NetworkStatus.voteInvariants member status same acceptance
  · have each : ∀ grammar ∈ Server.grammars, grammar.kind = .serverDescriptor ∨
        grammar.kind = .bridgeServerDescriptor := by decide
    rcases each grammar server with same | same
    · rw [same]
      exact Server.invariants member server acceptance
    · rw [same]
      exact Server.invariants member server acceptance
  · have each : ∀ grammar ∈ ExtraInfo.grammars, grammar.kind = .extraInfo ∨
        grammar.kind = .bridgeExtraInfo := by decide
    rcases each grammar extra with same | same
    · rw [same]
      exact ExtraInfo.invariants member extra acceptance
    · rw [same]
      exact ExtraInfo.invariants member extra acceptance
  · cases List.mem_singleton.mp micro
    trivial
  · cases List.mem_singleton.mp certificate
    exact KeyCertificate.invariants member certificate acceptance

end Document

namespace Reading

open Document (parse ranges rangesFrom_of_ended rangesFrom_of_found wholeRange)

variable {reading : Reading} {document : Document}

theorem exists_parse_of_mem_steps (member : .ok (.parsed document) ∈ reading.steps) :
    ∃ grammar ∈ Registry.standard, ∃ range,
      parse reading.blob range grammar reading.strict none = .ok document := by
  cases detected : reading.blob.detect reading.hint reading.window with
  | error rejection =>
      rw [steps_of_undetected detected, List.mem_singleton] at member
      cases member
  | ok kind =>
      cases found : grammarOf kind with
      | error rejection =>
          rw [steps_of_unsupported detected found, List.mem_singleton] at member
          cases member
      | ok grammar =>
          have standard := (grammarOf_eq_ok found).2
          obtain ⟨ranges, cut⟩ :=
            exists_documentRanges (Registry.isSound_of_mem_standard standard) reading.blob
          rw [steps_of_documents detected found cut] at member
          obtain ⟨range, _, result⟩ := mem_untilInterrupted member
          refine ⟨grammar, standard, range, ?_⟩
          rw [attempt] at result
          split at result
          next parsed =>
            cases result
            exact parsed
          next => cases result
          next => cases result

/-- Every document that a reading comes to, or returns, meets the invariants of its kind. -/
theorem meetsInvariants_of_reading (reading : Reading) :
    (∀ document, .ok (.parsed document) ∈ reading.steps → document.MeetsInvariants) ∧
    ∀ results, reading.outcomes = .ok results →
      ∀ document, .parsed document ∈ results → document.MeetsInvariants := by
  have each : ∀ document, .ok (.parsed document) ∈ reading.steps → document.MeetsInvariants := by
    intro document member
    obtain ⟨grammar, standard, range, parsed⟩ := exists_parse_of_mem_steps member
    exact Document.meetsInvariants_of_parse standard parsed
  refine ⟨each, ?_⟩
  intro results complete document member
  apply each
  rw [steps_of_outcomes complete]
  exact List.mem_map_of_mem member

theorem meetsInvariants_of_reading_entryIps :
    let bytes := ("extra-info a 0000000000000000000000000000000000000000\n" ++
      "published 2012-02-10 18:32:51\nentry-ips de=8\n" ++
      "entry-stats-end 2012-02-10 18:32:51 (86400 s)\n").toList.map Ascii.byte
    let reading := Reading.of ⟨bytes, none⟩ none (some (.known .extraInfo)) none none
    ∃ document, reading.outcomes = .ok [.parsed document] ∧
      ExtraInfo.Invariants document.record := by
  intro bytes reading
  let grammar := ExtraInfo.grammar .extraInfo "Relay extra-info descriptor"
  have detected : reading.blob.detect reading.hint reading.window = .ok .extraInfo := rfl
  have found : grammarOf .extraInfo = .ok grammar := rfl
  have ascii : ∀ c ∈ "extra-info".toList, Ascii.isAscii c = true :=
    List.all_eq_true.mp (by decide)
  have cut : reading.blob.documentRanges "extra-info".toList = .ok [wholeRange bytes] := by
    refine Blob.documentRanges_of_isAscii ascii _ ?_
    rw [ranges, rangesFrom_of_found (wholeRange bytes) (by decide +kernel) (by decide +kernel)
      (by decide +kernel), rangesFrom_of_ended (by decide +kernel)]
    rfl
  have accepted : (parse reading.blob (wholeRange bytes) grammar false none).isOk = true := by
    decide +kernel
  obtain ⟨document, parsed⟩ := exists_of_isOk accepted
  have attempted : reading.attempt grammar (wholeRange bytes) = .ok (.parsed document) := by
    rw [attempt, show parse reading.blob _ grammar reading.strict none = _ from parsed]
  have steps : reading.steps = [.ok (.parsed document)] := by
    rw [steps_of_documents detected found cut, untilInterrupted, attempted]
    rfl
  have complete : reading.outcomes = .ok [.parsed document] := by
    rw [outcomes, steps]
    rfl
  have meets := (meetsInvariants_of_reading reading).2 _ complete document List.mem_cons_self
  have kinds : document.kind = .extraInfo := by
    obtain ⟨checked, record, rfl⟩ := Document.eq_assembled_of_parse parsed
    rfl
  rw [Document.MeetsInvariants, kinds] at meets
  exact ⟨document, complete, meets⟩

end Reading

end RelayDescriptor
