import RelayDescriptor.Grammar.Registry
import RelayDescriptor.Proofs.Record.Shapes

/-!
# Declared shapes

The shapes of the fields of each grammar.  No line of a document can give a field a value
of another shape.
-/

namespace RelayDescriptor

/-- Rules whose decoders give their fields values of the declared shapes. -/
def Fit (shapes : Shapes) (rules : List FieldRule) : Prop :=
  ∀ rule ∈ rules, rule.decoder.Fits shapes

section

variable {shapes : Shapes} {rules others : List FieldRule} {keyword : String} {decoder : Decoder}

@[simp] theorem fit_nil : Fit shapes [] := by
  intro rule member
  cases member

@[simp] theorem fit_once_cons :
    Fit shapes (.once keyword decoder :: rules) ↔ decoder.Fits shapes ∧ Fit shapes rules :=
  List.forall_mem_cons

@[simp] theorem fit_each_cons :
    Fit shapes (.each keyword decoder :: rules) ↔ decoder.Fits shapes ∧ Fit shapes rules :=
  List.forall_mem_cons

theorem Fit.append (first : Fit shapes rules) (second : Fit shapes others) :
    Fit shapes (rules ++ others) := by
  intro rule member
  rcases List.mem_append.mp member with here | there
  · exact first rule here
  · exact second rule there

end

namespace Server

/-- The shapes of the fields of server descriptors. -/
def shapes : Shapes :=
  [
    ("nickname", .nickname), ("address", .address),
    ("or_port", .integer (.between 0 65535)), ("socks_port", .integer (.between 0 65535)),
    ("dir_port", .integer (.between 0 65535)), ("bandwidth_rate", .integer (.atLeast 0)),
    ("bandwidth_burst", .integer (.atLeast 0)), ("bandwidth_observed", .integer (.atLeast 0)),
    ("platform", .text), ("published_millis", .integer .none), ("fingerprint", .digest 40),
    ("hibernating", .flag), ("uptime", .integer (.atLeast 0)), ("contact", .text),
    ("family", .list 0 .text), ("exit_policy", .text), ("ipv6_policy", .text),
    ("or_addresses", .text), ("read_history", .history), ("write_history", .history),
    ("extra_info_digest", .digest 40), ("hidden_service_dir", .mark),
    ("caches_extra_info", .mark), ("allow_single_hop_exits", .mark),
    ("tunnelled_dir_server", .mark), ("uses_enhanced_dns_logic", .flag), ("protocols", .text),
    ("proto", .text), ("ntor_onion_key", .text), ("master_key_ed25519", .text),
    ("router_sig_ed25519", .text), ("bridge_distribution_request", .text)
  ]

theorem fits_router : router.Fits shapes := by
  intro token values decoded
  obtain ⟨_, _, decoded⟩ := bind_eq_ok_iff.mp decoded
  obtain ⟨nickname, name, decoded⟩ := bind_eq_ok_iff.mp decoded
  obtain ⟨address, place, decoded⟩ := bind_eq_ok_iff.mp decoded
  obtain ⟨orPort, first, decoded⟩ := bind_eq_ok_iff.mp decoded
  obtain ⟨socksPort, second, decoded⟩ := bind_eq_ok_iff.mp decoded
  obtain ⟨dirPort, third, decoded⟩ := bind_eq_ok_iff.mp decoded
  cases decoded
  exact .cons ⟨_, rfl, .nickname (isNickname_of_nickname name)⟩
    (.cons ⟨_, rfl, .address (isDottedQuad_of_address place)⟩
      (.cons ⟨_, rfl, .integer (admits_of_integer first)⟩
        (.cons ⟨_, rfl, .integer (admits_of_integer second)⟩
          (.cons ⟨_, rfl, .integer (admits_of_integer third)⟩ .nil))))

theorem fits_bandwidth : bandwidth.Fits shapes := by
  intro token values decoded
  obtain ⟨_, _, decoded⟩ := bind_eq_ok_iff.mp decoded
  obtain ⟨rate, first, decoded⟩ := bind_eq_ok_iff.mp decoded
  obtain ⟨burst, second, decoded⟩ := bind_eq_ok_iff.mp decoded
  obtain ⟨observed, third, decoded⟩ := bind_eq_ok_iff.mp decoded
  cases decoded
  exact .cons ⟨_, rfl, .integer (admits_of_integer first)⟩
    (.cons ⟨_, rfl, .integer (admits_of_integer second)⟩
      (.cons ⟨_, rfl, .integer (admits_of_integer third)⟩ .nil))

theorem fits_fingerprint : fingerprint.Fits shapes := by
  have declared : OrderedMap.find? "fingerprint" shapes = some (.digest 40) := rfl
  apply Decoder.fits_ofToken declared
  intro token value decoded
  obtain ⟨_, _, decoded⟩ := bind_eq_ok_iff.mp decoded
  obtain ⟨_, _, decoded⟩ := bind_eq_ok_iff.mp decoded
  obtain ⟨digest, read, decoded⟩ := bind_eq_ok_iff.mp decoded
  cases decoded
  exact .digest (isUpperHex_of_hexDigest read)

theorem fits_zeroOrOne {field : String}
    (declared : OrderedMap.find? field shapes = some .flag) : (zeroOrOne field).Fits shapes := by
  apply Decoder.fits_ofArgument declared
  intro line argument value decoded
  obtain ⟨n, _, rfl⟩ := map_eq_ok_iff.mp decoded
  exact .flag _

theorem fits_policyLine : policyLine.Fits shapes := by
  have declared : OrderedMap.find? "exit_policy" shapes = some .text := rfl
  apply Decoder.fits_ofToken declared
  intro token value decoded
  obtain ⟨_, _, decoded⟩ := bind_eq_ok_iff.mp decoded
  cases decoded
  exact .text _

theorem fits_extraInfoDigest : extraInfoDigest.Fits shapes := by
  have declared : OrderedMap.find? "extra_info_digest" shapes = some (.digest 40) := rfl
  apply Decoder.fits_ofToken declared
  intro token value decoded
  obtain ⟨_, _, decoded⟩ := bind_eq_ok_iff.mp decoded
  obtain ⟨digest, read, decoded⟩ := bind_eq_ok_iff.mp decoded
  cases decoded
  exact .digest (isUpperHex_of_hexDigest read)

theorem fit_rules : Fit shapes rules := by
  simp (disch := decide) [rules, fits_router, fits_bandwidth, fits_fingerprint, fits_zeroOrOne,
    fits_policyLine, fits_extraInfoDigest]

theorem fit_of_mem {grammar : Grammar} (family : grammar ∈ grammars) :
    Fit shapes grammar.rules := by
  have all : ∀ grammar ∈ grammars, grammar.rules = rules := by simp [grammars, Server.grammar]
  rw [all grammar family]
  exact fit_rules

end Server

namespace ExtraInfo

/-- The shapes of the fields of extra-info descriptors. -/
def shapes : Shapes :=
  [
    ("nickname", .nickname), ("fingerprint", .digest 40), ("published_millis", .integer .none),
    ("read_history", .history), ("write_history", .history), ("dirreq_read_history", .history),
    ("dirreq_write_history", .history), ("geoip_db_digest", .digest 40),
    ("geoip_start_time_millis", .integer .none), ("geoip_client_origins", .counts),
    ("dirreq_stats_end", .interval), ("dirreq_v2_ips", .counts), ("dirreq_v3_ips", .counts),
    ("dirreq_v2_reqs", .counts), ("dirreq_v3_reqs", .counts), ("dirreq_v2_share", .real),
    ("dirreq_v3_share", .real), ("dirreq_v2_resp", .counts), ("dirreq_v3_resp", .counts),
    ("dirreq_v2_direct_dl", .counts), ("dirreq_v3_direct_dl", .counts),
    ("dirreq_v2_tunneled_dl", .counts), ("dirreq_v3_tunneled_dl", .counts),
    ("entry_stats_end", .interval), ("entry_ips", .counts), ("cell_stats_end", .interval),
    ("cell_processed_cells", .list 0 (.integer .none)), ("cell_queued_cells", .list 0 .real),
    ("cell_time_in_queue", .list 0 (.integer .none)),
    ("cell_circuits_per_decile", .integer (.atLeast 0)),
    ("conn_bi_direct_stats_end", .interval), ("conn_bi_direct_below", .integer .none),
    ("conn_bi_direct_read", .integer .none), ("conn_bi_direct_write", .integer .none),
    ("conn_bi_direct_both", .integer .none), ("exit_stats_end", .interval),
    ("exit_kibibytes_written", .counts), ("exit_kibibytes_read", .counts),
    ("exit_streams_opened", .counts), ("bridge_stats_end", .interval), ("bridge_ips", .counts)
  ]

theorem fits_relay : relay.Fits shapes := by
  intro token values decoded
  obtain ⟨_, _, decoded⟩ := bind_eq_ok_iff.mp decoded
  obtain ⟨nickname, name, decoded⟩ := bind_eq_ok_iff.mp decoded
  obtain ⟨fingerprint, digest, decoded⟩ := bind_eq_ok_iff.mp decoded
  cases decoded
  exact .cons ⟨_, rfl, .nickname (isNickname_of_nickname name)⟩
    (.cons ⟨_, rfl, .digest (isUpperHex_of_hexDigest digest)⟩ .nil)

theorem fits_connections : connections.Fits shapes := by
  intro token values decoded
  obtain ⟨_, _, decoded⟩ := bind_eq_ok_iff.mp decoded
  obtain ⟨statsEnd, _, decoded⟩ := bind_eq_ok_iff.mp decoded
  obtain ⟨counts, _, decoded⟩ := bind_eq_ok_iff.mp decoded
  split at decoded
  next below read write both _ =>
    cases decoded
    exact .cons ⟨_, rfl, .interval statsEnd⟩
      (.cons ⟨_, rfl, Shape.holds_unbounded below⟩
        (.cons ⟨_, rfl, Shape.holds_unbounded read⟩
          (.cons ⟨_, rfl, Shape.holds_unbounded write⟩
            (.cons ⟨_, rfl, Shape.holds_unbounded both⟩ .nil))))
  next => cases decoded

theorem fit_rules : Fit shapes rules := by
  simp (disch := decide) [rules, fits_relay, fits_connections]

theorem fit_of_mem {grammar : Grammar} (family : grammar ∈ grammars) :
    Fit shapes grammar.rules := by
  have all : ∀ grammar ∈ grammars, grammar.rules = rules := by simp [grammars, ExtraInfo.grammar]
  rw [all grammar family]
  exact fit_rules

end ExtraInfo

namespace KeyCertificate

/-- The shapes of the fields of key certificates. -/
def shapes : Shapes :=
  [
    ("version", .integer (.between 3 3)), ("address", .address),
    ("dir_port", .integer (.between 0 65535)), ("fingerprint", .digest 40),
    ("published_millis", .integer .none), ("expires_millis", .integer .none)
  ]

theorem fits_version : version.Fits shapes := by
  have declared : OrderedMap.find? "version" shapes = some (.integer (.between 3 3)) := rfl
  apply Decoder.fits_ofArgument declared
  intro line argument value decoded
  obtain ⟨n, _, decoded⟩ := bind_eq_ok_iff.mp decoded
  split at decoded
  next three =>
    cases decoded
    subst three
    exact .integer (Bounds.between_admits (Int.le_refl 3) (Int.le_refl 3))
  next => cases decoded

theorem fits_dirAddress : dirAddress.Fits shapes := by
  intro token values decoded
  obtain ⟨_, _, decoded⟩ := bind_eq_ok_iff.mp decoded
  split at decoded
  next => cases decoded
  next host number _ =>
    obtain ⟨host, place, decoded⟩ := bind_eq_ok_iff.mp decoded
    obtain ⟨number, port, decoded⟩ := bind_eq_ok_iff.mp decoded
    cases decoded
    exact .cons ⟨_, rfl, .address (isDottedQuad_of_address place)⟩
      (.cons ⟨_, rfl, .integer (admits_of_integer port)⟩ .nil)

theorem fit_rules : Fit shapes rules := by
  simp (disch := decide) [rules, fits_version, fits_dirAddress]

theorem fit_of_mem {grammar : Grammar} (family : grammar ∈ grammars) :
    Fit shapes grammar.rules := by
  have all : ∀ grammar ∈ grammars, grammar.rules = rules := by simp [grammars]
  rw [all grammar family]
  exact fit_rules

end KeyCertificate

namespace Microdescriptor

/-- The shapes of the fields of microdescriptors. -/
def shapes : Shapes :=
  [
    ("ntor_onion_key", .text), ("or_addresses", .text), ("family", .list 0 .text),
    ("default_policy", .text), ("port_list", .text), ("ipv6_default_policy", .text),
    ("ipv6_port_list", .text), ("identities", .list 2 .text)
  ]

theorem fits_policySummary {policyField portsField : String}
    (policyDeclared : OrderedMap.find? policyField shapes = some .text)
    (portsDeclared : OrderedMap.find? portsField shapes = some .text) :
    (policySummary policyField portsField).Fits shapes := by
  intro token values decoded
  obtain ⟨_, _, decoded⟩ := bind_eq_ok_iff.mp decoded
  dsimp only at decoded
  split at decoded
  next =>
    cases decoded
    exact .cons ⟨_, policyDeclared, .text _⟩ (.cons ⟨_, portsDeclared, .text _⟩ .nil)
  next => cases decoded

theorem fits_identity : identity.Fits shapes := by
  have declared : OrderedMap.find? "identities" shapes = some (.list 2 .text) := rfl
  apply Decoder.fits_ofToken declared
  intro token value decoded
  obtain ⟨_, _, decoded⟩ := bind_eq_ok_iff.mp decoded
  cases decoded
  exact Shape.holds_texts (Nat.le_refl 2)

theorem fit_rules : Fit shapes rules := by
  simp (disch := decide) [rules, fits_policySummary, fits_identity]

end Microdescriptor

namespace NetworkStatus

/-- The shapes of the fields of network statuses, whose kind prescribes a status and says whether
authorities come with digests of their votes. -/
def shapes (status : String) (voteDigests : Bool) : Shapes :=
  [
    ("version", .integer (.between 3 3)), ("flavor", .optionalText),
    ("vote_status", .word status.toList), ("consensus_method", .integer (.atLeast 1)),
    ("consensus_methods", .list 1 (.integer (.atLeast 1))), ("published_millis", .integer .none),
    ("valid_after_millis", .integer .none), ("fresh_until_millis", .integer .none),
    ("valid_until_millis", .integer .none), ("vote_seconds", .integer (.atLeast 0)),
    ("dist_seconds", .integer (.atLeast 0)), ("client_versions", .list 0 .text),
    ("server_versions", .list 0 .text), ("known_flags", .list 0 .text), ("params", .counts),
    (authorityLines, .authorityLine voteDigests), ("entries", .entry), ("has_footer", .mark),
    ("bandwidth_weights", .counts), ("signatures", .digest 40)
  ]

variable {status : String} {voteDigests : Bool}

theorem fits_version : version.Fits (shapes status voteDigests) := by
  have number : ∀ (token : Token) (values : List Value), (do
      let n ← integer .none token.line (token.argument 0)
      if n = 3 then return [Value.integer n, Value.ofText? token.arguments[1]?]
      else
        Except.error (Fault.value token.line (token.argument 0) "network status version 3")) =
          .ok values →
      List.Forall₂ (shapes status voteDigests).Permit version.fields values := by
    intro token values decoded
    obtain ⟨n, _, decoded⟩ := bind_eq_ok_iff.mp decoded
    split at decoded
    next three =>
      cases decoded
      subst three
      exact .cons ⟨_, rfl, .integer (Bounds.between_admits (Int.le_refl 3) (Int.le_refl 3))⟩
        (.cons ⟨_, rfl, Shape.holds_ofText? _⟩ .nil)
    next => cases decoded
  intro token values decoded
  obtain ⟨_, _, decoded⟩ := bind_eq_ok_iff.mp decoded
  split at decoded
  next =>
    obtain ⟨_, _, decoded⟩ := bind_eq_ok_iff.mp decoded
    exact number token values decoded
  next => exact number token values decoded

theorem fits_voteStatus : (voteStatus status).Fits (shapes status voteDigests) := by
  have declared : OrderedMap.find? "vote_status" (shapes status voteDigests) =
    some (.word status.toList) := rfl
  apply Decoder.fits_ofArgument declared
  intro line argument value decoded
  split at decoded
  next same =>
    cases decoded
    rw [same]
    exact .word _
  next => cases decoded

theorem fits_consensusMethods : consensusMethods.Fits (shapes status voteDigests) := by
  have declared : OrderedMap.find? "consensus_methods" (shapes status voteDigests) =
    some (.list 1 (.integer (.atLeast 1))) := rfl
  apply Decoder.fits_ofToken declared
  intro token value decoded
  obtain ⟨_, counted, decoded⟩ := bind_eq_ok_iff.mp decoded
  obtain ⟨methods, read, decoded⟩ := bind_eq_ok_iff.mp decoded
  cases decoded
  apply Shape.Holds.row
  · rw [List.length_map, ← (mapM_eq_ok_iff.mp read).length_eq]
    exact Token.le_length_of_expectAtLeast counted
  · apply Shape.holds_of_mem_map_integer
    intro n member
    obtain ⟨argument, _, read⟩ := exists_source_of_mapM_eq_ok read member
    exact admits_of_integer read

theorem fits_votingDelay : votingDelay.Fits (shapes status voteDigests) := by
  intro token values decoded
  obtain ⟨_, _, decoded⟩ := bind_eq_ok_iff.mp decoded
  obtain ⟨vote, first, decoded⟩ := bind_eq_ok_iff.mp decoded
  obtain ⟨dist, second, decoded⟩ := bind_eq_ok_iff.mp decoded
  cases decoded
  exact .cons ⟨_, rfl, .integer (admits_of_integer first)⟩
    (.cons ⟨_, rfl, .integer (admits_of_integer second)⟩ .nil)

theorem fits_versions {field : String}
    (declared : OrderedMap.find? field (shapes status voteDigests) = some (.list 0 .text)) :
    (versions field).Fits (shapes status voteDigests) := by
  apply Decoder.fits_ofToken declared
  intro token value decoded
  split at decoded
  next =>
    cases decoded
    exact Shape.holds_texts (Nat.zero_le _)
  next =>
    obtain ⟨_, _, decoded⟩ := bind_eq_ok_iff.mp decoded
    cases decoded
    exact Shape.holds_texts (Nat.zero_le _)

theorem authorityLines_declared :
    OrderedMap.find? authorityLines (shapes status voteDigests) =
      some (.authorityLine voteDigests) := rfl

theorem fits_dirSource : dirSource.Fits (shapes status voteDigests) := by
  apply Decoder.fits_ofToken authorityLines_declared
  intro token value decoded
  obtain ⟨_, _, decoded⟩ := bind_eq_ok_iff.mp decoded
  obtain ⟨identity, _, decoded⟩ := bind_eq_ok_iff.mp decoded
  obtain ⟨address, _, decoded⟩ := bind_eq_ok_iff.mp decoded
  obtain ⟨dirPort, _, decoded⟩ := bind_eq_ok_iff.mp decoded
  obtain ⟨orPort, _, decoded⟩ := bind_eq_ok_iff.mp decoded
  cases decoded
  refine .authorityLine ?_ fun _ => rfl
  rintro source ⟨⟩
  exact ⟨rfl, rfl⟩

theorem fits_contact : contact.Fits (shapes status voteDigests) := by
  apply Decoder.fits_ofToken authorityLines_declared
  intro token value decoded
  cases decoded
  exact .authorityLine (by rintro _ ⟨⟩) fun _ => rfl

theorem fits_voteDigest : voteDigest.Fits (shapes status true) := by
  apply Decoder.fits_ofToken authorityLines_declared
  intro token value decoded
  obtain ⟨_, _, decoded⟩ := bind_eq_ok_iff.mp decoded
  obtain ⟨digest, _, decoded⟩ := bind_eq_ok_iff.mp decoded
  cases decoded
  exact .authorityLine (by rintro _ ⟨⟩) (by simp)

theorem fits_entry : entry.Fits (shapes status voteDigests) := by
  have declared : OrderedMap.find? "entries" (shapes status voteDigests) = some .entry := rfl
  apply Decoder.fits_ofToken declared
  intro token value decoded
  obtain ⟨entry, _, rfl⟩ := map_eq_ok_iff.mp decoded
  exact .entry entry

theorem fits_signature : signature.Fits (shapes status voteDigests) := by
  have declared : OrderedMap.find? "signatures" (shapes status voteDigests) =
    some (.digest 40) := rfl
  apply Decoder.fits_ofToken declared
  intro token value decoded
  split at decoded
  next =>
    obtain ⟨digest, read, decoded⟩ := bind_eq_ok_iff.mp decoded
    cases decoded
    exact .digest (isUpperHex_of_hexDigest read)
  next =>
    obtain ⟨_, _, decoded⟩ := bind_eq_ok_iff.mp decoded
    obtain ⟨digest, read, decoded⟩ := bind_eq_ok_iff.mp decoded
    cases decoded
    exact .digest (isUpperHex_of_hexDigest read)

theorem fit_commonRules (status : String) (voteDigests : Bool) :
    Fit (shapes status voteDigests) (commonRules status) := by
  simp (disch := simp [shapes, authorityLines, OrderedMap.find?]) [commonRules, fits_version,
    fits_voteStatus, fits_votingDelay, fits_versions, fits_dirSource, fits_contact, fits_entry,
    fits_signature]

theorem fit_consensusRules : Fit (shapes "consensus" true) consensusRules := by
  apply (fit_commonRules "consensus" true).append
  simp (disch := simp [shapes, authorityLines, OrderedMap.find?]) [fits_voteDigest]

theorem fit_voteRules : Fit (shapes "vote" false) voteRules := by
  apply (fit_commonRules "vote" false).append
  simp (disch := simp [shapes, authorityLines, OrderedMap.find?]) [fits_consensusMethods]

end NetworkStatus

namespace Registry

/-- The rules of the grammars of the library; some kinds share theirs. -/
def ruleLists : List (List FieldRule) :=
  [
    NetworkStatus.consensusRules, NetworkStatus.voteRules, Server.rules, ExtraInfo.rules,
    Microdescriptor.rules, KeyCertificate.rules
  ]

variable {grammar : Grammar} {rules : List FieldRule}

theorem rules_of_mem_standard (member : grammar ∈ standard) : grammar.rules ∈ ruleLists := by
  have all : ∀ grammar ∈ standard, grammar.rules ∈ ruleLists := by
    simp [standard, ruleLists, NetworkStatus.grammars, Server.grammars, ExtraInfo.grammars,
      Microdescriptor.grammars, KeyCertificate.grammars, NetworkStatus.consensusGrammar,
      NetworkStatus.voteGrammar, Server.grammar, ExtraInfo.grammar]
  exact all grammar member

/-- The fields of each rule of the library have declared shapes. -/
theorem exists_fit (member : rules ∈ ruleLists) : ∃ shapes, Fit shapes rules := by
  simp only [ruleLists, List.mem_cons, List.not_mem_nil, or_false] at member
  rcases member with rfl | rfl | rfl | rfl | rfl | rfl
  · exact ⟨_, NetworkStatus.fit_consensusRules⟩
  · exact ⟨_, NetworkStatus.fit_voteRules⟩
  · exact ⟨_, Server.fit_rules⟩
  · exact ⟨_, ExtraInfo.fit_rules⟩
  · exact ⟨_, Microdescriptor.fit_rules⟩
  · exact ⟨_, KeyCertificate.fit_rules⟩

/-- The grammars of the library are orderly. -/
theorem isOrderly_of_mem_standard (member : grammar ∈ standard) : grammar.IsOrderly := by
  have keywords : ∀ rules ∈ ruleLists, (rules.map FieldRule.keyword).Nodup := by decide +kernel
  have fields : ∀ rules ∈ ruleLists, ∀ rule ∈ rules, rule.decoder.fields.Nodup := by decide
  have listed := rules_of_mem_standard member
  -- Completeness is a statement about all lines, which the shapes decide and no table can.
  obtain ⟨shapes, fit⟩ := exists_fit listed
  have uniform := areUniform_of_mem_standard member
  exact ⟨keywords _ listed, fields _ listed,
    fun rule inside => (fit rule inside).isComplete (uniform rule inside),
    keepsApart_of_mem_standard member⟩

end Registry

end RelayDescriptor
