import RelayDescriptor.Grammar.Basic

/-!
# Server descriptors

The descriptors of relays and the sanitized ones of bridges.  Accept and reject
lines make up one ordered exit policy.  Lines that introduce key material are
recognized, and the material itself lies in embedded blocks.
-/

namespace RelayDescriptor

namespace Server

/-- The decoded fields. -/
def schema : Schema where
  name := "ServerDescriptor"
  fields :=
    [
      ("nickname", .text []), ("address", .text []), ("or_port", .integer 0),
      ("socks_port", .integer 0), ("dir_port", .integer 0), ("bandwidth_rate", .integer 0),
      ("bandwidth_burst", .integer 0), ("bandwidth_observed", .integer 0),
      ("platform", .absent), ("published_millis", .integer 0), ("fingerprint", .absent),
      ("hibernating", .flag false), ("uptime", .absent), ("contact", .absent),
      ("family", .absent), ("exit_policy", .list []), ("ipv6_policy", .absent),
      ("or_addresses", .list []), ("read_history", .absent), ("write_history", .absent),
      ("extra_info_digest", .absent), ("hidden_service_dir", .flag false),
      ("caches_extra_info", .flag false), ("allow_single_hop_exits", .flag false),
      ("tunnelled_dir_server", .flag false), ("uses_enhanced_dns_logic", .flag false),
      ("protocols", .absent), ("proto", .absent), ("ntor_onion_key", .absent),
      ("master_key_ed25519", .absent), ("router_sig_ed25519", .absent),
      ("bridge_distribution_request", .absent), (digestField, .absent), (sha256Field, .absent)
    ]
  arrange := .ok

/-- The name, the address and the port numbers. -/
def router : Decoder :=
  .ofFields ["nickname", "address", "or_port", "socks_port", "dir_port"] fun token => do
    token.expectExactly 5
    let nickname ← nickname token.line (token.argument 0)
    let address ← address token.line (token.argument 1)
    let orPort ← portNumber token.line (token.argument 2)
    let socksPort ← portNumber token.line (token.argument 3)
    let dirPort ← portNumber token.line (token.argument 4)
    return [.text nickname, .text address, .integer orPort, .integer socksPort, .integer dirPort]

/-- The three bandwidths, after which anything may follow. -/
def bandwidth : Decoder :=
  .ofFields ["bandwidth_rate", "bandwidth_burst", "bandwidth_observed"] fun token => do
    token.expectAtLeast 3
    let rate ← integer (.atLeast 0) token.line (token.argument 0)
    let burst ← integer (.atLeast 0) token.line (token.argument 1)
    let observed ← integer (.atLeast 0) token.line (token.argument 2)
    return [.integer rate, .integer burst, .integer observed]

/-- A fingerprint in ten groups of four digits. -/
def fingerprint : Decoder :=
  .ofToken "fingerprint" fun token => do
    token.expectExactly 10
    token.arguments.forM fun group => discard (hexDigest 4 token.line group)
    return .text (← hexDigest fingerprintLength token.line token.arguments.flatten)

/-- A field that is set by the number one and unset by zero. -/
def zeroOrOne (field : String) : Decoder :=
  .ofArgument field fun line argument =>
    (integer (.between 0 1) line argument).map fun n => .flag (n == 1)

/-- One line of the exit policy, with its keyword. -/
def policyLine : Decoder :=
  .ofToken "exit_policy" fun token => do
    token.expectExactly 1
    return .text (token.keyword ++ ' ' :: token.argument 0)

/-- The digest of the extra-info descriptor, after which another digest may follow. -/
def extraInfoDigest : Decoder :=
  .ofToken "extra_info_digest" fun token => do
    token.expectAtLeast 1
    return .text (← hexDigest fingerprintLength token.line (token.argument 0))

/-- The meanings of the keywords. -/
def rules : List FieldRule :=
  [
    .once "router" router,
    .once "bandwidth" bandwidth,
    .once "platform" (.text "platform"),
    .once "published" (.timestamp "published_millis"),
    .once "fingerprint" fingerprint,
    .once "hibernating" (zeroOrOne "hibernating"),
    .once "uptime" (.integer "uptime" (.atLeast 0)),
    .once "contact" (.text "contact"),
    .once "family" (.arguments "family"),
    .each "accept" policyLine,
    .each "reject" policyLine,
    .once "ipv6-policy" (.text "ipv6_policy"),
    .each "or-address" (.single "or_addresses"),
    .once "read-history" (.history "read_history"),
    .once "write-history" (.history "write_history"),
    .once "extra-info-digest" extraInfoDigest,
    .once "hidden-service-dir" (.mark "hidden_service_dir"),
    .once "caches-extra-info" (.bare "caches_extra_info"),
    .once "allow-single-hop-exits" (.bare "allow_single_hop_exits"),
    .once "tunnelled-dir-server" (.bare "tunnelled_dir_server"),
    .once "eventdns" (zeroOrOne "uses_enhanced_dns_logic"),
    .once "protocols" (.text "protocols"),
    .once "proto" (.text "proto"),
    .once "ntor-onion-key" (.single "ntor_onion_key"),
    .once "master-key-ed25519" (.single "master_key_ed25519"),
    .once "router-sig-ed25519" (.single "router_sig_ed25519"),
    .once "bridge-distribution-request" (.text "bridge_distribution_request"),
    .once "onion-key" .nothing,
    .once "signing-key" .nothing,
    .once "identity-ed25519" .nothing,
    .once "router-signature" .nothing
  ]

/-- The rules on the occurrence of keywords. -/
def constraints : Constraints :=
  .of (["router", "bandwidth", "published"].map String.toList)
    (
      [
        "platform", "fingerprint", "hibernating", "uptime", "contact", "family",
        "ipv6-policy", "read-history", "write-history", "extra-info-digest",
        "hidden-service-dir", "caches-extra-info", "allow-single-hop-exits",
        "tunnelled-dir-server", "eventdns", "protocols", "proto", "ntor-onion-key",
        "master-key-ed25519", "router-sig-ed25519", "bridge-distribution-request",
        "onion-key", "signing-key", "identity-ed25519", "onion-key-crosscert",
        "ntor-onion-key-crosscert", "router-signature"
      ].map String.toList
    )
    (Constraints.dependencies
      [("identity-ed25519".toList,
        ["router-sig-ed25519", "master-key-ed25519"].map String.toList)])

/-- The grammar of a kind of server descriptors. -/
def grammar (kind : Kind) (description : String) : Grammar where
  kind
  leading := "router".toList
  constraints
  rules
  schema
  passthrough := ["onion-key-crosscert", "ntor-onion-key-crosscert"].map String.toList
  cap := none
  digestEnd := some "\nrouter-signature\n".toList
  sha256End := some "\n-----END SIGNATURE-----\n".toList
  description

/-- The grammars of this module. -/
def grammars : List Grammar :=
  [
    grammar .serverDescriptor "Relay server descriptor",
    grammar .bridgeServerDescriptor "Sanitized bridge server descriptor"
  ]

end Server

end RelayDescriptor
