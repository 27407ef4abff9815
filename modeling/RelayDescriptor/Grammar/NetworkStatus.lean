import RelayDescriptor.Grammar.KeyCertificate

/-!
# Network statuses

Consensuses, consensuses on microdescriptors, and votes.  The header and the footer
are decoded; of the entry of a router only its first line is.  A vote embeds the
certificate of its authority, whose keywords are recognized there.
-/

namespace RelayDescriptor

namespace NetworkStatus

/-- The name under which the lines of all authority sections are collected in order. -/
def authorityLines : String := "authority_lines"

/-- The field of the authority sections. -/
def sectionsField : String := "dir_sources"

/-- Groups the collected lines into authority sections. -/
def arrange (fields : Fields) : Except Violation Fields :=
  match OrderedMap.find? authorityLines fields with
  | some (.list values) => do
      let sources ← DirSource.sections (values.filterMap Value.authorityLine?)
      let others := fields.filter fun (name, _) => name ≠ authorityLines
      return Fields.write sectionsField (.list (sources.map .source)) others
  | _ => .ok fields

/-- The decoded fields. -/
def schema : Schema where
  name := "NetworkStatus"
  fields :=
    [
      ("version", .integer 3), ("flavor", .absent), ("vote_status", .text []),
      ("consensus_method", .absent), ("consensus_methods", .absent),
      ("published_millis", .absent), ("valid_after_millis", .integer 0),
      ("fresh_until_millis", .integer 0), ("valid_until_millis", .integer 0),
      ("vote_seconds", .integer 0), ("dist_seconds", .integer 0),
      ("client_versions", .absent), ("server_versions", .absent), ("known_flags", .row []),
      ("params", .absent), (sectionsField, .list []), ("entries", .list []),
      ("has_footer", .flag false), ("bandwidth_weights", .absent), ("signatures", .list [])
    ]
  arrange

/-- The version, which must be 3, and perhaps a flavor. -/
def version : Decoder :=
  .ofFields ["version", "flavor"] fun token => do
    token.expectAtLeast 1
    if 2 < token.arguments.length then token.expectExactly 2
    let n ← integer .none token.line (token.argument 0)
    if n = 3 then return [.integer n, .ofText? token.arguments[1]?]
    else .error (.value token.line (token.argument 0) "network status version 3")

/-- The status of the vote, which the kind prescribes. -/
def voteStatus (status : String) : Decoder :=
  .ofArgument "vote_status" fun line argument =>
    if argument = status.toList then .ok (.text argument)
    else .error (.value line argument s!"vote-status '{status}'")

/-- One or more methods. -/
def consensusMethods : Decoder :=
  .ofToken "consensus_methods" fun token => do
    token.expectAtLeast 1
    let methods ← token.arguments.mapM (integer (.atLeast 1) token.line)
    return .row (methods.map .integer)

/-- The seconds for voting and for distribution. -/
def votingDelay : Decoder :=
  .ofFields ["vote_seconds", "dist_seconds"] fun token => do
    token.expectExactly 2
    let vote ← integer (.atLeast 0) token.line (token.argument 0)
    let dist ← integer (.atLeast 0) token.line (token.argument 1)
    return [.integer vote, .integer dist]

/-- Versions between commas; empty ones are kept. -/
def versions (field : String) : Decoder :=
  .ofToken field fun token =>
    match token.arguments with
    | [] => .ok (Value.texts [])
    | argument :: _ => do
        token.expectExactly 1
        return Value.texts (Text.pieces ',' argument)

/-- The line of an authority section. -/
def authorityLine (token : Token) (content : AuthorityContent) : Value :=
  .authorityLine ⟨token.keyword, content, token.line⟩

/-- The line that names an authority. -/
def dirSource : Decoder :=
  .ofToken authorityLines fun token => do
    token.expectExactly 6
    let identity ← hexDigest fingerprintLength token.line (token.argument 1)
    let address ← address token.line (token.argument 3)
    let dirPort ← portNumber token.line (token.argument 4)
    let orPort ← portNumber token.line (token.argument 5)
    let source : DirSource :=
      ⟨token.argument 0, identity, token.argument 2, address, dirPort, orPort, none, none, []⟩
    return authorityLine token (.source source)

/-- The contact of an authority. -/
def contact : Decoder :=
  .ofToken authorityLines fun token => .ok (authorityLine token (.contact token.rest))

/-- The digest of the vote of an authority. -/
def voteDigest : Decoder :=
  .ofToken authorityLines fun token => do
    token.expectExactly 1
    let digest ← hexDigest fingerprintLength token.line (token.argument 0)
    return authorityLine token (.voteDigest digest)

/-- Reads the first line of the entry of a router.  Of the eight arguments the third, the digest
of its descriptor, may be left out. -/
def statusEntry (token : Token) : Except Fault StatusEntry := do
  let full := token.arguments.length = 8
  if ¬full then token.expectExactly 7
  let others := token.arguments.drop (if full then 3 else 2)
  let nickname ← nickname token.line (token.argument 0)
  let published ← timestamp token.line others 0 1
  let address ← address token.line (others[2]?.getD [])
  let orPort ← portNumber token.line (others[3]?.getD [])
  let dirPort ← portNumber token.line (others[4]?.getD [])
  let descriptor := if full then some (token.argument 2) else none
  return ⟨nickname, token.argument 1, descriptor, published, address, orPort, dirPort⟩

/-- The entry of a router. -/
def entry : Decoder := .ofToken "entries" fun token => (statusEntry token).map .entry

/-- The identity of the signer, before which the name of a digest may stand. -/
def signature : Decoder :=
  .ofToken "signatures" fun token => do
    if token.arguments.length = 3 then
      return .text (← hexDigest fingerprintLength token.line (token.argument 1))
    else
      token.expectExactly 2
      return .text (← hexDigest fingerprintLength token.line (token.argument 0))

/-- The meanings of the keywords that all statuses have. -/
def commonRules (status : String) : List FieldRule :=
  [
    .once "network-status-version" version,
    .once "vote-status" (voteStatus status),
    .once "valid-after" (.timestamp "valid_after_millis"),
    .once "fresh-until" (.timestamp "fresh_until_millis"),
    .once "valid-until" (.timestamp "valid_until_millis"),
    .once "voting-delay" votingDelay,
    .once "client-versions" (versions "client_versions"),
    .once "server-versions" (versions "server_versions"),
    .once "known-flags" (.arguments "known_flags"),
    .once "params" (.spacedKeyValues "params"),
    .each "dir-source" dirSource,
    .each "contact" contact,
    .each "r" entry,
    .once "directory-footer" (.bare "has_footer"),
    .once "bandwidth-weights" (.spacedKeyValues "bandwidth_weights"),
    .each "directory-signature" signature
  ]

/-- The meanings of the keywords of a consensus. -/
def consensusRules : List FieldRule :=
  commonRules "consensus" ++
    [
      .once "consensus-method" (.integer "consensus_method" (.atLeast 1)),
      .each "vote-digest" voteDigest
    ]

/-- The meanings of the keywords of a vote. -/
def voteRules : List FieldRule :=
  commonRules "vote" ++
    [
      .once "consensus-methods" consensusMethods,
      .once "published" (.timestamp "published_millis")
    ]

/-- The rules on the occurrence of keywords, with the keywords that a kind requires beside the
common ones. -/
def constraints (required : List String) : Constraints :=
  .of
    (
      ([
        "network-status-version", "vote-status", "valid-after", "fresh-until", "valid-until",
        "voting-delay", "known-flags"
      ] ++ required).map String.toList
    )
    (
      [
        "client-versions", "server-versions", "params", "directory-footer",
        "bandwidth-weights"
      ].map String.toList
    )
    (Constraints.dependencies [("directory-footer".toList, ["bandwidth-weights".toList])])

/-- The keywords of all statuses that mean nothing: the other lines of the entry of a router, and
lines of the header that are not decoded. -/
def passthrough : List Text :=
  [
    "a", "s", "v", "pr", "w", "p", "m", "id",
    "recommended-client-protocols", "recommended-relay-protocols",
    "required-client-protocols", "required-relay-protocols", "shared-rand-participate",
    "shared-rand-commit", "shared-rand-previous-value", "shared-rand-current-value",
    "flag-thresholds", "legacy-dir-key", "package"
  ].map String.toList

/-- The keyword that opens a status. -/
def leading : Text := "network-status-version".toList

/-- The grammar of a kind of consensus. -/
def consensusGrammar (kind : Kind) (description : String) : Grammar where
  kind
  leading
  constraints := constraints ["consensus-method"]
  rules := consensusRules
  schema
  passthrough
  cap := none
  digestEnd := none
  sha256End := none
  description

/-- The grammar of votes. -/
def voteGrammar : Grammar where
  kind := .vote
  leading
  constraints := constraints ["consensus-methods", "published"]
  rules := voteRules
  schema
  passthrough := passthrough ++ KeyCertificate.required ++ KeyCertificate.allowed
  cap := none
  digestEnd := none
  sha256End := none
  description := "Network status vote (v3)"

/-- The grammars of this module. -/
def grammars : List Grammar :=
  [
    consensusGrammar .consensus "Network status consensus (v3)",
    consensusGrammar .microdescConsensus
      "Microdescriptor-flavored network status consensus (v3)",
    voteGrammar
  ]

end NetworkStatus

end RelayDescriptor
