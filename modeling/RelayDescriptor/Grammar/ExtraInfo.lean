import RelayDescriptor.Grammar.Basic

/-!
# Extra-info descriptors

Bandwidth histories and usage statistics of relays and bridges.  The lines of each
group of statistics need the line that says when the statistics end.
-/

namespace RelayDescriptor

namespace ExtraInfo

/-- The decoded fields. -/
def schema : Schema where
  name := "ExtraInfoDescriptor"
  fields :=
    [("nickname", .text []), ("fingerprint", .text []), ("published_millis", .integer 0)] ++
    (
      [
        "read_history", "write_history", "dirreq_read_history", "dirreq_write_history",
        "geoip_db_digest", "geoip_start_time_millis", "geoip_client_origins",
        "dirreq_stats_end", "dirreq_v2_ips", "dirreq_v3_ips", "dirreq_v2_reqs",
        "dirreq_v3_reqs", "dirreq_v2_share", "dirreq_v3_share", "dirreq_v2_resp",
        "dirreq_v3_resp", "dirreq_v2_direct_dl", "dirreq_v3_direct_dl",
        "dirreq_v2_tunneled_dl", "dirreq_v3_tunneled_dl",
        "entry_stats_end", "entry_ips",
        "cell_stats_end", "cell_processed_cells", "cell_queued_cells", "cell_time_in_queue",
        "cell_circuits_per_decile",
        "conn_bi_direct_stats_end", "conn_bi_direct_below", "conn_bi_direct_read",
        "conn_bi_direct_write", "conn_bi_direct_both",
        "exit_stats_end", "exit_kibibytes_written", "exit_kibibytes_read",
        "exit_streams_opened",
        "bridge_stats_end", "bridge_ips",
        digestField
      ].map fun field => (field, .absent)
    )
  arrange := .ok

/-- The name and the fingerprint of the relay. -/
def relay : Decoder :=
  .ofFields ["nickname", "fingerprint"] fun token => do
    token.expectExactly 2
    let nickname ← nickname token.line (token.argument 0)
    let fingerprint ← hexDigest fingerprintLength token.line (token.argument 1)
    return [.text nickname, .text fingerprint]

/-- The interval and the four counts of connections by direction. -/
def connections : Decoder :=
  .ofFields
    ["conn_bi_direct_stats_end", "conn_bi_direct_below", "conn_bi_direct_read",
      "conn_bi_direct_write", "conn_bi_direct_both"]
    fun token => do
      token.expectExactly 5
      let statsEnd ← statsInterval token.line (token.arguments.take 4)
      let counts ← integerList token.line token.arguments 4
      match counts with
      | [below, read, write, both] =>
          return [.interval statsEnd, .integer below, .integer read, .integer write, .integer both]
      | _ =>
          .error (.value token.line (token.argument 4) "four comma-separated connection counts")

/-- The meanings of the keywords. -/
def rules : List FieldRule :=
  [
    .once "extra-info" relay,
    .once "published" (.timestamp "published_millis"),
    .once "read-history" (.history "read_history"),
    .once "write-history" (.history "write_history"),
    .once "dirreq-read-history" (.history "dirreq_read_history"),
    .once "dirreq-write-history" (.history "dirreq_write_history"),
    .once "geoip-db-digest" (.hexDigest "geoip_db_digest" fingerprintLength),
    .once "geoip-start-time" (.timestamp "geoip_start_time_millis"),
    .once "geoip-client-origins" (.keyValues "geoip_client_origins" 2),
    .once "dirreq-stats-end" (.statsEnd "dirreq_stats_end"),
    .once "dirreq-v2-ips" (.keyValues "dirreq_v2_ips" 2),
    .once "dirreq-v3-ips" (.keyValues "dirreq_v3_ips" 2),
    .once "dirreq-v2-reqs" (.keyValues "dirreq_v2_reqs" 2),
    .once "dirreq-v3-reqs" (.keyValues "dirreq_v3_reqs" 2),
    .once "dirreq-v2-share" (.share "dirreq_v2_share"),
    .once "dirreq-v3-share" (.share "dirreq_v3_share"),
    .once "dirreq-v2-resp" (.keyValues "dirreq_v2_resp" 0),
    .once "dirreq-v3-resp" (.keyValues "dirreq_v3_resp" 0),
    .once "dirreq-v2-direct-dl" (.keyValues "dirreq_v2_direct_dl" 0),
    .once "dirreq-v3-direct-dl" (.keyValues "dirreq_v3_direct_dl" 0),
    .once "dirreq-v2-tunneled-dl" (.keyValues "dirreq_v2_tunneled_dl" 0),
    .once "dirreq-v3-tunneled-dl" (.keyValues "dirreq_v3_tunneled_dl" 0),
    .once "entry-stats-end" (.statsEnd "entry_stats_end"),
    .once "entry-ips" (.keyValues "entry_ips" 2),
    .once "cell-stats-end" (.statsEnd "cell_stats_end"),
    .once "cell-processed-cells" (.integers "cell_processed_cells"),
    .once "cell-queued-cells" (.decimals "cell_queued_cells"),
    .once "cell-time-in-queue" (.integers "cell_time_in_queue"),
    .once "cell-circuits-per-decile" (.integer "cell_circuits_per_decile" (.atLeast 0)),
    .once "conn-bi-direct" connections,
    .once "exit-stats-end" (.statsEnd "exit_stats_end"),
    .once "exit-kibibytes-written" (.keyValues "exit_kibibytes_written" 0),
    .once "exit-kibibytes-read" (.keyValues "exit_kibibytes_read" 0),
    .once "exit-streams-opened" (.keyValues "exit_streams_opened" 0),
    .once "bridge-stats-end" (.statsEnd "bridge_stats_end"),
    .once "bridge-ips" (.keyValues "bridge_ips" 2),
    .once "router-signature" .nothing
  ]

/-- The groups of statistics: the keyword that each group needs, and its keywords. -/
def groups : List (Text × List Text) :=
  ([
    ("dirreq-stats-end",
      [
        "dirreq-stats-end", "dirreq-v2-ips", "dirreq-v3-ips", "dirreq-v2-reqs",
        "dirreq-v3-reqs", "dirreq-v2-share", "dirreq-v3-share", "dirreq-v2-resp",
        "dirreq-v3-resp", "dirreq-v2-direct-dl", "dirreq-v3-direct-dl",
        "dirreq-v2-tunneled-dl", "dirreq-v3-tunneled-dl"
      ]),
    ("entry-stats-end", ["entry-stats-end", "entry-ips"]),
    ("cell-stats-end",
      [
        "cell-stats-end", "cell-processed-cells", "cell-queued-cells", "cell-time-in-queue",
        "cell-circuits-per-decile"
      ]),
    ("exit-stats-end",
      [
        "exit-stats-end", "exit-kibibytes-written", "exit-kibibytes-read",
        "exit-streams-opened"
      ]),
    ("bridge-stats-end", ["bridge-stats-end", "bridge-ips"])
  ] : List (String × List String)).map fun (needed, keywords) =>
    (needed.toList, keywords.map String.toList)

/-- The rules on the occurrence of keywords. -/
def constraints : Constraints :=
  .of (["extra-info", "published"].map String.toList)
    (
      [
        "read-history", "write-history", "dirreq-read-history", "dirreq-write-history",
        "geoip-db-digest", "router-signature", "conn-bi-direct"
      ].map String.toList ++ groups.flatMap Prod.snd
    )
    (Constraints.dependencies groups)

/-- The grammar of a kind of extra-info descriptors. -/
def grammar (kind : Kind) (description : String) : Grammar where
  kind
  leading := "extra-info".toList
  constraints
  rules
  schema
  passthrough := []
  cap := none
  digestEnd := some "\nrouter-signature\n".toList
  sha256End := none
  description

/-- The grammars of this module. -/
def grammars : List Grammar :=
  [
    grammar .extraInfo "Relay extra-info descriptor",
    grammar .bridgeExtraInfo "Sanitized bridge extra-info descriptor"
  ]

end ExtraInfo

end RelayDescriptor
