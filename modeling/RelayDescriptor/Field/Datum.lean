import RelayDescriptor.Field.Value

/-!
# Plain data

A field value taken apart into plain data, with the names of all parts.  Everything
that shows values to others shows their plain data.
-/

namespace RelayDescriptor

/-- A piece of plain data. -/
inductive Datum where
  | absent
  | flag (value : Bool)
  | integer (value : Int)
  | real (value : Binary64)
  | text (value : Text)
  | bytes (value : List UInt8)
  | list (values : List Datum)
  /-- Keys with values, in order. -/
  | mapping (entries : List (Datum × Datum))
  /-- Named parts, in order. -/
  | record (parts : List (String × Datum))
  deriving Repr

namespace Datum

/-- A text that may be missing. -/
def ofText? : Option Text → Datum
  | some value => .text value
  | none => .absent

end Datum

/-- The parts of a history. -/
def BandwidthHistory.datum (history : BandwidthHistory) : Datum :=
  .record
    [
      ("line", .text history.line),
      ("history_end_millis", .integer history.endMillis),
      ("interval_length", .integer history.intervalSeconds),
      ("bandwidth_values",
        .mapping (history.values.map fun (stop, count) => (.integer stop, .integer count)))
    ]

/-- The parts of an interval. -/
def StatsInterval.datum (interval : StatsInterval) : Datum :=
  .record
    [
      ("end_millis", .integer interval.endMillis),
      ("interval_length", .integer interval.lengthSeconds)
    ]

/-- The parts of an authority section. -/
def DirSource.datum (source : DirSource) : Datum :=
  .record
    [
      ("nickname", .text source.nickname),
      ("identity", .text source.identity),
      ("hostname", .text source.hostname),
      ("address", .text source.address),
      ("dir_port", .integer source.dirPort),
      ("or_port", .integer source.orPort),
      ("contact_line", .ofText? source.contact),
      ("vote_digest", .ofText? source.voteDigest),
      ("raw", .bytes source.raw)
    ]

/-- The parts of the entry of a router. -/
def StatusEntry.datum (entry : StatusEntry) : Datum :=
  .record
    [
      ("nickname", .text entry.nickname),
      ("identity", .text entry.identity),
      ("descriptor", .ofText? entry.descriptor),
      ("published_millis", .integer entry.publishedMillis),
      ("address", .text entry.address),
      ("or_port", .integer entry.orPort),
      ("dir_port", .integer entry.dirPort)
    ]

/-- The parts of a line of an authority section. -/
def AuthorityLine.datum (line : AuthorityLine) : Datum :=
  let content := match line.content with
    | .source source => source.datum
    | .contact value | .voteDigest value => .text value
  .list [.text line.keyword, content, .text line.line]

namespace Value

mutual

/-- The plain data of a value. -/
def datum : Value → Datum
  | .absent => .absent
  | .flag value => .flag value
  | .integer value => .integer value
  | .real value => .real value
  | .text value => .text value
  | .counts value => .mapping (value.map fun (key, count) => (.text key, .integer count))
  | .history value => value.datum
  | .interval value => value.datum
  | .source value => value.datum
  | .entry value => value.datum
  | .authorityLine value => value.datum
  | .row values | .list values => .list (data values)

/-- The plain data of values. -/
def data : List Value → List Datum
  | [] => []
  | value :: values => datum value :: data values

end

end Value

end RelayDescriptor
