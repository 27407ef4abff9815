import RelayDescriptor.Field.Authority
import RelayDescriptor.Field.History

/-!
# Field values

The values that the fields of a record can have.
-/

namespace RelayDescriptor

/-- A router in a network status, as its line gives it. -/
structure StatusEntry where
  nickname : Text
  identity : Text
  /-- The digest of the router's descriptor, which some statuses leave out. -/
  descriptor : Option Text
  publishedMillis : Int
  address : Text
  orPort : Int
  dirPort : Int
  deriving Repr, DecidableEq

/-- The value of a field. -/
inductive Value where
  /-- The field is not given. -/
  | absent
  | flag (value : Bool)
  | integer (value : Int)
  | real (value : Binary64)
  | text (value : Text)
  /-- Keys with counts. -/
  | counts (value : OrderedMap Text Int)
  | history (value : BandwidthHistory)
  | interval (value : StatsInterval)
  | source (value : DirSource)
  | entry (value : StatusEntry)
  /-- A line of an authority section, which is not a value of a finished record. -/
  | authorityLine (value : AuthorityLine)
  /-- Several values of one line, to which none can be added. -/
  | row (values : List Value)
  | list (values : List Value)
  deriving Repr

namespace Value

/-- Some texts. -/
def texts (values : List Text) : Value := .row (values.map .text)

/-- A list of numbers. -/
def integers (values : List Int) : Value := .list (values.map .integer)

/-- A list of floating-point numbers. -/
def reals (values : List Binary64) : Value := .list (values.map .real)

/-- A text that may be missing. -/
def ofText? : Option Text → Value
  | some value => .text value
  | none => .absent

/-- The line of an authority section that a value holds. -/
def authorityLine? : Value → Option AuthorityLine
  | .authorityLine line => some line
  | _ => none

/-- The name of the class of a value in reports. -/
def typeName : Value → String
  | .absent => "NoneType"
  | .flag _ => "bool"
  | .integer _ => "int"
  | .real _ => "float"
  | .text _ => "str"
  | .counts _ => "dict"
  | .history _ => "BandwidthHistory"
  | .interval _ => "StatsInterval"
  | .source _ => "DirSource"
  | .entry _ => "StatusEntry"
  | .authorityLine _ | .row _ => "tuple"
  | .list _ => "list"

end Value

end RelayDescriptor
