import RelayDescriptor.Field.Datum
import RelayDescriptor.Json.Basic
import RelayDescriptor.Reading
import RelayDescriptor.Report.Style

/-!
# Reports on outcomes

The results of reading, as lines of text or as JSON.  In text each result has a
line, and annotations and unrecognized lines follow if they are asked for.
-/

namespace RelayDescriptor

namespace Datum

/-- The text of a key of an object. -/
def keyText : Datum → Text
  | .text value => value
  | .integer value => (toString value).toList
  | _ => []

mutual

/-- The JSON of plain data.  Bytes are written as their quoted text. -/
def json : Datum → Json
  | .absent => .null
  | .flag value => .bool value
  | .integer value => .integer value
  | .real value => .real value
  | .text value => .text value
  | .bytes value => .text (Quoted.bytes value)
  | .list values => .array (jsonElements values)
  | .mapping entries => .object (jsonEntries entries)
  | .record parts => .object (jsonParts parts)

/-- The elements of an array. -/
def jsonElements : List Datum → List Json
  | [] => []
  | value :: values => json value :: jsonElements values

/-- The members of an object with keys of any sort. -/
def jsonEntries : List (Datum × Datum) → List (Text × Json)
  | [] => []
  | (key, value) :: entries => (keyText key, json value) :: jsonEntries entries

/-- The members of an object with named parts. -/
def jsonParts : List (String × Datum) → List (Text × Json)
  | [] => []
  | (name, value) :: parts => (name.toList, json value) :: jsonParts parts

end

end Datum

namespace Record

/-- The plain data of a record. -/
def datum (record : Record) : Datum :=
  .record (record.fields.map fun (name, value) => (name, value.datum))

end Record

namespace Json

/-- A text that may be missing. -/
def ofText? : Option Text → Json
  | some value => .text value
  | none => .null

/-- The JSON of a text of the library. -/
def ofString (value : String) : Json := .text value.toList

/-- An object with the given members. -/
def ofMembers (members : List (String × Json)) : Json :=
  .object (members.map fun (key, value) => (key.toList, value))

end Json

namespace Rejection

/-- The members that tell why something was refused. -/
def json (rejection : Rejection) : Json :=
  let members := [("type", Json.ofString rejection.className),
    ("message", Json.ofString rejection.message)]
  match rejection with
  | .malformed violation =>
      Json.ofMembers (members ++
        [("cause", Json.ofString violation.cause), ("line", Json.ofText? violation.line?)])
  | _ => Json.ofMembers members

end Rejection

namespace Outcome

/-- The JSON of a result. -/
def json (outcome : Outcome) : Json :=
  let kind := match outcome.kind? with
    | some kind => Json.ofString kind.typeName
    | none => Json.null
  let common :=
    [
      ("origin", Json.ofText? outcome.origin?),
      ("kind", kind),
      ("start", Json.integer outcome.range.start),
      ("end", Json.integer outcome.range.stop),
      ("ok", Json.bool outcome.isParsed)
    ]
  match outcome with
  | .parsed document =>
      Json.ofMembers (common ++
        [
          ("annotations", .array (document.annotations.map .text)),
          ("unrecognized_lines", .array (document.unrecognized.map .text)),
          ("record", document.record.datum.json)
        ])
  | .refused refusal => Json.ofMembers (common ++ [("error", refusal.rejection.json)])

/-- The beginning of the line of a result: its origin. -/
def place (outcome : Outcome) : Text :=
  match outcome.origin? with
  | some origin => origin ++ ": ".toList
  | none => []

/-- The kind and the range of a result. -/
def subject (outcome : Outcome) : Text :=
  let kind := match outcome.kind? with
    | some kind => kind.typeName
    | none => "-"
  s!"{kind} {outcome.range.text}".toList

/-- The lines of a result.  Below zero verbosity only refusals have one. -/
def lines (styling : Styling) (verbosity : Int) (outcome : Outcome) : List Text :=
  match outcome with
  | .parsed document =>
      let status := styling (.strong .green) "OK".toList
      let first := outcome.place ++ status ++ ' ' :: outcome.subject
      let annotations := document.annotations.map fun line => "    annotation: ".toList ++ line
      let unrecognized := document.unrecognized.map fun line =>
        styling (.coloured .yellow) ("    unrecognized: ".toList ++ line)
      if verbosity < 0 then []
      else if verbosity = 0 then [first]
      else first :: annotations ++ unrecognized
  | .refused refusal =>
      let status := styling (.strong .red) "ERR".toList
      [outcome.place ++ status ++ ' ' :: outcome.subject ++ ": ".toList ++
        refusal.rejection.message.toList]

end Outcome

namespace Report

/-- The number of results that are refusals. -/
def refusals (outcomes : List Outcome) : Nat :=
  outcomes.countP fun outcome => !outcome.isParsed

/-- The JSON of results. -/
def json (outcomes : List Outcome) : Text :=
  Json.render .indented (.array (outcomes.map Outcome.json))

/-- The lines of results, with a summary if more than usual is asked for. -/
def lines (styling : Styling) (verbosity : Int) (outcomes : List Outcome) : List Text :=
  let summary :=
    s!"{outcomes.length} document(s), {refusals outcomes} unparseable".toList
  outcomes.flatMap (Outcome.lines styling verbosity) ++
    (if 0 < verbosity then [summary] else [])

/-- The JSON of what is known about kinds. -/
def kindsJson (kinds : List KindInfo) : Text :=
  let object := fun (info : KindInfo) => Json.ofMembers
    [
      ("type_name", Json.ofString info.kind.typeName),
      ("leading_keyword", Json.ofText? info.leading),
      ("supported", .bool info.isSupported),
      ("description", Json.ofString info.description)
    ]
  Json.render .indented (.array (kinds.map object))

/-- The lines of what is known about kinds, in columns. -/
def kindLines (styling : Styling) (kinds : List KindInfo) : List Text :=
  let width := (kinds.map fun info => info.kind.typeName.length).foldl max 0
  kinds.map fun info =>
    let name := info.kind.typeName.toList
    let column := name ++ List.replicate (width - name.length) ' '
    match info.leading with
    | some leading =>
        column ++ "  ".toList ++ styling (.coloured .green) "parse".toList ++
          "  ".toList ++ leading ++ "  ".toList ++ info.description.toList
    | none =>
        column ++ "  ".toList ++ styling (.coloured .yellow) "detect".toList

end Report

end RelayDescriptor
