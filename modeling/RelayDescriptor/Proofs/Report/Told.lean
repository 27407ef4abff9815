import Mathlib.Data.List.Forall2
import RelayDescriptor.Report.Outcomes

/-!
# What a report tells

What has to be told of a result, said apart from how reports are put together: the members of the
JSON object of a result, those of its record and of its error, and the words of its line.
-/

namespace RelayDescriptor

namespace Value

/-- What JSON tells of the value of a field. -/
inductive IsTold : Value → Json → Prop
  | absent : IsTold .absent .null
  | flag (value : Bool) : IsTold (.flag value) (.bool value)
  | integer (value : Int) : IsTold (.integer value) (.integer value)
  | real (value : Binary64) : IsTold (.real value) (.real value)
  | text (value : Text) : IsTold (.text value) (.text value)
  | counts (counts : OrderedMap Text Int) :
      IsTold (.counts counts) (.object (counts.map fun (key, count) => (key, .integer count)))
  | history (history : BandwidthHistory) :
      IsTold (.history history) (.ofMembers
        [
          ("line", .text history.line),
          ("history_end_millis", .integer history.endMillis),
          ("interval_length", .integer history.intervalSeconds),
          ("bandwidth_values", .object (history.values.map fun (stop, count) =>
            ((toString stop).toList, .integer count)))
        ])
  | interval (interval : StatsInterval) :
      IsTold (.interval interval) (.ofMembers
        [
          ("end_millis", .integer interval.endMillis),
          ("interval_length", .integer interval.lengthSeconds)
        ])
  | source (source : DirSource) :
      IsTold (.source source) (.ofMembers
        [
          ("nickname", .text source.nickname),
          ("identity", .text source.identity),
          ("hostname", .text source.hostname),
          ("address", .text source.address),
          ("dir_port", .integer source.dirPort),
          ("or_port", .integer source.orPort),
          ("contact_line", .ofText? source.contact),
          ("vote_digest", .ofText? source.voteDigest),
          ("raw", .text (Quoted.bytes source.raw))
        ])
  | entry (entry : StatusEntry) :
      IsTold (.entry entry) (.ofMembers
        [
          ("nickname", .text entry.nickname),
          ("identity", .text entry.identity),
          ("descriptor", .ofText? entry.descriptor),
          ("published_millis", .integer entry.publishedMillis),
          ("address", .text entry.address),
          ("or_port", .integer entry.orPort),
          ("dir_port", .integer entry.dirPort)
        ])
  | authoritySource {source : DirSource} {keyword line : Text} {content : Json}
      (told : IsTold (.source source) content) :
      IsTold (.authorityLine ⟨keyword, .source source, line⟩)
        (.array [.text keyword, content, .text line])
  | authorityContact (keyword contact line : Text) :
      IsTold (.authorityLine ⟨keyword, .contact contact, line⟩)
        (.array [.text keyword, .text contact, .text line])
  | authorityVoteDigest (keyword digest line : Text) :
      IsTold (.authorityLine ⟨keyword, .voteDigest digest, line⟩)
        (.array [.text keyword, .text digest, .text line])
  | row {values : List Value} {elements : List Json}
      (each : List.Forall₂ IsTold values elements) : IsTold (.row values) (.array elements)
  | list {values : List Value} {elements : List Json}
      (each : List.Forall₂ IsTold values elements) : IsTold (.list values) (.array elements)

theorem isTold_counts (counts : OrderedMap Text Int) :
    IsTold (.counts counts) (Value.counts counts).datum.json := by
  have members : Datum.jsonEntries (counts.map fun (key, count) =>
      (Datum.text key, Datum.integer count)) =
        counts.map fun (key, count) => (key, Json.integer count) := by
    induction counts with
    | nil => rfl
    | cons entry counts induction => rw [List.map_cons, Datum.jsonEntries, induction]; rfl
  rw [datum, Datum.json, members]
  exact .counts counts

theorem isTold_history (history : BandwidthHistory) :
    IsTold (.history history) (Value.history history).datum.json := by
  have members (values : OrderedMap Int Int) : Datum.jsonEntries (values.map fun (stop, count) =>
      (Datum.integer stop, Datum.integer count)) =
        values.map fun (stop, count) => ((toString stop).toList, Json.integer count) := by
    induction values with
    | nil => rfl
    | cons entry values induction => rw [List.map_cons, Datum.jsonEntries, induction]; rfl
  have told := IsTold.history history
  rw [← members] at told
  exact told

theorem json_ofText? (text : Option Text) : (Datum.ofText? text).json = .ofText? text := by
  cases text <;> rfl

theorem isTold_source (source : DirSource) :
    IsTold (.source source) (Value.source source).datum.json := by
  have told := IsTold.source source
  rw [← json_ofText?, ← json_ofText?] at told
  exact told

theorem isTold_entry (entry : StatusEntry) :
    IsTold (.entry entry) (Value.entry entry).datum.json := by
  have told := IsTold.entry entry
  rw [← json_ofText?] at told
  exact told

theorem isTold_authorityLine (line : AuthorityLine) :
    IsTold (.authorityLine line) (Value.authorityLine line).datum.json := by
  obtain ⟨keyword, content, line⟩ := line
  cases content with
  | source source => exact .authoritySource (isTold_source source)
  | contact contact => exact .authorityContact keyword contact line
  | voteDigest digest => exact .authorityVoteDigest keyword digest line

mutual

/-- The JSON of a value tells of it. -/
theorem isTold_json : ∀ value : Value, value.IsTold value.datum.json
  | .absent => .absent
  | .flag value => .flag value
  | .integer value => .integer value
  | .real value => .real value
  | .text value => .text value
  | .counts value => isTold_counts value
  | .history value => isTold_history value
  | .interval value => .interval value
  | .source value => isTold_source value
  | .entry value => isTold_entry value
  | .authorityLine value => isTold_authorityLine value
  | .row values => .row (isTold_elements values)
  | .list values => .list (isTold_elements values)

theorem isTold_elements : ∀ values : List Value,
    List.Forall₂ IsTold values (Datum.jsonElements (data values))
  | [] => .nil
  | value :: values => .cons (isTold_json value) (isTold_elements values)

end

end Value

namespace Record

/-- What JSON tells of a record: each field by its name, in order. -/
inductive IsTold (record : Record) : Json → Prop
  | object {values : List Json}
      (each : List.Forall₂ (fun field value => field.2.IsTold value) record.fields values) :
      IsTold record (.ofMembers ((record.fields.map Prod.fst).zip values))

theorem isTold_json (record : Record) : record.IsTold record.datum.json := by
  have each (fields : List (String × Value)) :
      List.Forall₂ (fun field value => field.2.IsTold value) fields
        (fields.map fun field => field.2.datum.json) := by
    rw [List.forall₂_map_right_iff, List.forall₂_same]
    exact fun field _ => field.2.isTold_json
  have members (fields : List (String × Value)) :
      Json.ofMembers ((fields.map Prod.fst).zip (fields.map fun field => field.2.datum.json)) =
        .object (Datum.jsonParts (fields.map fun field => (field.1, field.2.datum))) := by
    rw [Json.ofMembers, Json.object.injEq]
    induction fields with
    | nil => rfl
    | cons field fields induction =>
        rw [List.map_cons, List.map_cons, List.zip_cons_cons, List.map_cons, induction]
        rfl
  have told := IsTold.object (each record.fields)
  rw [members] at told
  exact told

end Record

namespace Rejection

/-- What JSON tells of an error: its type and its message, and of a document that breaks the rules
on its lines also the cause and the line. -/
inductive IsTold : Rejection → Json → Prop
  | malformed (violation : Violation) :
      IsTold (.malformed violation) (.ofMembers
        [
          ("type", .ofString "MalformedDocumentError"),
          ("message", .ofString violation.message),
          ("cause", .ofString violation.cause),
          ("line", .ofText? violation.line?)
        ])
  | other {rejection : Rejection} (different : ∀ violation, rejection ≠ .malformed violation) :
      IsTold rejection (.ofMembers
        [("type", .ofString rejection.className), ("message", .ofString rejection.message)])

theorem isTold_json (rejection : Rejection) : rejection.IsTold rejection.json := by
  cases rejection with
  | malformed violation => exact .malformed violation
  | _ => exact .other nofun

end Rejection

namespace Outcome

/-- What JSON tells of a result. -/
inductive IsTold : Outcome → Json → Prop
  | parsed {document : Document} {record : Json} (told : document.record.IsTold record) :
      IsTold (.parsed document) (.ofMembers
        [
          ("origin", .ofText? document.origin),
          ("kind", .ofString document.kind.typeName),
          ("start", .integer document.range.start),
          ("end", .integer document.range.stop),
          ("ok", .bool true),
          ("annotations", .array (document.annotations.map .text)),
          ("unrecognized_lines", .array (document.unrecognized.map .text)),
          ("record", record)
        ])
  | refused {refusal : Refusal} {error : Json} (told : refusal.rejection.IsTold error) :
      IsTold (.refused refusal) (.ofMembers
        [
          ("origin", .ofText? refusal.origin),
          ("kind", .ofText? (refusal.kind.map fun kind => kind.typeName.toList)),
          ("start", .integer refusal.range.start),
          ("end", .integer refusal.range.stop),
          ("ok", .bool false),
          ("error", error)
        ])

/-- The JSON of a result tells of it. -/
theorem isTold_json (outcome : Outcome) : outcome.IsTold outcome.json := by
  cases outcome with
  | parsed document => exact .parsed document.record.isTold_json
  | refused refusal =>
      have told := IsTold.refused refusal.rejection.isTold_json
      rw [json.eq_def]
      obtain ⟨kind, raw, range, rejection, origin⟩ := refusal
      cases kind <;> exact told

/-! ## Lines -/

/-- The beginning of a line: where the input is from, if that is known. -/
def originText : Option Text → Text
  | some origin => origin ++ [':', ' ']
  | none => []

/-- The name of a kind, or a minus sign. -/
def kindText : Option Kind → String
  | some kind => kind.typeName
  | none => "-"

/-- The line of a result: where it comes from, whether it is a document, its kind and its range, and
why it is refused. -/
def heading (styling : Styling) : Outcome → Text
  | .parsed document =>
      originText document.origin ++ styling (.strong .green) "OK".toList ++
        s!" {document.kind.typeName} [{document.range.start}, {document.range.stop})".toList
  | .refused refusal =>
      originText refusal.origin ++ styling (.strong .red) "ERR".toList ++
        s!" {kindText refusal.kind} [{refusal.range.start}, {refusal.range.stop})".toList ++
          s!": {refusal.rejection.message}".toList

/-- What is told below the line of a document: its annotations and its unrecognized lines. -/
def details (styling : Styling) : Outcome → List Text
  | .parsed document =>
      document.annotations.map (fun line => "    annotation: ".toList ++ line) ++
        document.unrecognized.map fun line =>
          styling (.coloured .yellow) ("    unrecognized: ".toList ++ line)
  | .refused _ => []

variable {outcome : Outcome} {styling : Styling}

theorem place_eq (outcome : Outcome) : outcome.place = originText outcome.origin? := by
  rw [place]
  cases outcome.origin? <;> rfl

theorem subject_eq (outcome : Outcome) :
    ' ' :: outcome.subject =
      s!" {kindText outcome.kind?} [{outcome.range.start}, {outcome.range.stop})".toList := by
  have same (text : String) : toString text = text := rfl
  rw [subject]
  cases outcome.kind? <;> simp [kindText, ByteRange.text, String.toList_append, same]

theorem lines_refused {refusal : Refusal} (level : Int) (styling : Styling) :
    (Outcome.refused refusal).lines styling level =
      [(Outcome.refused refusal).heading styling] := by
  have message : s!": {refusal.rejection.message}".toList =
      ": ".toList ++ refusal.rejection.message.toList := String.toList_append
  rw [lines, heading, message, place_eq]
  simp only [List.append_assoc, subject_eq]
  rfl

theorem lines_parsed {document : Document} (level : Int) (styling : Styling) :
    (Outcome.parsed document).lines styling level =
      if level < 0 then []
      else (Outcome.parsed document).heading styling ::
        if level = 0 then [] else (Outcome.parsed document).details styling := by
  have first : (Outcome.parsed document).place ++ styling (.strong .green) "OK".toList ++
      ' ' :: (Outcome.parsed document).subject = (Outcome.parsed document).heading styling := by
    rw [place_eq, subject_eq]
    rfl
  simp only [lines, first]
  split
  next => rfl
  next => split <;> rfl

theorem lines_of_neg {level : Int} (quiet : level < 0) (styling : Styling) :
    outcome.lines styling level = if outcome.isParsed then [] else [outcome.heading styling] := by
  cases outcome with
  | parsed document => rw [lines_parsed, if_pos quiet, isParsed, if_pos rfl]
  | refused refusal => exact lines_refused level styling

theorem lines_zero (styling : Styling) : outcome.lines styling 0 = [outcome.heading styling] := by
  cases outcome with
  | parsed document => exact lines_parsed 0 styling
  | refused refusal => exact lines_refused 0 styling

theorem lines_of_pos {level : Int} (verbose : 0 < level) (styling : Styling) :
    outcome.lines styling level = outcome.heading styling :: outcome.details styling := by
  cases outcome with
  | parsed document => rw [lines_parsed, if_neg (by omega), if_neg (by omega)]
  | refused refusal => exact lines_refused level styling

end Outcome

end RelayDescriptor
