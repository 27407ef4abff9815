import RelayDescriptor.Proofs.Command.Loading
import RelayDescriptor.Proofs.Command.Results
import RelayDescriptor.Proofs.Record.Reals
import RelayDescriptor.Proofs.Tools.Standard

/-!
# Results printed as JSON

What is printed is a JSON array with an object for each result, exactly if no record has a
floating-point number that is not finite.  Shares and queued cells are the only fields that can
have one.
-/

namespace RelayDescriptor

/-- The fields of a document that its kind has for floating-point numbers hold finite ones. -/
def Document.IsFinite (document : Document) : Prop :=
  ∀ field ∈ document.kind.realFields, ∀ value, (field, value) ∈ document.record.fields →
    ∀ number ∈ value.realsWithin, number.IsFinite

namespace Outcome

/-- A result is refused, or a document whose floating-point numbers are finite. -/
def IsFinite (outcome : Outcome) : Prop :=
  ∀ document, outcome = .parsed document → document.IsFinite

theorem isFinite_json_iff {outcome : Outcome}
    (among : ∀ document, outcome = .parsed document →
      Fields.RealsAmong document.kind.realFields document.record.fields) :
    outcome.json.IsFinite ↔ outcome.IsFinite := by
  rw [Json.IsFinite, reals_json]
  cases outcome with
  | refused refusal => simp [reals, IsFinite]
  | parsed document =>
      rw [reals, Record.reals, List.forall_mem_flatMap]
      constructor
      · rintro finite _ ⟨⟩ field _ value member
        exact finite (field, value) member
      · intro finite entry member number inside
        rcases among document rfl entry member with known | without
        · exact finite document rfl entry.1 known entry.2 member number inside
        · rw [without] at inside
          cases inside

theorem exists_tree_json (outcome : Outcome) : ∃ members, outcome.json.tree = .object members := by
  cases outcome <;> exact ⟨_, rfl⟩

end Outcome

namespace Json

/-- JSON is written as it is, with a line feed behind it. -/
theorem written_render {tools : Toolkit} (keeps : tools.KeepsPlain) (styled : Bool)
    (json : Json) :
    Run.written tools styled [render .indented json] = render .indented json ++ ['\n'] := by
  have visible := (shows_textAt isBlank_indented 0 json).visible
  have plain : Style.escape ∉ render .indented json := by
    intro member
    exact absurd (visible _ member) (by decide)
  rw [Run.written, List.flatMap_singleton]
  cases styled with
  | true => rfl
  | false => rw [if_neg Bool.false_ne_true, keeps _ plain]

theorem isWritten_line {json : Json} (finite : json.IsFinite) :
    IsWritten (.value json.tree) (render .indented json ++ ['\n']) :=
  .padded isSpace_nil (by simp [IsSpace])
    (isWritten_textAt isBlank_indented 0 json finite)

/-- A line of JSON is a JSON text exactly if its numbers are finite. -/
theorem isJson_line_iff (json : Json) :
    IsJson (render .indented json ++ ['\n']) ↔ json.IsFinite := by
  constructor
  · intro isJson
    have shows := (shows_textAt isBlank_indented 0 json).append
      (shows_of_all ['\n'] (by decide))
    exact fun number member =>
      shows.isFinite isJson number (List.mem_append_left [] member)
  · exact fun finite => ⟨_, isWritten_line finite⟩

end Json

namespace Run

variable {tools : Toolkit} {environment : Environment} {line : List Text} {common : CommonOptions}
  {options : ParseOptions} {level threshold : Int} {results : List Outcome}

theorem realsAmong_of_parseOutcomes (complete : parseOutcomes tools environment options = .ok results)
    {document : Document} (member : .parsed document ∈ results) :
    Fields.RealsAmong document.kind.realFields document.record.fields := by
  obtain ⟨readings, _, complete⟩ := bind_eq_ok_iff.mp complete
  obtain ⟨reading, _, part, read, among⟩ := exists_reading_of_mem complete member
  exact Reading.realsAmong_of_outcomes read among

theorem isFinite_array_iff (complete : parseOutcomes tools environment options = .ok results) :
    (Json.array (results.map Outcome.json)).IsFinite ↔ ∀ outcome ∈ results, outcome.IsFinite := by
  rw [Json.IsFinite, Json.reals, Json.elementReals_eq_flatMap, List.forall_mem_flatMap,
    List.forall_mem_map]
  apply forall₂_congr
  intro outcome member
  apply Outcome.isFinite_json_iff
  rintro document rfl
  exact realsAmong_of_parseOutcomes complete member

theorem output_of_json (keeps : tools.KeepsPlain) (json : options.format = .json)
    (complete : parseOutcomes tools environment options = .ok results) (styled : Bool) :
    (parse tools environment styled level threshold options).output =
      Json.render .indented (.array (results.map Outcome.json)) ++ ['\n'] := by
  rw [parse, complete]
  dsimp only
  rw [json, reportLines, Report.json, Json.written_render keeps]

/-! ## A share of directory requests -/

section Share

open Document (wholeRange)

/-- An extra-info descriptor with a share of directory requests. -/
def shareText (share : String) : List UInt8 :=
  ("extra-info a 0000000000000000000000000000000000000000\npublished 2012-02-10 18:32:51\n" ++
    "dirreq-stats-end 2012-02-10 18:32:51 (86400 s)\ndirreq-v3-share " ++ share ++
      "\n").toList.map Ascii.byte

/-- The descriptor stands on standard input. -/
def shareEnvironment (share : String) : Environment :=
  ⟨[], fun _ => .missing, ['/'], shareText share, false⟩

def shareLine : List Text :=
  ["parse", "--format", "json", "--type", "extra-info", "--no-config"].map String.toList

def shareOptions : ParseOptions := ⟨[], false, some "extra-info".toList, [], true, .json⟩

theorem asks_share (share : String) :
    Asks .standard (shareEnvironment share) shareLine ⟨0, 0, none, false⟩ shareOptions 0
      Log.defaultThreshold := ⟨Toolkit.request_standard rfl, rfl, rfl⟩

def shareReading (share : String) : Reading :=
  ⟨⟨shareText share, some standardOrigin⟩, false, some (.named "extra-info".toList),
    Blob.usualWindow⟩

theorem readings_share (tools : Toolkit) (share : String) :
    readings tools (shareEnvironment share) shareOptions = .ok [shareReading share] := by
  have loaded : Configuration.load (Configuration.document tools (shareEnvironment share)) [] =
      .ok ⟨false, Blob.usualWindow, none, []⟩ := rfl
  have input : inputs (shareEnvironment share) shareOptions.paths =
      .ok [(shareReading share).blob] := rfl
  rw [readings_of_load rfl loaded, input]
  rfl

def shareGrammar : Grammar := ExtraInfo.grammar .extraInfo "Relay extra-info descriptor"

/-- The descriptor is read, and a number is all that there is of them in its record. -/
def readsShare (share : String) (number : Binary64) : Bool :=
  match Document.parse (shareReading share).blob (wholeRange (shareText share)) shareGrammar false
    none with
  | .ok document => document.record.reals = [number]
  | .error _ => false

theorem exists_of_readsShare (share : String) (number : Binary64)
    (whole : (shareReading share).IsWhole "extra-info".toList)
    (reads : readsShare share number = true) :
    ∃ document, (shareReading share).outcomes = .ok [.parsed document] ∧
      document.record.reals = [number] := by
  unfold readsShare at reads
  split at reads
  next document parsed =>
    have attempted : (shareReading share).attempt shareGrammar (wholeRange (shareText share)) =
        .ok (.parsed document) := by
      rw [Reading.attempt, show (shareReading share).strict = false from rfl, parsed]
    have detected : (shareReading share).blob.detect (shareReading share).hint
        (shareReading share).window = .ok .extraInfo := rfl
    exact ⟨document, Reading.outcomes_of_isWhole detected rfl whole attempted,
      of_decide_eq_true reads⟩
  next => cases reads

theorem parseOutcomes_share (tools : Toolkit) {share : String} {results : List Outcome}
    (complete : (shareReading share).outcomes = .ok results) :
    parseOutcomes tools (shareEnvironment share) shareOptions = .ok results := by
  rw [parseOutcomes, readings_share]
  exact outcomes_eq_ok_iff.mpr ⟨[results], .cons complete .nil, (List.append_nil results).symm⟩

end Share

/-! ## The printed text -/

/-- What is printed as JSON is a JSON text exactly if all floating-point numbers in records are
finite, which only extra-info descriptors have.  Then it is an array of one object for each result,
in order.  The tools may be any that leave texts as they are in which there is no style. -/
theorem isJson_respond_iff (keeps : tools.KeepsPlain)
    (asks : Asks tools environment line common options level threshold)
    (json : options.format = .json)
    (complete : parseOutcomes tools environment options = .ok results) :
    let output := (respond tools environment line).output
    (Json.IsJson output ↔ ∀ outcome ∈ results, outcome.IsFinite) ∧
      ((∀ outcome ∈ results, outcome.IsFinite) →
        Json.IsWritten (.value (.array (results.map fun outcome => outcome.json.tree))) output ∧
          ∀ outcome ∈ results, ∃ members, outcome.json.tree = .object members) ∧
      ∀ document, .parsed document ∈ results →
        document.kind ≠ .extraInfo → document.kind ≠ .bridgeExtraInfo → document.IsFinite := by
  intro output
  have printed : output = Json.render .indented (.array (results.map Outcome.json)) ++ ['\n'] := by
    rw [← output_of_json keeps json complete, ← respond_of_asks asks]
  refine ⟨?_, ?_, ?_⟩
  · rw [printed, Json.isJson_line_iff, isFinite_array_iff complete]
  · intro finite
    refine ⟨?_, fun outcome _ => outcome.exists_tree_json⟩
    rw [printed]
    have written := Json.isWritten_line ((isFinite_array_iff complete).mpr finite)
    rwa [Json.tree, Json.elementTrees_eq_map, List.map_map] at written
  · intro document _ other another field member
    exfalso
    revert member
    rw [Kind.realFields.eq_def]
    split
    · contradiction
    · contradiction
    · exact List.not_mem_nil

/-- A share of 0.37 percent is printed as JSON. -/
theorem isJson_respond_iff_share :
    ∃ document, parseOutcomes .standard (shareEnvironment "0.37%") shareOptions = .ok [.parsed document] ∧
      document.record.reals = [.ofDecimal ⟨false, 37, -2⟩] ∧
      Json.IsWritten (.value (.array [(Outcome.parsed document).json.tree]))
        (respond .standard (shareEnvironment "0.37%") shareLine).output := by
  obtain ⟨document, read, reals⟩ := exists_of_readsShare "0.37%"
    (.ofDecimal ⟨false, 37, -2⟩) (by decide +kernel) (by decide +kernel)
  have complete := parseOutcomes_share .standard read
  have finite : ∀ outcome ∈ [Outcome.parsed document], outcome.IsFinite := by
    rw [← isFinite_array_iff complete]
    intro number member
    have only : number ∈ document.record.reals := by
      simpa [Json.reals, Json.elementReals, Outcome.reals_json, Outcome.reals] using member
    rw [reals, List.mem_singleton] at only
    rw [only]
    trivial
  obtain ⟨_, written, _⟩ := isJson_respond_iff Toolkit.keepsPlain_standard
    (asks_share "0.37%") rfl complete
  exact ⟨document, complete, reals, (written finite).1⟩

/-- A share that is more than floating-point numbers can hold is not printed as JSON. -/
theorem not_isJson_respond_share :
    ∃ document, parseOutcomes .standard (shareEnvironment "1e999%") shareOptions = .ok [.parsed document] ∧
      ¬Json.IsJson (respond .standard (shareEnvironment "1e999%") shareLine).output := by
  obtain ⟨document, read, reals⟩ := exists_of_readsShare "1e999%"
    (.infinite false) (by decide +kernel) (by decide +kernel)
  have complete := parseOutcomes_share .standard read
  refine ⟨document, complete, ?_⟩
  rw [respond_of_asks (asks_share _), output_of_json Toolkit.keepsPlain_standard rfl complete,
    Json.isJson_line_iff]
  intro finite
  apply finite (.infinite false)
  simp [Json.reals, Json.elementReals, Outcome.reals_json, Outcome.reals, reals]

end Run

end RelayDescriptor
