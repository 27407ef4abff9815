import RelayDescriptor.Proofs.Command.JsonReport
import RelayDescriptor.Proofs.Command.Loading
import RelayDescriptor.Proofs.Report.Told
import RelayDescriptor.Proofs.Tools.CommandLines

/-!
# What a run reports

A run whose configuration is loaded and whose inputs are read reports the results of all inputs, in
the order of the paths.  Its status tells whether one of them is refused, whatever form the report
has and however much of it is wanted.  If an input does not exist nothing is reported, but the status
tells so only if every path can be looked up.
-/

namespace RelayDescriptor

namespace Report

variable {results : List Outcome}

/-- The results that are refusals. -/
def refused (results : List Outcome) : List Outcome :=
  results.filter fun outcome => !outcome.isParsed

/-- The line with the numbers of results and of refusals. -/
def summary (results : List Outcome) : Text :=
  s!"{results.length} document(s), {(refused results).length} unparseable".toList

theorem refusals_eq_length (results : List Outcome) :
    refusals results = (refused results).length := by
  rw [refusals, refused, List.countP_eq_length_filter]

variable {styling : Styling}

/-- With less than usual wanted exactly the refusals have a line. -/
theorem lines_of_neg {level : Int} (quiet : level < 0) :
    lines styling level results = (refused results).map (Outcome.heading styling) := by
  rw [lines, if_neg (by omega), List.append_nil, refused]
  induction results with
  | nil => rfl
  | cons outcome results induction =>
      rw [List.flatMap_cons, induction, Outcome.lines_of_neg quiet]
      cases parsed : outcome.isParsed <;> simp [parsed]

/-- Usually every result has a line. -/
theorem lines_zero : lines styling 0 results = results.map (Outcome.heading styling) := by
  have each : Outcome.lines styling 0 = fun outcome => [outcome.heading styling] :=
    funext fun _ => Outcome.lines_zero styling
  rw [lines, if_neg (Int.lt_irrefl 0), List.append_nil, each, ← List.map_eq_flatMap]

/-- With more than usual wanted the lines of results have details below them, and there is a
summary. -/
theorem lines_of_pos {level : Int} (verbose : 0 < level) :
    lines styling level results =
      results.flatMap (fun outcome => outcome.heading styling :: outcome.details styling) ++
        [summary results] := by
  have each : Outcome.lines styling level =
      fun outcome => outcome.heading styling :: outcome.details styling :=
    funext fun _ => Outcome.lines_of_pos verbose styling
  rw [lines, if_pos verbose, summary, refusals_eq_length, each]

/-- As JSON every result has an object that tells of it. -/
theorem exists_json (results : List Outcome) :
    ∃ objects, List.Forall₂ Outcome.IsTold results objects ∧
      json results = Json.render .indented (.array objects) := by
  refine ⟨results.map Outcome.json, ?_, rfl⟩
  rw [List.forall₂_map_right_iff, List.forall₂_same]
  exact fun outcome _ => outcome.isTold_json

end Report

namespace Run

variable {tools : Toolkit} {environment : Environment} {line : List Text} {common : CommonOptions}
  {options : ParseOptions} {names : List Text} {settings : Settings} {level threshold : Int}
  {input : List UInt8} {paths : List Text} {blobs : List Blob} {results : List Outcome}

/-! ## Inputs -/

/-- Inputs are read in the order of their paths.  Standard input has nothing left when it is read
again. -/
inductive Reads (environment : Environment) : List UInt8 → List Text → List Blob → Prop
  | nil (input : List UInt8) : Reads environment input [] []
  | standardInput {input : List UInt8} {paths : List Text} {blobs : List Blob}
      (rest : Reads environment [] paths blobs) :
      Reads environment input (standardInput :: paths) (⟨input, some standardOrigin⟩ :: blobs)
  | file {input content : List UInt8} {path : Text} {paths : List Text} {blobs : List Blob}
      (named : path ≠ Run.standardInput)
      (found : environment.entry (FileName.normal path) = .file content)
      (rest : Reads environment input paths blobs) :
      Reads environment input (path :: paths) (⟨content, some path⟩ :: blobs)

/-- The paths of a task: standard input if there is none. -/
def namedPaths (options : ParseOptions) : List Text :=
  if options.paths.isEmpty then [standardInput] else options.paths

/-- A path whose file cannot be looked up. -/
def IsHidden (environment : Environment) (path : Text) (error : SystemError) : Prop :=
  path ≠ standardInput ∧ environment.entry (FileName.normal path) = .hidden error

/-- A path under which there is nothing: its name leads nowhere, or is longer than names can be. -/
def IsMissing (environment : Environment) (path : Text) : Prop :=
  ∃ error, IsHidden environment path error ∧ (error.isAbsence = true ∨ error = .tooLong)

/-- A path whose file cannot be looked up, for a reason that is not known to mean that there is
none. -/
def Fails (environment : Environment) (path : Text) (error : SystemError) : Prop :=
  IsHidden environment path error ∧ error.isAbsence = false

theorem testMissing_eq_true_iff {path : Text} : testMissing environment path = .ok true ↔
    ∃ error, IsHidden environment path error ∧ error.isAbsence = true := by
  rw [testMissing]
  split
  next same => simp [IsHidden, same]
  next named =>
    simp [map_eq_ok_iff, FileEntry.isThere_eq_false_iff, IsHidden, named]

theorem testMissing_eq_error_iff {path : Text} {error : SystemError} :
    testMissing environment path = .error error ↔ Fails environment path error := by
  rw [testMissing]
  split
  next same => simp [Fails, IsHidden, same]
  next named =>
    rw [map_eq_error_iff, FileEntry.isThere_eq_error_iff, Fails, IsHidden, and_iff_right named]

/-- A path that can be looked up either leads nowhere or not. -/
theorem exists_testMissing_iff {path : Text} :
    (∃ passes, testMissing environment path = .ok passes) ↔
      ∀ error, ¬Fails environment path error := by
  cases tested : testMissing environment path with
  | error error =>
      have fails := testMissing_eq_error_iff.mp tested
      simpa using ⟨error, fails⟩
  | ok passes =>
      simp only [Except.ok.injEq, exists_eq', true_iff]
      intro error fails
      rw [testMissing_eq_error_iff.mpr fails] at tested
      cases tested

theorem blobs_eq_ok_iff :
    Run.blobs environment input paths = .ok blobs ↔ Reads environment input paths blobs := by
  constructor
  · intro read
    induction paths generalizing input blobs with
    | nil =>
        cases read
        exact .nil input
    | cons path paths induction =>
        rw [Run.blobs] at read
        split at read
        next same =>
          obtain ⟨rest, others, rfl⟩ := map_eq_ok_iff.mp read
          rw [same]
          exact .standardInput (induction others)
        next named =>
          split at read
          next => cases read
          next content found =>
            obtain ⟨rest, others, rfl⟩ := map_eq_ok_iff.mp read
            exact .file named (Configuration.file_of_read found) (induction others)
  · intro reads
    induction reads with
    | nil input => rfl
    | standardInput _ induction =>
        rw [Run.blobs, if_pos rfl, induction]
        rfl
    | file named found _ induction =>
        rw [Run.blobs, if_neg named, found, FileEntry.read, induction]
        rfl

theorem Reads.not_isHidden (reads : Reads environment input paths blobs) :
    ∀ path ∈ paths, ∀ error, ¬IsHidden environment path error := by
  induction reads with
  | nil => simp
  | standardInput _ induction =>
      exact List.forall_mem_cons.mpr ⟨fun _ hidden => hidden.1 rfl, induction⟩
  | file _ found _ induction =>
      refine List.forall_mem_cons.mpr ⟨fun error hidden => ?_, induction⟩
      rw [IsHidden, found] at hidden
      cases hidden.2

/-- The first path that fails to be looked up. -/
def FirstFails (environment : Environment) (paths : List Text) (path : Text)
    (error : SystemError) : Prop :=
  ∃ before after, paths = before ++ path :: after ∧
    (∀ earlier ∈ before, ∀ other, ¬Fails environment earlier other) ∧ Fails environment path error

theorem missing_eq_error_iff {failure : Unreachable} :
    missing environment paths = .error failure ↔
      FirstFails environment paths failure.name failure.error := by
  rw [missing, FileName.select_eq_error_iff]
  simp only [exists_testMissing_iff, testMissing_eq_error_iff]
  constructor
  · rintro ⟨before, path, after, error, split, each, fails, rfl⟩
    exact ⟨before, after, split, each, fails⟩
  · rintro ⟨before, after, split, each, fails⟩
    exact ⟨before, _, after, _, split, each, fails, rfl⟩

theorem exists_missing (fine : ∀ path ∈ paths, ∀ error, ¬Fails environment path error) :
    ∃ names, missing environment paths = .ok names ∧ ∀ path, path ∈ names ↔
      path ∈ paths ∧ ∃ error, IsHidden environment path error ∧ error.isAbsence = true := by
  cases found : missing environment paths with
  | error failure =>
      obtain ⟨before, after, rfl, _, fails⟩ := missing_eq_error_iff.mp found
      exact absurd fails (fine _ (by simp) _)
  | ok names =>
      refine ⟨names, rfl, fun path => ?_⟩
      rw [(FileName.of_select found).2, testMissing_eq_true_iff]

theorem inputs_eq_ok_iff : inputs environment options.paths = .ok blobs ↔
    Reads environment environment.input (namedPaths options) blobs := by
  rw [← blobs_eq_ok_iff, inputs, ← namedPaths]
  constructor
  · intro read
    split at read
    next => cases read
    next => exact mapError_eq_ok_iff.mp read
    next => cases read
  · intro read
    have fine := (blobs_eq_ok_iff.mp read).not_isHidden
    obtain ⟨names, found, among⟩ := exists_missing fun path member error fails =>
      fine path member error fails.1
    have none : names = [] := by
      rw [List.eq_nil_iff_forall_not_mem]
      intro path member
      obtain ⟨inside, error, hidden, _⟩ := (among path).mp member
      exact fine path inside error hidden
    rw [found, none]
    dsimp only
    rw [read]
    rfl

theorem inputs_of_firstFails {path : Text} {error : SystemError}
    (first : FirstFails environment options.paths path error) :
    inputs environment options.paths =
      .error (.escape (.unreachable ⟨FileName.normal path, error⟩)) := by
  have given : options.paths.isEmpty = false := by
    obtain ⟨before, after, split, _⟩ := first
    rw [split]
    simp
  have failure : missing environment options.paths = .error ⟨path, error⟩ :=
    missing_eq_error_iff.mpr first
  rw [inputs, given, if_neg Bool.false_ne_true, failure]

theorem exists_firstFails
    (failing : ¬∀ path ∈ paths, ∀ error, ¬Fails environment path error) :
    ∃ path error, FirstFails environment paths path error := by
  cases found : missing environment paths with
  | error failure => exact ⟨_, _, missing_eq_error_iff.mp found⟩
  | ok names =>
      refine absurd (fun path member => ?_) failing
      exact exists_testMissing_iff.mp ((FileName.of_select found).1 path member)

theorem inputs_of_isMissing {path : Text} (member : path ∈ options.paths)
    (absent : IsMissing environment path)
    (fine : ∀ path ∈ options.paths, ∀ error, ¬Fails environment path error) :
    ∃ names, inputs environment options.paths = .error (.error (.missingInputs names)) := by
  obtain ⟨names, found, among⟩ := exists_missing fine
  have inside : path ∈ names := by
    obtain ⟨error, hidden, _⟩ := absent
    refine (among path).mpr ⟨member, error, hidden, ?_⟩
    by_contra present
    exact fine path member error ⟨hidden, Bool.eq_false_iff.mpr present⟩
  have given : options.paths.isEmpty = false :=
    List.isEmpty_eq_false_iff.mpr (List.ne_nil_of_mem member)
  rw [inputs, given, if_neg Bool.false_ne_true, found]
  cases names with
  | nil => cases inside
  | cons name names => exact ⟨name :: names, rfl⟩

/-! ## Results -/

/-- How an input is read: as strictly as either the options or the settings ask for, by the hint of
the options before that of the settings. -/
def effective (options : ParseOptions) (settings : Settings) (blob : Blob) : Reading where
  blob := blob
  strict := options.strict || settings.strict
  hint := (options.hint.or settings.hint).map .named
  window := settings.window

theorem readingOf_eq (options : ParseOptions) (settings : Settings) (blob : Blob) :
    readingOf options settings blob = effective options settings blob := by
  rw [readingOf, Reading.of, effective]
  cases options.strict <;> cases options.hint <;> rfl

/-- All inputs are read, and each of them gives a part of the results. -/
def Gives (environment : Environment) (options : ParseOptions) (settings : Settings)
    (results : List Outcome) : Prop :=
  ∃ blobs parts, Reads environment environment.input (namedPaths options) blobs ∧
    List.Forall₂ (fun blob part => (effective options settings blob).outcomes = .ok part)
      blobs parts ∧ results = parts.flatten

/-- The results of a run are those that the inputs give. -/
theorem parseOutcomes_eq_ok_iff (listed : configurationFiles environment options = .ok names)
    (loaded : Configuration.load (Configuration.document tools environment) names =
      .ok settings) :
    parseOutcomes tools environment options = .ok results ↔
      Gives environment options settings results := by
  have parts (blobs : List Blob) : outcomes (blobs.map (readingOf options settings)) =
        .ok results ↔
      ∃ parts, List.Forall₂ (fun blob part => (effective options settings blob).outcomes = .ok part)
        blobs parts ∧ results = parts.flatten := by
    simp only [outcomes_eq_ok_iff, List.forall₂_map_left_iff, readingOf_eq]
  rw [parseOutcomes, readings_of_load listed loaded]
  constructor
  · intro complete
    obtain ⟨readings, asked, complete⟩ := bind_eq_ok_iff.mp complete
    obtain ⟨blobs, found, rfl⟩ := map_eq_ok_iff.mp asked
    obtain ⟨chosen, each, same⟩ := (parts blobs).mp complete
    exact ⟨blobs, chosen, inputs_eq_ok_iff.mp found, each, same⟩
  · rintro ⟨blobs, chosen, reads, each, same⟩
    rw [inputs_eq_ok_iff.mpr reads]
    exact (parts blobs).mpr ⟨chosen, each, same⟩

/-- Every combination of options with which a verbosity can be told is asked for by a command
line. -/
theorem asks_commandLine (noDirectory : ∀ name ∈ options.configuration,
      environment.entry name ≠ .directory) (told : common.verbose = 0 ∨ common.quiet = 0)
    (unset : environment.valueOf? thresholdVariable = none) :
    ∃ level, Asks .standard environment (commandLine common options) common options level
      Log.defaultThreshold := by
  have verbosity : ∃ level, verbosity common.verbose common.quiet = .ok level := by
    have notBoth : ¬(0 < common.verbose ∧ 0 < common.quiet) := by omega
    rw [RelayDescriptor.verbosity, if_neg notBoth]
    split <;> exact ⟨_, rfl⟩
  obtain ⟨level, same⟩ := verbosity
  refine ⟨level, Toolkit.request_standard (Invocation.read_commandLine common noDirectory), same, ?_⟩
  rw [unset]
  rfl

theorem Asks.level_of_quiet (asks : Asks tools environment line common options level threshold)
    (quiet : 0 < common.quiet) : level < 0 := by
  have same := asks.verbosity_eq
  rw [verbosity, if_pos quiet] at same
  split at same
  next => cases same
  next =>
    cases same
    decide

theorem Asks.level_eq (asks : Asks tools environment line common options level threshold)
    (usual : common.quiet = 0) : level = common.verbose := by
  have same := asks.verbosity_eq
  rw [verbosity, usual, if_neg (by omega), if_neg (by omega)] at same
  cases same
  rfl

/-- The status of a run with results. -/
theorem parse_of_results (complete : parseOutcomes tools environment options = .ok results)
    (styled : Bool) (level threshold : Int) :
    let response := parse tools environment styled level threshold options
    response.escape = none ∧
      response.status.code = (if Report.refused results = [] then 0 else 65) ∧
      response.output = written tools styled
        (reportLines (tools.stylingFor styled) level options.format results) := by
  rw [parse, complete]
  dsimp only
  rw [Report.refusals_eq_length]
  refine ⟨rfl, ?_, rfl⟩
  cases Report.refused results <;> rfl

/-- A run whose inputs cannot be read is stopped. -/
theorem parse_of_inputs (listed : configurationFiles environment options = .ok names)
    (loaded : Configuration.load (Configuration.document tools environment) names = .ok settings)
    {stop : Stop} (stops : inputs environment options.paths = .error stop) (styled : Bool)
    (level threshold : Int) :
    parse tools environment styled level threshold options =
      stopped tools (logText threshold fun _ => parseRemarks tools environment options) styled
        stop := by
  have without : parseOutcomes tools environment options = .error stop := by
    rw [parseOutcomes, readings_of_load listed loaded, stops]
    rfl
  rw [parse, without]
  cases stop <;> rfl

/-- The first path that cannot be looked up lets its error escape, and nothing is reported. -/
theorem parse_of_firstFails (listed : configurationFiles environment options = .ok names)
    (loaded : Configuration.load (Configuration.document tools environment) names = .ok settings)
    {path : Text} {error : SystemError}
    (first : FirstFails environment options.paths path error) (styled : Bool)
    (level threshold : Int) :
    let response := parse tools environment styled level threshold options
    response.escape = some (.unreachable ⟨FileName.normal path, error⟩) ∧
      response.status.code = 1 ∧ response.output = [] := by
  rw [parse_of_inputs listed loaded (inputs_of_firstFails first)]
  exact ⟨rfl, rfl, rfl⟩

/-- A run with a path that is not there reports nothing, and says so unless another path cannot be
looked up. -/
theorem parse_of_isMissing (listed : configurationFiles environment options = .ok names)
    (loaded : Configuration.load (Configuration.document tools environment) names = .ok settings)
    {path : Text} (member : path ∈ options.paths) (absent : IsMissing environment path)
    (styled : Bool) (level threshold : Int) :
    let response := parse tools environment styled level threshold options
    response.output = [] ∧ (response.escape = none ∧ response.status.code = 66 ↔
      ∀ path ∈ options.paths, ∀ error, ¬Fails environment path error) := by
  intro response
  by_cases fine : ∀ path ∈ options.paths, ∀ error, ¬Fails environment path error
  · obtain ⟨names, stops⟩ := inputs_of_isMissing member absent fine
    have ended : response = _ := parse_of_inputs listed loaded stops styled level threshold
    rw [ended]
    exact ⟨rfl, fun _ => fine, fun _ => ⟨rfl, rfl⟩⟩
  · obtain ⟨other, error, first⟩ := exists_firstFails fine
    obtain ⟨escapes, _, silent⟩ :=
      parse_of_firstFails listed loaded first styled level threshold
    refine ⟨silent, ?_, fun all => absurd all fine⟩
    rintro ⟨calm, _⟩
    rw [escapes] at calm
    cases calm

/-- The lines that are told of the results, by how often more or less than usual is asked for. -/
theorem Asks.lines (asks : Asks tools environment line common options level threshold)
    (styling : Styling) (results : List Outcome) :
    (0 < common.quiet → Report.lines styling level results =
        (Report.refused results).map (Outcome.heading styling)) ∧
      (common.quiet = 0 → common.verbose = 0 → Report.lines styling level results =
        results.map (Outcome.heading styling)) ∧
      (common.quiet = 0 → 0 < common.verbose → Report.lines styling level results =
        results.flatMap (fun outcome => outcome.heading styling :: outcome.details styling) ++
          [Report.summary results]) := by
  refine ⟨?_, ?_, ?_⟩
  · intro quiet
    exact Report.lines_of_neg (asks.level_of_quiet quiet)
  · intro usual plain
    rw [asks.level_eq usual, plain, Int.natCast_zero, Report.lines_zero]
  · intro usual verbose
    have above : 0 < level := by
      rw [asks.level_eq usual]
      omega
    exact Report.lines_of_pos above

/-! ## A descriptor and a file that is none -/

section Pair

/-- The leading line of an extra-info descriptor and nothing else, in a file. -/
def bareReading : Reading :=
  ⟨⟨"extra-info\n".toList.map Ascii.byte, some ['b']⟩, false, some (.named "extra-info".toList),
    Blob.usualWindow⟩

theorem exists_refusal_bareReading :
    ∃ refusal, bareReading.outcomes = .ok [.refused refusal] := by
  have detected : bareReading.blob.detect bareReading.hint bareReading.window = .ok .extraInfo :=
    rfl
  have refuses : (bareReading.attempt shareGrammar
      (Document.wholeRange bareReading.blob.data)).toOption.map Outcome.isParsed = some false := by
    decide +kernel
  cases attempted : bareReading.attempt shareGrammar
      (Document.wholeRange bareReading.blob.data) with
  | error interruption =>
      rw [attempted] at refuses
      cases refuses
  | ok outcome =>
      cases outcome with
      | parsed document =>
          rw [attempted] at refuses
          cases refuses
      | refused refusal =>
          exact ⟨refusal, Reading.outcomes_of_isWhole detected rfl (by decide +kernel) attempted⟩

/-- A descriptor stands on standard input, and the file is there; names must not be too long. -/
def pairEnvironment (share : String) : Environment :=
  ⟨[], fun name => if name = ['b'] then .file bareReading.blob.data
    else if 255 < name.length then .hidden .tooLong else .missing, ['/'], shareText share, false⟩

def pairOptions (format : Format) (paths : List Text) : ParseOptions :=
  ⟨paths, false, some "extra-info".toList, [], true, format⟩

def pairLine (format : Format) (paths : List Text) : List Text :=
  commandLine ⟨0, 1, none, false⟩ (pairOptions format paths)

theorem asks_pair (share : String) (format : Format) (paths : List Text) :
    Asks .standard (pairEnvironment share) (pairLine format paths) ⟨0, 1, none, false⟩
      (pairOptions format paths) (-1) Log.defaultThreshold :=
  ⟨Toolkit.request_standard (Invocation.read_commandLine _ (by simp [pairOptions])), rfl, rfl⟩

theorem gives_pair {share : String} {first second : List Outcome} (format : Format)
    (piped : (shareReading share).outcomes = .ok first)
    (filed : bareReading.outcomes = .ok second) :
    Gives (pairEnvironment share) (pairOptions format [standardInput, ['b']])
      ⟨false, Blob.usualWindow, none, []⟩ (first ++ second) := by
  have reads : Reads (pairEnvironment share) (shareText share) [standardInput, ['b']]
      [(shareReading share).blob, bareReading.blob] :=
    .standardInput (.file (by decide) rfl (.nil []))
  exact ⟨_, [first, second], reads, .cons piped (.cons filed .nil), by simp⟩

end Pair

/-! ## The report -/

/-- With its configuration loaded a run reports the results of all inputs, in the order of the
paths, and ends with 65 if one of them is a refusal and with 0 if there is none.  As text it leaves
out the documents, and no refusal, if less than usual is wanted.  If an input is not there nothing
is reported, and the run ends with 66 exactly if all paths can be looked up; else the first failure
to look one up escapes. -/
theorem respond_reports (keeps : tools.KeepsPlain)
    (asks : Asks tools environment line common options level threshold)
    (listed : configurationFiles environment options = .ok names)
    (loaded : Configuration.load (Configuration.document tools environment) names =
      .ok settings) :
    let response := respond tools environment line
    let styled := isStyled environment common
    let styling := tools.stylingFor styled
    (∀ results, Gives environment options settings results →
      response.escape = none ∧
      response.status.code = (if Report.refused results = [] then 0 else 65) ∧
      (options.format = .json → ∃ objects, List.Forall₂ Outcome.IsTold results objects ∧
        response.output = Json.render .indented (.array objects) ++ ['\n']) ∧
      (options.format = .text →
        (0 < common.quiet → response.output =
          written tools styled ((Report.refused results).map (Outcome.heading styling))) ∧
        (common.quiet = 0 → common.verbose = 0 → response.output =
          written tools styled (results.map (Outcome.heading styling))) ∧
        (common.quiet = 0 → 0 < common.verbose → response.output =
          written tools styled (results.flatMap (fun outcome =>
            outcome.heading styling :: outcome.details styling) ++
              [Report.summary results])))) ∧
      ((∃ path ∈ options.paths, IsMissing environment path) →
        response.output = [] ∧ (response.escape = none ∧ response.status.code = 66 ↔
          ∀ path ∈ options.paths, ∀ error, ¬Fails environment path error)) ∧
      ∀ path error, FirstFails environment options.paths path error →
        response.escape = some (.unreachable ⟨FileName.normal path, error⟩) ∧
          response.status.code = 1 ∧ response.output = [] := by
  intro response styled styling
  have same : response = parse tools environment styled level threshold options :=
    respond_of_asks asks
  rw [same]
  refine ⟨?_, ?_, ?_⟩
  · intro results gives
    have complete := (parseOutcomes_eq_ok_iff listed loaded).mpr gives
    obtain ⟨calm, status, output⟩ := parse_of_results complete styled level threshold
    refine ⟨calm, status, ?_, ?_⟩
    · intro json
      obtain ⟨objects, told, printed⟩ := Report.exists_json results
      refine ⟨objects, told, ?_⟩
      rw [output, json, reportLines, printed, Json.written_render keeps]
    · intro text
      rw [text, reportLines] at output
      obtain ⟨quietly, usually, fully⟩ := asks.lines styling results
      refine ⟨?_, ?_, ?_⟩
      · intro quiet
        rw [output, quietly quiet]
      · intro usual plain
        rw [output, usually usual plain]
      · intro usual verbose
        rw [output, fully usual verbose]
  · rintro ⟨path, member, absent⟩
    exact parse_of_isMissing listed loaded member absent styled level threshold
  · intro path error first
    exact parse_of_firstFails listed loaded first styled level threshold

/-- Of a document and a refusal only the refusal has a line if less than usual is wanted, while both
have an object, and none of them is reported if an input is not there. -/
theorem respond_reports_pair :
    let response := fun format paths =>
      respond .standard (pairEnvironment "0.37%") (pairLine format paths)
    (∃ document refusal,
      Gives (pairEnvironment "0.37%") (pairOptions .text [standardInput, ['b']])
        ⟨false, Blob.usualWindow, none, []⟩ [.parsed document, .refused refusal] ∧
      (response .text [standardInput, ['b']]).status.code = 65 ∧
      (response .text [standardInput, ['b']]).output =
        written .standard false [Outcome.heading (fun _ word => word) (.refused refusal)] ∧
      ∃ told refused, Outcome.IsTold (.parsed document) told ∧
        Outcome.IsTold (.refused refusal) refused ∧
        (response .json [standardInput, ['b']]).output =
          Json.render .indented (.array [told, refused]) ++ ['\n']) ∧
      (response .text [standardInput, ['z']]).status.code = 66 ∧
        (response .text [standardInput, ['z']]).output = [] := by
  intro response
  obtain ⟨document, piped, _⟩ := exists_of_readsShare "0.37%"
    (.ofDecimal ⟨false, 37, -2⟩) (by decide +kernel) (by decide +kernel)
  obtain ⟨refusal, filed⟩ := exists_refusal_bareReading
  constructor
  · obtain ⟨_, status, _, text⟩ := (respond_reports Toolkit.keepsPlain_standard
      (asks_pair "0.37%" .text [standardInput, ['b']]) rfl rfl).1 _ (gives_pair .text piped filed)
    obtain ⟨_, _, json, _⟩ := (respond_reports Toolkit.keepsPlain_standard
      (asks_pair "0.37%" .json [standardInput, ['b']]) rfl rfl).1 _ (gives_pair .json piped filed)
    obtain ⟨objects, told, printed⟩ := json rfl
    refine ⟨document, refusal, gives_pair .text piped filed, status,
      (text rfl).1 (by decide), ?_⟩
    obtain ⟨first, others, parsed, rest, rfl⟩ := List.forall₂_cons_left_iff.mp told
    obtain ⟨second, none, refused, last, rfl⟩ := List.forall₂_cons_left_iff.mp rest
    obtain rfl := List.forall₂_nil_left_iff.mp last
    exact ⟨first, second, parsed, refused, printed⟩
  · obtain ⟨silent, ends⟩ := (respond_reports Toolkit.keepsPlain_standard
      (asks_pair "0.37%" .text [standardInput, ['z']]) rfl rfl).2.1
        ⟨['z'], by simp [pairOptions], .missing, ⟨by decide, rfl⟩, .inl rfl⟩
    refine ⟨(ends.mpr ?_).2, silent⟩
    intro path member error fails
    rcases List.mem_cons.mp member with rfl | last
    · exact fails.1.1 rfl
    · cases List.mem_singleton.mp last
      obtain ⟨⟨_, hidden⟩, present⟩ := fails
      cases hidden
      cases present

/-- A name that is too long for any file to have it does not make a run end with 66. -/
theorem not_respond_missing_tooLong :
    let path : Text := List.replicate 300 'a'
    let environment := pairEnvironment ""
    let options := pairOptions .text [path]
    let response := respond .standard environment (pairLine .text [path])
    (configurationFiles environment options = .ok [] ∧
        Configuration.load (Configuration.document .standard environment) [] =
          .ok ⟨false, Blob.usualWindow, none, []⟩) ∧
      IsMissing environment path ∧ response.status.code = 1 ∧
        response.escape = some (.unreachable ⟨path, .tooLong⟩) := by
  intro path environment options response
  have hidden : IsHidden environment path .tooLong := ⟨by decide, by decide +kernel⟩
  have first : FirstFails environment options.paths path .tooLong :=
    ⟨[], [], rfl, by simp, hidden, rfl⟩
  refine ⟨⟨rfl, rfl⟩, ⟨_, hidden, .inr rfl⟩, ?_⟩
  have ended : response = stopped .standard _ false
      (.escape (.unreachable ⟨FileName.normal path, .tooLong⟩)) :=
    (respond_of_asks (asks_pair "" .text [path])).trans
      (parse_of_inputs rfl rfl (inputs_of_firstFails first) _ _ _)
  have normal : FileName.normal path = path := by decide +kernel
  rw [ended, normal]
  exact ⟨rfl, rfl⟩

end Run

end RelayDescriptor
