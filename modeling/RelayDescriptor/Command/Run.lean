import RelayDescriptor.Command.Configuration
import RelayDescriptor.Report.Outcomes

/-!
# Running commands

A run takes tools, an environment and a command line and yields a status and the texts of
both output streams.  The status tells how the run ended: well, with refused
documents, or with an error of a certain sort.  A fault that no sort of error covers
escapes from the run.
-/

namespace RelayDescriptor

/-- The version of the program. -/
def version : String := "0.1.0"

/-- How a run ends. -/
inductive ExitStatus where
  | success
  /-- A fault escaped. -/
  | failure
  /-- The command line is refused. -/
  | badArguments
  /-- The options contradict each other. -/
  | usage
  /-- At least one document is refused. -/
  | data
  /-- An input does not exist. -/
  | noInput
  /-- A grammar contradicts itself. -/
  | software
  /-- An input cannot be read. -/
  | io
  /-- A configuration file cannot be used. -/
  | configuration
  deriving Repr, DecidableEq

namespace ExitStatus

/-- The number of a status. -/
def code : ExitStatus → Nat
  | .success => 0
  | .failure => 1
  | .badArguments => 2
  | .usage => 64
  | .data => 65
  | .noInput => 66
  | .software => 70
  | .io => 74
  | .configuration => 78

end ExitStatus

/-- A fault that no sort of error covers. -/
inductive Escape where
  | interrupted (interruption : Interruption)
  | undecodable (flaw : Utf8.Flaw)
  | foreign (className message : String)
  | unreachable (failure : Unreachable)
  | threshold (flaw : Log.ThresholdFlaw)
  deriving Repr, DecidableEq

namespace Escape

/-- The name of the class of an escaping fault. -/
def className : Escape → String
  | .interrupted interruption => interruption.className
  | .undecodable _ => "UnicodeDecodeError"
  | .foreign className _ => className
  | .unreachable failure => failure.error.className
  | .threshold _ => "ValueError"

/-- The wording of an escaping fault. -/
def message : Escape → String
  | .interrupted interruption => interruption.message
  | .undecodable flaw => flaw.message
  | .foreign _ message => message
  | .unreachable failure => failure.error.message failure.name
  | .threshold flaw => flaw.message

end Escape

/-- What a run yields. -/
structure Response where
  status : ExitStatus
  output : Text
  errors : Text
  escape : Option Escape
  deriving Repr, DecidableEq

/-- Why a run ends early. -/
inductive RunError where
  | missingInputs (names : List Text)
  | unreadableInput (name : Text) (error : SystemError)
  | unreadableConfiguration (name : Text) (error : SystemError)
  | malformedConfiguration (name : Text) (description : String)
  | brokenGrammar (origin : String) (error : DefinitionError)
  | contradictoryVerbosity
  deriving Repr, DecidableEq

namespace RunError

/-- The status of an error. -/
def status : RunError → ExitStatus
  | .missingInputs _ => .noInput
  | .unreadableInput .. => .io
  | .unreadableConfiguration .. | .malformedConfiguration .. => .configuration
  | .brokenGrammar .. => .software
  | .contradictoryVerbosity => .usage

/-- The wording of an error.  A file is named as it was given, and in its normal form where the
cause mentions it. -/
def message : RunError → String
  | .missingInputs names => "No such file: " ++ shown (Text.joinWith ", ".toList names)
  | .unreadableInput name error =>
      s!"Cannot read {shown name}: " ++ error.message (FileName.normal name)
  | .unreadableConfiguration name error =>
      s!"Cannot read config file {shown name}: " ++ error.message name
  | .malformedConfiguration name description =>
      s!"Invalid TOML in {shown name}: {description}"
  | .brokenGrammar origin error =>
      s!"Internal error while parsing {origin}: {error.message}"
  | .contradictoryVerbosity =>
      "The '--verbose' and '--quiet' options are mutually exclusive."

end RunError

/-- How much output is wanted: less than zero for less than usual. -/
def verbosity (verbose quiet : Nat) : Except RunError Int :=
  if 0 < verbose ∧ 0 < quiet then .error .contradictoryVerbosity
  else if 0 < quiet then .ok (-1)
  else .ok verbose

namespace Run

/-- Why a task ends early. -/
inductive Stop where
  | error (error : RunError)
  | escape (escape : Escape)
  deriving Repr, DecidableEq

/-- The name of standard input among the paths. -/
def standardInput : Text := ['-']

/-- The origin of what is read from standard input. -/
def standardOrigin : Text := "<stdin>".toList

/-- Reads the inputs.  Standard input has nothing left when it is read again. -/
def blobs (environment : Environment) (input : List UInt8) :
    List Text → Except RunError (List Blob)
  | [] => .ok []
  | path :: paths =>
      if path = standardInput then
        (blobs environment [] paths).map (⟨input, some standardOrigin⟩ :: ·)
      else
        match (environment.entry (FileName.normal path)).read with
        | .error error => .error (.unreadableInput path error)
        | .ok content => (blobs environment input paths).map (⟨content, some path⟩ :: ·)

/-- Whether an input does not exist. -/
def testMissing (environment : Environment) (path : Text) : Except SystemError Bool :=
  if path = standardInput then .ok false
  else (environment.entry (FileName.normal path)).isThere.map (!·)

/-- The inputs that do not exist, unless one of them cannot be looked up. -/
def missing (environment : Environment) (paths : List Text) :
    Except Unreachable (List Text) :=
  FileName.select (testMissing environment) paths

/-- Reads the inputs, all of which must exist; no path at all stands for standard input. -/
def inputs (environment : Environment) (paths : List Text) : Except Stop (List Blob) :=
  let paths := if paths.isEmpty then [standardInput] else paths
  match missing environment paths with
  | .error failure => .error (.escape (.unreachable { failure with
      name := FileName.normal failure.name }))
  | .ok [] => (blobs environment environment.input paths).mapError .error
  | .ok names => .error (.error (.missingInputs names))

/-- The stop by a configuration file that cannot be used. -/
def configurationStop : ConfigurationFault → Stop
  | .unreadable name error => .error (.unreadableConfiguration name error)
  | .malformed name description => .error (.malformedConfiguration name description)
  | .undecodable flaw => .escape (.undecodable flaw)
  | .foreign className message => .escape (.foreign className message)

/-- The stop by an interruption.  Of these only the contradictory grammar is an error of a sort. -/
def readingStop (blob : Blob) : Interruption → Stop
  | .undefinable error => .error (.brokenGrammar blob.originText error)
  | interruption => .escape (.interrupted interruption)

/-- The configuration files of a task, unless one of those of the current directory cannot be looked
up. -/
def configurationFiles (environment : Environment) (options : ParseOptions) :
    Except Unreachable (List Text) :=
  (if options.noConfiguration then .ok [] else Configuration.discovered environment).map
    (· ++ options.configuration.map FileName.normal)

/-- How an input is read. -/
def readingOf (options : ParseOptions) (settings : Settings) (blob : Blob) : Reading :=
  Reading.of blob (if options.strict then some true else none) (options.hint.map .named) none
    (some settings)

/-- All results of all inputs. -/
def outcomes (readings : List Reading) : Except Stop (List Outcome) :=
  match readings with
  | [] => .ok []
  | reading :: readings =>
      match reading.outcomes with
      | .error interruption => .error (readingStop reading.blob interruption)
      | .ok first => (outcomes readings).map (first ++ ·)

/-- The remarks made while inputs are read; an interruption ends them. -/
def readingRemarks : List Reading → List LogEntry
  | [] => []
  | reading :: readings =>
      reading.remarks ++
        match reading.outcomes with
        | .error _ => []
        | .ok _ => readingRemarks readings

/-- The lines of a report on results. -/
def reportLines (styling : Styling) (verbosity : Int) (format : Format)
    (outcomes : List Outcome) : List Text :=
  match format with
  | .json => [Report.json outcomes]
  | .text => Report.lines styling verbosity outcomes

/-- The lines of the version. -/
def versionLines (styling : Styling) (verbosity : Int) : Format → List Text
  | .json =>
      [Json.render .oneLine (Json.ofMembers [("version", Json.ofString RelayDescriptor.version)])]
  | .text =>
      let number := styling .emphasized RelayDescriptor.version.toList
      if 0 < verbosity then
        [styling .heading "DescParse version:\n".toList, "    ".toList ++ number]
      else [number]

/-- The remarks that a threshold lets through, one on a line. -/
def logText (threshold : Int) (entries : Unit → List LogEntry) : Text :=
  if LogLevel.warning.rank < threshold then []
  else
    (Log.shownAt threshold (entries ())).flatMap fun entry =>
      (Log.line entry.level.rank entry.message).toList ++ ['\n']

/-- The variable that sets the threshold of the log. -/
def thresholdVariable : String := "DESCPARSE_LOG_LEVEL"

/-- Whether the common options ask for styles. -/
def isStyled (environment : Environment) (common : CommonOptions) : Bool :=
  let mode := if common.noColour then some ColourMode.never else common.colour
  ColourMode.isStyled mode none environment

/-- The response to a refused command line. -/
def refused (said : Text) : Response := ⟨.badArguments, [], said, none⟩

section Tools

variable (tools : Toolkit)

/-- The readings of a task. -/
def readings (environment : Environment) (options : ParseOptions) :
    Except Stop (List Reading) := do
  let names ← (configurationFiles environment options).mapError fun failure =>
    .escape (.unreachable failure)
  let settings ← (Configuration.load (Configuration.document tools environment) names).mapError
    configurationStop
  return (← inputs environment options.paths).map (readingOf options settings)

/-- The results of a task. -/
def parseOutcomes (environment : Environment) (options : ParseOptions) :
    Except Stop (List Outcome) := do
  outcomes (← readings tools environment options)

/-- The remarks made while a task is done. -/
def parseRemarks (environment : Environment) (options : ParseOptions) : List LogEntry :=
  let discovery :=
    if options.noConfiguration then [] else Configuration.discoveryRemarks environment
  let configuration := match configurationFiles environment options with
    | .error _ => []
    | .ok names => Configuration.remarks (Configuration.document tools environment) names
  let reading := match readings tools environment options with
    | .error _ => []
    | .ok readings => readingRemarks readings
  let summary := match parseOutcomes tools environment options with
    | .error _ => []
    | .ok outcomes =>
        [LogEntry.info
          s!"Parsed {outcomes.length} document(s), {Report.refusals outcomes} unparseable"]
  discovery ++ configuration ++ reading ++ summary

/-- Lines as they are written out: without styles unless they are wanted. -/
def written (styled : Bool) (lines : List Text) : Text :=
  lines.flatMap fun line => (if styled then line else tools.plain line) ++ ['\n']

/-- The line of an error. -/
def errorText (styled : Bool) (message : String) : Text :=
  written tools styled [("Error: " ++ message).toList]

/-- The response that lines are written. -/
def wrote (styled : Bool) (lines : List Text) : Response :=
  ⟨.success, written tools styled lines, [], none⟩

/-- The lines of a run without a command. -/
def hintLines : List Text :=
  "Hint: use 'descparse parse [PATHS...]' to parse descriptor files.".toList :: [] :: tools.help

/-- The response of the task of parsing documents. -/
def parse (environment : Environment) (styled : Bool) (verbosity threshold : Int)
    (options : ParseOptions) : Response :=
  let log := logText threshold fun _ => parseRemarks tools environment options
  match parseOutcomes tools environment options with
  | .error (.error error) =>
      ⟨error.status, [], log ++ errorText tools styled error.message, none⟩
  | .error (.escape escape) => ⟨.failure, [], log, some escape⟩
  | .ok outcomes =>
      let status := if Report.refusals outcomes = 0 then ExitStatus.success else .data
      let lines := reportLines (tools.stylingFor styled) verbosity options.format outcomes
      ⟨status, written tools styled lines, log, none⟩

/-- The response of a task. -/
def perform (environment : Environment) (styled : Bool) (verbosity threshold : Int) :
    Task → Response
  | .none => wrote tools styled (hintLines tools)
  | .help => wrote tools styled tools.help
  | .parse options => parse tools environment styled verbosity threshold options
  | .kinds .json => wrote tools styled [Report.kindsJson KindInfo.all]
  | .kinds .text =>
      wrote tools styled (Report.kindLines (tools.stylingFor styled) KindInfo.all)
  | .version format =>
      wrote tools styled (versionLines (tools.stylingFor styled) verbosity format)

/-- The response to a command line. -/
def respond (environment : Environment) (line : List Text) : Response :=
  match tools.request environment line with
  | .error said => refused said
  | .ok .help => wrote tools false tools.help
  | .ok (.task common task) =>
      match verbosity common.verbose common.quiet with
      | .error error => ⟨error.status, [], errorText tools false error.message, none⟩
      | .ok verbosity =>
          match Log.threshold? ((environment.valueOf? thresholdVariable).getD []) with
          | .error flaw => ⟨.failure, [], [], some (.threshold flaw)⟩
          | .ok asked =>
              match task with
              | .error said => refused said
              | .ok task =>
                  let threshold := asked.getD Log.defaultThreshold
                  let styled := isStyled environment common
                  perform tools environment styled verbosity threshold task

end Tools

end Run

end RelayDescriptor
