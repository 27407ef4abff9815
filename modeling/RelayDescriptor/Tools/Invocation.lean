import RelayDescriptor.Command.Options
import RelayDescriptor.Tools.Arguments
import RelayDescriptor.Tools.Terminal

/-!
# Invocations

How a command line is taken apart: the options before the name of a command, that name,
and the options and arguments of the command.
-/

namespace RelayDescriptor

namespace Invocation

/-- The help on the program. -/
def usage : List Text :=
  [
    "Usage: descparse [OPTIONS] COMMAND [ARGS]...",
    "",
    "  DescParse: parse and validate relay descriptor documents.",
    "",
    "Commands:",
    "  kinds    List the known document kinds.",
    "  parse    Parse descriptor documents from files or STDIN.",
    "  version  Show the current version of DescParse."
  ].map String.toList

/-- The option that asks for help. -/
def helpRule : OptionRule := ⟨"--help", some 'h', false⟩

/-- The option for the form of a report. -/
def formatRule : OptionRule := ⟨"--format", none, true⟩

/-- The options before the name of a command. -/
def commonRules : List OptionRule :=
  [⟨"--verbose", some 'v', false⟩, ⟨"--quiet", some 'q', false⟩, ⟨"--color", none, true⟩,
    ⟨"--no-color", none, false⟩, helpRule]

/-- The options of the command that parses documents. -/
def parseRules : List OptionRule :=
  [⟨"--strict", none, false⟩, ⟨"--type", none, true⟩, ⟨"--config", none, true⟩,
    ⟨"--no-config", none, false⟩, formatRule, helpRule]

/-- The options of the commands that only report something. -/
def reportRules : List OptionRule := [formatRule, helpRule]

/-- The form of a report that was asked for. -/
def format (arguments : Arguments) : Except UsageError Format := do
  return (← arguments.choice? formatRule.long Format.named).getD .text

/-- The task of parsing documents.  A configuration file must not be a directory. -/
def parseTask (environment : Environment) (arguments : Arguments) : Except UsageError Task := do
  let configuration := arguments.values "--config"
  let format ← format arguments
  match configuration.find? fun name => environment.entry name = .directory with
  | some name => .error (.directoryGiven "--config".toList name)
  | none =>
      return .parse {
        paths := arguments.positional
        strict := arguments.has "--strict"
        hint := arguments.value? "--type"
        configuration
        noConfiguration := arguments.has "--no-config"
        format
      }

/-- The task of a command that only reports something, with no positional arguments. -/
def reportTask (task : Format → Task) (arguments : Arguments) : Except UsageError Task := do
  let format ← format arguments
  match arguments.positional with
  | [] => return task format
  | argument :: _ => .error (.unexpectedArgument argument)

/-- The task of a command, unless help is asked for. -/
def taskOf (rules : List OptionRule) (read : Arguments → Except UsageError Task)
    (line : List Text) : Except UsageError Task := do
  let arguments ← Arguments.read rules true line
  if arguments.has helpRule.long then return .help else read arguments

/-- How the task of a command is read, by the name of the command. -/
def command? (environment : Environment) (name : Text) :
    Option (List Text → Except UsageError Task) :=
  if name = "parse".toList then some (taskOf parseRules (parseTask environment))
  else if name = "kinds".toList then some (taskOf reportRules (reportTask .kinds))
  else if name = "version".toList then some (taskOf reportRules (reportTask .version))
  else none

/-- Whether what stands in the place of a command is a request for help. -/
def asksForHelp (line : List Text) : Except UsageError Bool :=
  (Arguments.read commonRules false line).map (Arguments.has helpRule.long)

/-- What is said about a refused command line. -/
def refusal (error : UsageError) : Text :=
  (usage.take 1 ++ [("Error: " ++ error.message).toList]).flatMap fun line =>
    ControlSequence.strip line ++ ['\n']

/-- Reads a command line. -/
def read (environment : Environment) (line : List Text) : Except UsageError Request := do
  let arguments ← Arguments.read commonRules false line
  if arguments.has helpRule.long then return .help
  let colour ← arguments.choice? "--color" ColourMode.named
  let common : CommonOptions :=
    ⟨arguments.count "--verbose", arguments.count "--quiet", colour,
      arguments.has "--no-color"⟩
  match arguments.positional with
  | [] => return .task common (.ok .none)
  | name :: rest =>
      match command? environment name with
      | some read => return .task common ((read rest).mapError refusal)
      | none =>
          if ← asksForHelp (name :: rest) then return .help
          else .error (.unknownCommand name)

end Invocation

end RelayDescriptor
