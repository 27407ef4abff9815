import RelayDescriptor.Text.Ascii

/-!
# Arguments of a command

A command line is read into options and positional arguments.  Options begin with a
minus sign; a lone minus sign is positional, and after a double minus sign
everything is.
-/

namespace RelayDescriptor

/-- Why a command line is refused. -/
inductive UsageError where
  | unknownOption (name : Text)
  | unexpectedValue (name : Text)
  | missingValue (name : Text)
  | badChoice (name value : Text)
  | unexpectedArgument (argument : Text)
  | unknownCommand (name : Text)
  | directoryGiven (name value : Text)
  deriving Repr, DecidableEq

namespace UsageError

/-- The wording of a usage error. -/
def message : UsageError → String
  | .unknownOption name => s!"No such option: {shown name}"
  | .unexpectedValue name => s!"Option '{shown name}' does not take a value."
  | .missingValue name => s!"Option '{shown name}' requires an argument."
  | .badChoice name value => s!"Invalid value for '{shown name}': {shown value}"
  | .unexpectedArgument argument => s!"Got unexpected extra argument ({shown argument})"
  | .unknownCommand name => s!"No such command '{shown name}'."
  | .directoryGiven name value =>
      s!"Invalid value for '{shown name}': File '{shown value}' is a directory."

end UsageError

/-- An option that a command understands. -/
structure OptionRule where
  /-- The name with two minus signs. -/
  long : String
  /-- The letter after a single minus sign. -/
  short : Option Char
  /-- Whether the option has a value. -/
  valued : Bool

/-- An option as it was given; its rule is known by its long name. -/
structure GivenOption where
  long : String
  value : Text
  deriving Repr, DecidableEq

/-- The options and the positional arguments of a command line. -/
structure Arguments where
  options : List GivenOption
  positional : List Text
  deriving Repr, DecidableEq

namespace Arguments

/-- The arguments with an option in front. -/
def withOption (given : GivenOption) (arguments : Arguments) : Arguments :=
  { arguments with options := given :: arguments.options }

/-- The arguments with several options in front. -/
def withOptions (given : List GivenOption) (arguments : Arguments) : Arguments :=
  { arguments with options := given ++ arguments.options }

/-- The arguments with a positional one in front. -/
def withPositional (argument : Text) (arguments : Arguments) : Arguments :=
  { arguments with positional := argument :: arguments.positional }

/-- The name and the value of a long option that has a sign of equality. -/
def nameAndValue (argument : Text) : Text × Option Text :=
  match Text.cutFirst? '=' argument with
  | some (name, value) => (name, some value)
  | none => (argument, none)

/-- The rule of a long name. -/
def longRule? (rules : List OptionRule) (name : Text) : Option OptionRule :=
  rules.find? fun rule => rule.long.toList = name

/-- The options that the letters after a single minus sign stand for, none of which has a value. -/
def letters (rules : List OptionRule) : Text → Except UsageError (List GivenOption)
  | [] => .ok []
  | letter :: text =>
      match rules.find? fun rule => rule.short = some letter with
      | none => .error (.unknownOption ['-', letter])
      | some rule => (letters rules text).map (⟨rule.long, []⟩ :: ·)

/-- Whether an argument is an option. -/
def isOption (argument : Text) : Bool := argument.head? = some '-' && 1 < argument.length

/-- What an argument asks for: options that are complete, or an option whose value is the next
argument. -/
inductive Reading where
  | complete (given : List GivenOption)
  | pending (long : String)

/-- Reads an option. -/
def option (rules : List OptionRule) (argument : Text) : Except UsageError Reading :=
  let (name, value) := nameAndValue argument
  match longRule? rules name, value with
  | some rule, some value =>
      if rule.valued then .ok (.complete [⟨rule.long, value⟩]) else .error (.unexpectedValue name)
  | some rule, none =>
      if rule.valued then .ok (.pending rule.long) else .ok (.complete [⟨rule.long, []⟩])
  | none, _ =>
      match argument with
      | '-' :: '-' :: _ => .error (.unknownOption name)
      | _ => (letters rules (argument.drop 1)).map .complete

/-- Reads a command line.  Where options and positional arguments must not be mixed, the first
positional argument ends the options. -/
def read (rules : List OptionRule) (mixed : Bool) : List Text → Except UsageError Arguments
  | [] => .ok ⟨[], []⟩
  | argument :: rest =>
      if argument = ['-', '-'] then .ok ⟨[], rest⟩
      else if isOption argument then
        match option rules argument with
        | .error error => .error error
        | .ok (.complete given) => (read rules mixed rest).map (withOptions given)
        | .ok (.pending long) =>
            match rest with
            | [] => .error (.missingValue argument)
            | value :: rest => (read rules mixed rest).map (withOption ⟨long, value⟩)
      else if mixed then (read rules mixed rest).map (withPositional argument)
      else .ok ⟨[], argument :: rest⟩

/-- How often an option was given. -/
def count (long : String) (arguments : Arguments) : Nat :=
  arguments.options.countP fun given => given.long = long

/-- Whether an option was given. -/
def has (long : String) (arguments : Arguments) : Bool := 0 < arguments.count long

/-- The values of an option in order. -/
def values (long : String) (arguments : Arguments) : List Text :=
  (arguments.options.filter fun given => given.long = long).map GivenOption.value

/-- The value that was given last. -/
def value? (long : String) (arguments : Arguments) : Option Text :=
  (arguments.values long).getLast?

/-- The choice that was given last, in letters of any case. -/
def choice? {α : Type} (long : String) (choices : List (String × α)) (arguments : Arguments) :
    Except UsageError (Option α) :=
  match arguments.value? long with
  | none => .ok none
  | some value =>
      match choices.find? fun (name, _) => name.toList = value.map Char.toLower with
      | some (_, choice) => .ok (some choice)
      | none => .error (.badChoice long.toList value)

end Arguments

end RelayDescriptor
