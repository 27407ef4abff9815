import RelayDescriptor.Command.Files

/-!
# The environment of a command

What a command can find out about the world: variables, files, standard input, and
whether its output is a terminal.  Variables and options together decide whether
output is styled.
-/

namespace RelayDescriptor

/-- The world as a command sees it. -/
structure Environment where
  /-- The variables that are set. -/
  definitions : List (Text × Text)
  /-- What stands under a name. -/
  entry : Text → FileEntry
  /-- The name of the current directory. -/
  directory : Text
  /-- The content of standard input. -/
  input : List UInt8
  /-- Whether standard output is a terminal. -/
  terminal : Bool

namespace Environment

/-- The value of a variable. -/
def valueOf? (environment : Environment) (name : String) : Option Text :=
  (environment.definitions.find? fun (key, _) => key = name.toList).map Prod.snd

end Environment

/-- When output is styled. -/
inductive ColourMode where
  | auto
  | always
  | never
  deriving Repr, DecidableEq

/-- The form of a report. -/
inductive Format where
  | text
  | json
  deriving Repr, DecidableEq

namespace ColourMode

/-- The modes by their names. -/
def named : List (String × ColourMode) :=
  [("auto", .auto), ("always", .always), ("never", .never)]

/-- The variable that asks for styles, unless it is empty or zero. -/
def forceVariable : String := "FORCE_COLOR"

/-- The variable that refuses styles, whatever its value. -/
def refuseVariable : String := "NO_COLOR"

/-- Whether a variable that asks for styles does so. -/
def isForced (value : Option Text) : Bool :=
  match value with
  | none => false
  | some text => !text.isEmpty && text != ['0']

/-- Whether output is styled: never in JSON, else as the mode says; without a definite mode, as
the variables say, and else if the output is a terminal. -/
def isStyled (mode : Option ColourMode) (format : Option Format) (environment : Environment) :
    Bool :=
  if format = some .json then false
  else match mode with
    | some .always => true
    | some .never => false
    | some .auto | none =>
        if isForced (environment.valueOf? forceVariable) then true
        else if (environment.valueOf? refuseVariable).isSome then false
        else environment.terminal

end ColourMode

namespace Format

/-- The forms by their names. -/
def named : List (String × Format) := [("text", .text), ("json", .json)]

end Format

end RelayDescriptor
