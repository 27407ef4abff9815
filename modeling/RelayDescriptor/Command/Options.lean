import RelayDescriptor.Command.Environment

/-!
# Options

What a command line can ask for.  Options before the name of a command hold for all
commands.  They are acted on before the options of the command itself are checked, so a
refusal of the latter is part of what is asked for.
-/

namespace RelayDescriptor

/-- The options that all commands have. -/
structure CommonOptions where
  /-- How often more output was asked for. -/
  verbose : Nat
  /-- How often less output was asked for. -/
  quiet : Nat
  colour : Option ColourMode
  noColour : Bool
  deriving Repr, DecidableEq

/-- The options of the command that parses documents. -/
structure ParseOptions where
  /-- The names of the inputs; none stands for standard input. -/
  paths : List Text
  strict : Bool
  hint : Option Text
  /-- Configuration files beside those of the current directory. -/
  configuration : List Text
  /-- Whether the files of the current directory are left out. -/
  noConfiguration : Bool
  format : Format
  deriving Repr, DecidableEq

/-- What a command is to do. -/
inductive Task where
  /-- No command was named. -/
  | none
  | help
  | parse (options : ParseOptions)
  | kinds (format : Format)
  | version (format : Format)
  deriving Repr, DecidableEq

/-- What a command line asks for; a refusal comes with what is said about it. -/
inductive Request where
  | help
  | task (common : CommonOptions) (task : Except Text Task)

end RelayDescriptor
