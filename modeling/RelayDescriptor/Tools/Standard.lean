import RelayDescriptor.Command.Toolkit
import RelayDescriptor.Tools.Invocation
import RelayDescriptor.Tools.Toml.Document

/-!
# The tools of the program

The tools with which the program is run: a reader of the TOML notation, a reader of
command lines, and the control sequences of terminals.
-/

namespace RelayDescriptor

namespace Toml

/-- What is said about a text that is not in the notation. -/
def description : String := "the file is not a TOML document"

/-- A flaw as the command learns of it.  A table that is given again in a way that only shows when
tables are put together is not among the flaws of the notation. -/
def Flaw.ofDocument : Flaw → DocumentFlaw
  | .invalid => .malformed description
  | .repeatedKey key => .foreign "KeyAlreadyPresent" s!"Key \"{shown key}\" already exists."
  | .redefinition => .foreign "TOMLKitError" "Redefinition of an existing table"

end Toml

/-- The tools of the program. -/
def Toolkit.standard : Toolkit where
  document := fun text => (Toml.document text).mapError Toml.Flaw.ofDocument
  request := fun environment line =>
    (Invocation.read environment line).mapError Invocation.refusal
  help := Invocation.usage
  styling := Style.onTerminal
  plain := ControlSequence.strip

end RelayDescriptor
