import RelayDescriptor.Command.Options
import RelayDescriptor.Report.Style
import RelayDescriptor.Settings.Setting

/-!
# Tools of a command

What a command does not do itself: reading the notation of settings documents, taking a
command line apart, and writing styles for a terminal.  All that is said of runs is said
for any tools, and what is expected of them is named.
-/

namespace RelayDescriptor

/-- Why a text is not read as a settings document. -/
inductive DocumentFlaw where
  /-- The text is not in the notation. -/
  | malformed (description : String)
  /-- The reader of documents fails in another way. -/
  | foreign (className message : String)
  deriving Repr, DecidableEq

/-- The tools of a command. -/
structure Toolkit where
  /-- Reads a settings document. -/
  document : Text → Except DocumentFlaw (OrderedMap Text Setting)
  /-- Takes a command line apart; a refusal is what is said about it. -/
  request : Environment → List Text → Except Text Request
  /-- The help on the program. -/
  help : List Text
  /-- Writes a word in a style. -/
  styling : Styling
  /-- Takes styles out of a text. -/
  plain : Text → Text

namespace Toolkit

/-- Every text is a document or is not in the notation. -/
def ReadsOrRefuses (tools : Toolkit) : Prop :=
  ∀ text className message, tools.document text ≠ .error (.foreign className message)

/-- A text in which no terminal is told of styles stays as it is. -/
def KeepsPlain (tools : Toolkit) : Prop :=
  ∀ text, Style.escape ∉ text → tools.plain text = text

/-- How words are written where styles are wanted or not. -/
def stylingFor (tools : Toolkit) (styled : Bool) : Styling :=
  if styled then tools.styling else fun _ word => word

end Toolkit

end RelayDescriptor
