import RelayDescriptor.Text.Basic

/-!
# Styled output

Words of a report can be coloured, bold or underlined.  A report only asks for a style;
how a word is written in it depends on where the report goes.
-/

namespace RelayDescriptor

/-- A colour of a word. -/
inductive Colour where
  | red
  | green
  | yellow
  deriving Repr, DecidableEq

/-- How a word is set off. -/
structure Style where
  colour : Option Colour
  bold : Bool
  underlined : Bool
  deriving Repr, DecidableEq

namespace Style

/-- The character with which terminals are told of styles. -/
def escape : Char := '\x1b'

/-- A word in a colour. -/
def coloured (colour : Colour) : Style := ⟨some colour, false, false⟩

/-- A bold word in a colour. -/
def strong (colour : Colour) : Style := ⟨some colour, true, false⟩

/-- A bold word. -/
def emphasized : Style := ⟨none, true, false⟩

/-- A bold and underlined heading. -/
def heading : Style := ⟨none, true, true⟩

end Style

/-- How words are written in styles. -/
abbrev Styling := Style → Text → Text

end RelayDescriptor
