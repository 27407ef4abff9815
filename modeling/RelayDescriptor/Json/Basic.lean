import RelayDescriptor.Number.Shortest
import RelayDescriptor.Text.Quoted

/-!
# JSON

JSON values and their text in ASCII.  Other characters are written as escapes of
their UTF-16 units.  The text is either on one line or indented by two spaces for
each level.
-/

namespace RelayDescriptor

/-- A JSON value. -/
inductive Json where
  | null
  | bool (value : Bool)
  | integer (value : Int)
  | real (value : Binary64)
  | text (value : Text)
  | array (elements : List Json)
  | object (members : List (Text × Json))
  deriving Repr

namespace Json

/-- How numbers are written.  Infinity and what is not a number are written by name, which other
readers of JSON may refuse. -/
def numbers : NumberStyle := ⟨16, -3, 2, "Infinity".toList, "NaN".toList⟩

/-- The escape of a UTF-16 unit. -/
def unitEscape (unit : Nat) : Text := '\\' :: 'u' :: hexDigits 4 unit

/-- The escape of a code point; above 16 bits it has two units. -/
def codeEscape (code : Nat) : Text :=
  if code < 0x10000 then unitEscape code
  else
    let beyond := code - 0x10000
    unitEscape (0xD800 + beyond / 0x400) ++ unitEscape (0xDC00 + beyond % 0x400)

/-- A character within a string. -/
def character (c : Char) : Text :=
  match c with
  | '"' => ['\\', '"']
  | '\\' => ['\\', '\\']
  | '\n' => ['\\', 'n']
  | '\r' => ['\\', 'r']
  | '\t' => ['\\', 't']
  | '\x08' => ['\\', 'b']
  | '\x0c' => ['\\', 'f']
  | _ => if 0x20 ≤ c.toNat ∧ c.toNat ≤ 0x7E then [c] else codeEscape c.toNat

/-- A string. -/
def string (content : Text) : Text := '"' :: content.flatMap character ++ ['"']

/-- A line break and the indentation of a level. -/
def lineBreak (level : Nat) : Text := '\n' :: List.replicate (2 * level) ' '

/-- What stands after an opening bracket, between neighbours, and before a closing bracket. -/
structure Spacing where
  opening : Nat → Text
  between : Nat → Text
  closing : Nat → Text

namespace Spacing

/-- Everything on one line. -/
def oneLine : Spacing := ⟨fun _ => [], fun _ => [' '], fun _ => []⟩

/-- One line for each element, indented by its level. -/
def indented : Spacing where
  opening := fun level => lineBreak (level + 1)
  between := fun level => lineBreak (level + 1)
  closing := lineBreak

end Spacing

mutual

/-- The text of a value at a level. -/
def textAt (spacing : Spacing) (level : Nat) : Json → Text
  | .null => "null".toList
  | .bool true => "true".toList
  | .bool false => "false".toList
  | .integer n => (toString n).toList
  | .real number => numbers.text number
  | .text content => string content
  | .array [] => ['[', ']']
  | .array elements =>
      '[' :: spacing.opening level ++ elementsText spacing level elements ++
        spacing.closing level ++ [']']
  | .object [] => ['\x7b', '\x7d']
  | .object members =>
      '\x7b' :: spacing.opening level ++ membersText spacing level members ++
        spacing.closing level ++ ['\x7d']

/-- The text of the elements of an array at a level. -/
def elementsText (spacing : Spacing) (level : Nat) : List Json → Text
  | [] => []
  | [element] => textAt spacing (level + 1) element
  | element :: elements =>
      textAt spacing (level + 1) element ++ ',' :: spacing.between level ++
        elementsText spacing level elements

/-- The text of the members of an object at a level. -/
def membersText (spacing : Spacing) (level : Nat) : List (Text × Json) → Text
  | [] => []
  | [(key, value)] => string key ++ ':' :: ' ' :: textAt spacing (level + 1) value
  | (key, value) :: members =>
      string key ++ ':' :: ' ' :: textAt spacing (level + 1) value ++
        ',' :: spacing.between level ++ membersText spacing level members

end

/-- The text of a value. -/
def render (spacing : Spacing) (value : Json) : Text := textAt spacing 0 value

end Json

end RelayDescriptor
