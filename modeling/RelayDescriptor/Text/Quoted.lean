import RelayDescriptor.Text.Printable

/-!
# Quoted rendering

A text or a byte string is shown between quotes, with everything that cannot be
printed written as an escape.  Single quotes are used unless the content holds a
single quote and no double quote.
-/

namespace RelayDescriptor

/-- The lower-case hexadecimal digit of a number below sixteen. -/
def hexDigit (n : Nat) : Char :=
  if n < 10 then Char.ofNat (0x30 + n) else Char.ofNat (0x57 + n)

/-- The last `width` hexadecimal digits of a number. -/
def hexDigits : Nat → Nat → Text
  | 0, _ => []
  | width + 1, n => hexDigits width (n / 16) ++ [hexDigit (n % 16)]

namespace Quoted

/-- The quote that surrounds a content. -/
def mark (content : Text) : Char :=
  if content.contains '\'' && !content.contains '"' then '"' else '\''

/-- The escape of a code point, as short as its size allows. -/
def escape (code : Nat) : Text :=
  if code < 0x100 then '\\' :: 'x' :: hexDigits 2 code
  else if code < 0x10000 then '\\' :: 'u' :: hexDigits 4 code
  else '\\' :: 'U' :: hexDigits 8 code

/-- One character between the given quotes. -/
def character (quote c : Char) : Text :=
  if c = quote || c = '\\' then ['\\', c]
  else if c = '\n' then ['\\', 'n']
  else if c = '\r' then ['\\', 'r']
  else if c = '\t' then ['\\', 't']
  else if isPrintable c then [c]
  else escape c.toNat

/-- A text between quotes. -/
def text (content : Text) : Text :=
  let quote := mark content
  quote :: content.flatMap (character quote) ++ [quote]

/-- A byte string between quotes, marked with a leading letter; bytes outside printable ASCII
are escaped. -/
def bytes (content : List UInt8) : Text :=
  let characters := content.map fun byte => Char.ofNat byte.toNat
  let quote := mark characters
  let shownByte := fun (c : Char) => if c.toNat < 0x7F then character quote c else escape c.toNat
  'b' :: quote :: characters.flatMap shownByte ++ [quote]

/-- Texts in quotes, in square brackets. -/
def list (contents : List Text) : Text :=
  '[' :: Text.joinWith [',', ' '] (contents.map text) ++ [']']

end Quoted

end RelayDescriptor
