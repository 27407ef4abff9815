import RelayDescriptor.Field.Value
import RelayDescriptor.Line.Basic

/-!
# Decoders

A decoder turns a recognized line into the values of fields.  Most decoders write the
same fields whatever the line is; they are given by the names of these fields and by
what they read.
-/

namespace RelayDescriptor

namespace Token

/-- Requires a number of arguments. -/
def expectExactly (count : Nat) (token : Token) : Except Fault Unit :=
  if token.arguments.length = count then .ok ()
  else .error (.violation
    (.argumentCount token.keyword token.line false count token.arguments.length))

/-- Requires a least number of arguments. -/
def expectAtLeast (count : Nat) (token : Token) : Except Fault Unit :=
  if count ≤ token.arguments.length then .ok ()
  else .error (.violation
    (.argumentCount token.keyword token.line true count token.arguments.length))

/-- The arguments of a line with a given number of them; what another line reports follows from
`expectExactly`. -/
def argument (token : Token) (index : Nat) : Text := token.arguments[index]?.getD []

/-- The text after the keyword. -/
def rest (token : Token) : Text := Text.joinWith [' '] token.arguments

end Token

/-- A way to turn a line into the values of fields. -/
structure Decoder where
  /-- The names of the fields that a line writes. -/
  names : Token → List String
  /-- The values of those fields, in the same order. -/
  values : Token → Except Fault (List Value)

namespace Decoder

/-- The fields that a line writes, with their values. -/
def updates (decoder : Decoder) (token : Token) : Except Fault (List (String × Value)) :=
  (decoder.values token).map (decoder.names token).zip

/-- A decoder that writes some fields. -/
def ofFields (fields : List String) (read : Token → Except Fault (List Value)) : Decoder :=
  ⟨fun _ => fields, read⟩

@[simp] theorem names_ofFields (fields : List String) (read : Token → Except Fault (List Value))
    (token : Token) : (ofFields fields read).names token = fields := rfl

@[simp] theorem values_ofFields (fields : List String) (read : Token → Except Fault (List Value)) :
    (ofFields fields read).values = read := rfl

/-- A decoder for one field that looks at the whole line. -/
def ofToken (field : String) (read : Token → Except Fault Value) : Decoder :=
  ofFields [field] fun token => (read token).map fun value => [value]

/-- A decoder for one field and the only argument of a line. -/
def ofArgument (field : String) (read : (line argument : Text) → Except Fault Value) : Decoder :=
  ofToken field fun token => do
    token.expectExactly 1
    read token.line (token.argument 0)

/-- A date and a time of day. -/
def timestamp (field : String) : Decoder :=
  ofToken field fun token => do
    token.expectExactly 2
    return .integer (← RelayDescriptor.timestamp token.line token.arguments 0 1)

/-- A digest with a number of hexadecimal digits. -/
def hexDigest (field : String) (length : Int) : Decoder :=
  ofArgument field fun line argument =>
    (RelayDescriptor.hexDigest length line argument).map .text

/-- A number within bounds. -/
def integer (field : String) (bounds : Bounds) : Decoder :=
  ofArgument field fun line argument =>
    (RelayDescriptor.integer bounds line argument).map .integer

/-- The only argument as it stands. -/
def single (field : String) : Decoder := ofArgument field fun _ argument => .ok (.text argument)

/-- Everything after the keyword. -/
def text (field : String) : Decoder := ofToken field fun token => .ok (.text token.rest)

/-- All arguments. -/
def arguments (field : String) : Decoder :=
  ofToken field fun token => .ok (Value.texts token.arguments)

/-- All arguments, of which there must be at least some number. -/
def argumentsAtLeast (field : String) (count : Nat) : Decoder :=
  ofToken field fun token => do
    token.expectAtLeast count
    return .list (token.arguments.map .text)

/-- A percentage. -/
def share (field : String) : Decoder :=
  ofToken field fun token =>
    (RelayDescriptor.share token.line token.arguments).map .real

/-- A comma-separated list of keys with counts; a positive key length is required of all keys. -/
def keyValues (field : String) (keyLength : Int) : Decoder :=
  ofToken field fun token =>
    (keyValueList token.line token.arguments 0 keyLength).map .counts

/-- A list of keys with counts in one argument each. -/
def spacedKeyValues (field : String) : Decoder :=
  ofToken field fun token =>
    (RelayDescriptor.spacedKeyValues token.line token.arguments 0).map .counts

/-- A comma-separated list of numbers. -/
def integers (field : String) : Decoder :=
  ofToken field fun token =>
    (integerList token.line token.arguments 0).map Value.integers

/-- A comma-separated list of decimal numbers. -/
def decimals (field : String) : Decoder :=
  ofToken field fun token =>
    (decimalList token.line token.arguments 0).map Value.reals

/-- The end and the length of an interval. -/
def statsEnd (field : String) : Decoder :=
  ofToken field fun token =>
    (statsInterval token.line token.arguments).map .interval

/-- A bandwidth history. -/
def history (field : String) : Decoder :=
  ofToken field fun token =>
    (bandwidthHistory token.line token.arguments).map .history

/-- A field that is set by a line whatever its arguments are. -/
def mark (field : String) : Decoder := ofToken field fun _ => .ok (.flag true)

/-- A field that is set by a line without arguments. -/
def bare (field : String) : Decoder :=
  ofToken field fun token => do
    token.expectExactly 0
    return .flag true

/-- A line without arguments that sets no field. -/
def nothing : Decoder :=
  ofFields [] fun token => do
    token.expectExactly 0
    return []

end Decoder

end RelayDescriptor
