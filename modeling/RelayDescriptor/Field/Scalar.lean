import RelayDescriptor.Failure
import RelayDescriptor.Number.Numeral

/-!
# Single values

Digests, nicknames, bounded numbers, port numbers and addresses.  Each reader takes the
whole line, which it only mentions when it refuses a value.
-/

namespace RelayDescriptor

/-- Reads a signed numeral; the digit limit is not the document's fault. -/
def readInteger (text : Text) : Except Fault Int :=
  (Numeral.readInt text).mapError fun count => .interrupted (.digitLimit count)

/-- Whether a character is a hexadecimal digit. -/
def isHexDigit (c : Char) : Bool :=
  c.isDigit || ('a' ≤ c && c ≤ 'f') || ('A' ≤ c && c ≤ 'F')

/-- Reads a digest with a given number of hexadecimal digits, as upper case. -/
def hexDigest (length : Int) (line value : Text) : Except Fault Text :=
  if (value.length : Int) = length ∧ value ≠ [] ∧ value.all isHexDigit then
    .ok (value.map Char.toUpper)
  else .error (.value line value s!"a {length}-character hex string")

/-- The usual number of hexadecimal digits of a digest. -/
def fingerprintLength : Int := 40

/-- Whether a text is a nickname: one to nineteen ASCII letters and digits. -/
def isNickname (value : Text) : Bool :=
  1 ≤ value.length && value.length ≤ 19 && value.all Char.isAlphanum

/-- Reads a nickname. -/
def nickname (line value : Text) : Except Fault Text :=
  if isNickname value then .ok value
  else .error (.value line value "a 1-19 character alphanumeric nickname")

/-- The least and the greatest number that are accepted. -/
structure Bounds where
  minimum : Option Int
  maximum : Option Int
  deriving Repr, DecidableEq

namespace Bounds

/-- No bounds. -/
def none : Bounds := ⟨.none, .none⟩

/-- A lower bound only. -/
def atLeast (minimum : Int) : Bounds := ⟨some minimum, .none⟩

/-- Bounds on both sides. -/
def between (minimum maximum : Int) : Bounds := ⟨some minimum, some maximum⟩

/-- What a number outside the bounds should have been; the lower bound is looked at first. -/
def refusal? (bounds : Bounds) (n : Int) : Option String :=
  match bounds with
  | ⟨some minimum, maximum⟩ =>
      if n < minimum then some s!"an integer >= {minimum}" else above? maximum
  | ⟨.none, maximum⟩ => above? maximum
where
  above? : Option Int → Option String
    | some maximum => if maximum < n then some s!"an integer <= {maximum}" else .none
    | .none => .none

end Bounds

/-- Reads a number within bounds. -/
def integer (bounds : Bounds) (line value : Text) : Except Fault Int :=
  if Numeral.isSigned value then
    match readInteger value with
    | .error fault => .error fault
    | .ok n =>
        match bounds.refusal? n with
        | some expected => .error (.value line value expected)
        | none => .ok n
  else .error (.value line value "an integer")

/-- Reads a port number. -/
def portNumber (line value : Text) : Except Fault Int := integer (.between 0 65535) line value

/-- Reads a number of seconds. -/
def seconds (line value : Text) : Except Fault Int :=
  if Numeral.isUnsigned value then readInteger value
  else .error (.value line value "a non-negative number of seconds")

/-- Whether a text is one of the four numbers of an address: one to three digits without a
leading zero, up to 255. -/
def isOctet (text : Text) : Bool :=
  Numeral.isUnsigned text && text.length ≤ 3 && (text == ['0'] || text.head? != some '0') &&
    Numeral.value text ≤ 255

/-- Whether a text is four numbers with points between them. -/
def isAddress (text : Text) : Bool :=
  let octets := Text.pieces '.' text
  octets.length == 4 && octets.all isOctet

/-- Reads an address. -/
def address (line value : Text) : Except Fault Text :=
  if isAddress value then .ok value else .error (.value line value "an IPv4 address")

end RelayDescriptor
