import RelayDescriptor.Settings.Setting
import RelayDescriptor.Tools.Toml.Quotation
import RelayDescriptor.Text.Blank
import RelayDescriptor.Text.Digit

/-!
# Numbers of settings documents

A number is a word whose first character after the sign decides on its base.  After
that character the decimal digits of every script count as digits, and blanks at the
end of the word count for nothing.
-/

namespace RelayDescriptor

namespace Toml

/-- Digits without the underscores between them; any other underscore is refused. -/
def joinDigits? (isDigit : Char → Bool) : Text → Option Text
  | [] => some []
  | ['_'] => none
  | '_' :: _ :: _ => none
  | a :: '_' :: b :: text =>
      if isDigit a && isDigit b then (joinDigits? isDigit (b :: text)).map (a :: ·) else none
  | c :: text => (joinDigits? isDigit text).map (c :: ·)

/-- A character of a number in its plain form: an ASCII digit for a decimal digit of any script, and
a space for a blank outside ASCII. -/
def plainCharacter (c : Char) : Char :=
  if c.toNat < 0x80 then c
  else if isBlank c then ' '
  else match decimalValue? c with
    | some digit => Char.ofNat (0x30 + digit)
    | none => c

/-- Whether a character is a space or one of the ASCII characters that move the position. -/
def isPlainBlank (c : Char) : Bool := c = ' ' || (0x09 ≤ c.toNat && c.toNat ≤ 0x0D)

/-- The plain form of a number: lower-case letters, ASCII digits and no blanks at the end. -/
def plainNumber (text : Text) : Text :=
  ((text.map fun c => plainCharacter c.toLower).reverse.dropWhile isPlainBlank).reverse

/-- The number that digits write in a base given by a power of two. -/
def basedNumber? (base : Nat) (digits : Text) : Option Nat :=
  if digits.isEmpty then none
  else digits.foldl
    (fun read c => do
      let digit ← Numeral.hexValue? c
      if digit < base then return (← read) * base + digit else none)
    (some 0)

/-- A number of a base that its beginning announces. -/
def basedInteger? (base : Nat) (digits : Text) : Option Setting :=
  let isDigit := fun (c : Char) => (Numeral.hexValue? c).any (· < base)
  ((joinDigits? isDigit digits).bind fun digits => basedNumber? base (plainNumber digits)).map
    fun n => .integer n

/-- Whether a number begins with a point, or with a zero that no point and no exponent follows. -/
def hasStrayStart : Text → Bool
  | '.' :: _ => true
  | '0' :: c :: _ => !(c = '.' || c = 'e' || c = 'E')
  | _ => false

/-- Whether a number ends with a point, or has one directly before its exponent. -/
def hasBarePoint (text : Text) : Bool :=
  text.getLast? = some '.' ||
    (text.takeWhile fun c => c != 'e' && c != 'E').getLast? = some '.'

/-- A number in decimal notation without a sign.  Whole numbers have a greatest number of digits. -/
def decimalNumber? (negative : Bool) (text : Text) : Option Setting := do
  let joined ← joinDigits? Char.isDigit text
  if hasStrayStart joined || hasBarePoint joined then none
  let digits := plainNumber joined
  if Numeral.isUnsigned digits then
    let n : Int := Numeral.value digits
    if digits.length ≤ Numeral.digitLimit then
      return .integer (if negative then -n else n)
    else none
  else return .real (Binary64.ofDecimal (← Decimal.magnitude? negative digits))

/-- The numbers that have names. -/
def namedNumber? (negative : Bool) (text : Text) : Option Setting :=
  if text = "inf".toList then some (.real (.infinite negative))
  else if text = "nan".toList then some (.real .notANumber)
  else none

/-- A number without a sign. -/
def unsignedNumber? (text : Text) : Option Setting :=
  match text with
  | '0' :: 'x' :: digits => basedInteger? 16 digits
  | '0' :: 'o' :: digits => basedInteger? 8 digits
  | '0' :: 'b' :: digits => basedInteger? 2 digits
  | _ => (namedNumber? false text).or (decimalNumber? false text)

/-- A number. -/
def number? : Text → Option Setting
  | '+' :: text => (namedNumber? false text).or (decimalNumber? false text)
  | '-' :: text => (namedNumber? true text).or (decimalNumber? true text)
  | text => unsignedNumber? text

end Toml

end RelayDescriptor
