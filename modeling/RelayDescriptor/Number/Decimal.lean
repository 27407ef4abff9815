import RelayDescriptor.Number.Numeral

/-!
# Decimal numbers

A decimal number is kept exactly, as a sign, a whole mantissa and a power of ten.
Its text has digits with an optional point and an optional exponent of any size.
-/

namespace RelayDescriptor

/-- The number `± mantissa · 10 ^ exponent`. -/
structure Decimal where
  negative : Bool
  mantissa : Nat
  exponent : Int
  deriving Repr, DecidableEq

namespace Decimal

/-- The exponent that a text writes after the letter, with an optional sign. -/
def exponent? : Text → Option Int
  | '-' :: digits => if Numeral.isUnsigned digits then some (-(Numeral.value digits : Int)) else none
  | '+' :: digits => if Numeral.isUnsigned digits then some (Numeral.value digits : Int) else none
  | digits => if Numeral.isUnsigned digits then some (Numeral.value digits : Int) else none

/-- The exponent that follows the mantissa, which may be absent. -/
def suffix? : Text → Option Int
  | [] => some 0
  | c :: text => if c = 'e' ∨ c = 'E' then exponent? text else none

/-- The number that a text without a sign writes: digits before or after the point, or both. -/
def magnitude? (negative : Bool) (text : Text) : Option Decimal :=
  let whole := text.takeWhile Char.isDigit
  match text.dropWhile Char.isDigit with
  | '.' :: rest =>
      let fraction := rest.takeWhile Char.isDigit
      if whole.isEmpty && fraction.isEmpty then none
      else (suffix? (rest.dropWhile Char.isDigit)).map fun exponent =>
        ⟨negative, Numeral.value (whole ++ fraction), exponent - fraction.length⟩
  | rest =>
      if whole.isEmpty then none
      else (suffix? rest).map fun exponent => ⟨negative, Numeral.value whole, exponent⟩

/-- The number that a text writes. -/
def ofText? : Text → Option Decimal
  | '-' :: text => magnitude? true text
  | text => magnitude? false text

/-- Whether the number is below zero. -/
def IsNegative (d : Decimal) : Prop := d.negative = true ∧ d.mantissa ≠ 0

instance (d : Decimal) : Decidable d.IsNegative := inferInstanceAs (Decidable (_ ∧ _))

end Decimal

end RelayDescriptor
