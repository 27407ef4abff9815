import RelayDescriptor.Number.Decimal

/-!
# Binary floating-point numbers

The numbers of the 64-bit binary format, held as whole mantissas and powers of
two, so that all arithmetic is exact.  A decimal number is rounded to the nearest
of them; of two equally near ones the one with the even mantissa is taken.
-/

namespace RelayDescriptor

/-- A number of the 64-bit binary format. -/
inductive Binary64 where
  /-- The number `± mantissa · 2 ^ exponent`. -/
  | finite (negative : Bool) (mantissa : Nat) (exponent : Int)
  | infinite (negative : Bool)
  | notANumber
  deriving Repr, DecidableEq

namespace Binary64

/-- The number of bits of a full mantissa. -/
def precision : Nat := 53

/-- The least exponent. -/
def leastExponent : Int := -1074

/-- The greatest exponent of a full mantissa. -/
def greatestExponent : Int := 971

/-- Zero with a sign. -/
def zero (negative : Bool) : Binary64 := .finite negative 0 leastExponent

/-- The quotient rounded to the nearest whole number, a half going to the even neighbour. -/
def roundDiv (numerator denominator : Nat) : Nat :=
  let quotient := numerator / denominator
  let twice := 2 * (numerator % denominator)
  if twice < denominator then quotient
  else if denominator < twice then quotient + 1
  else quotient + quotient % 2

/-- A fraction divided by a power of two and rounded. -/
def scaledRound (numerator denominator : Nat) (exponent : Int) : Nat :=
  if 0 ≤ exponent then roundDiv numerator (denominator * Nat.pow 2 exponent.toNat)
  else roundDiv (numerator * Nat.pow 2 (-exponent).toNat) denominator

/-- Whether a fraction is at least `2 ^ exponent`. -/
def reaches (numerator denominator : Nat) (exponent : Int) : Bool :=
  if 0 ≤ exponent then decide (denominator * Nat.pow 2 exponent.toNat ≤ numerator)
  else decide (denominator ≤ numerator * Nat.pow 2 (-exponent).toNat)

/-- The exponent with which a positive fraction fills the mantissa, but at least the least one. -/
def fittingExponent (numerator denominator : Nat) : Int :=
  let estimate : Int := (Nat.log2 numerator : Int) - Nat.log2 denominator
  let order := if reaches numerator denominator estimate then estimate else estimate - 1
  max (order - (precision - 1 : Nat)) leastExponent

/-- The nearest number to a positive fraction with a sign. -/
def ofFraction (negative : Bool) (numerator denominator : Nat) : Binary64 :=
  let exponent := fittingExponent numerator denominator
  let mantissa := scaledRound numerator denominator exponent
  let carried := mantissa = Nat.pow 2 precision
  let mantissa := if carried then Nat.pow 2 (precision - 1) else mantissa
  let exponent := if carried then exponent + 1 else exponent
  if greatestExponent < exponent then .infinite negative else .finite negative mantissa exponent

/-- The power of ten from which every number of at least one digit is beyond the format. -/
def overflowOrder : Int := 310

/-- The power of ten below which every number is rounded to zero. -/
def underflowOrder : Int := -330

/-- The nearest number to a decimal number. -/
def ofDecimal (d : Decimal) : Binary64 :=
  let order : Int := d.exponent + (Nat.toDigits 10 d.mantissa).length
  if d.mantissa = 0 || order < underflowOrder then zero d.negative
  else if overflowOrder < order then .infinite d.negative
  else if 0 ≤ d.exponent then ofFraction d.negative (d.mantissa * Nat.pow 10 d.exponent.toNat) 1
  else ofFraction d.negative d.mantissa (Nat.pow 10 (-d.exponent).toNat)

/-- Whether the number is below zero; a zero with a minus sign is not. -/
def isNegative : Binary64 → Bool
  | .finite negative mantissa _ => negative && mantissa != 0
  | .infinite negative => negative
  | .notANumber => false

/-- The weight of the lowest exponent bit, which is also that of the mantissa's hidden one. -/
def exponentWeight : Nat := Nat.pow 2 (precision - 1)

/-- The weight of the sign bit, above eleven exponent bits. -/
def signWeight : Nat := Nat.pow 2 11 * exponentWeight

/-- The exponent bits of infinity and of what is not a number. -/
def exceptionalExponent : Nat := Nat.pow 2 11 - 1

/-- The sign bit, eleven exponent bits and 52 mantissa bits, as one whole number. -/
def bits : Binary64 → Nat
  | .finite negative mantissa exponent =>
      let sign := if negative then signWeight else 0
      if mantissa < exponentWeight then sign + mantissa
      else
        let stored := (exponent - leastExponent + 1).toNat
        sign + stored * exponentWeight + (mantissa - exponentWeight)
  | .infinite negative =>
      (if negative then signWeight else 0) + exceptionalExponent * exponentWeight
  | .notANumber => exceptionalExponent * exponentWeight + exponentWeight / 2

end Binary64

end RelayDescriptor
