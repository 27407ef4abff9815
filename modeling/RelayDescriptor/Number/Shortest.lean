import RelayDescriptor.Number.Binary64

/-!
# Shortest decimals

A floating-point number is written with the fewest decimal digits that read back
as the same number, and among those with the digits nearest to it.  For each count
of digits only the two neighbours of the number on that decimal grid need a look.
-/

namespace RelayDescriptor

namespace Shortest

/-- A fraction of two whole numbers. -/
structure Fraction where
  numerator : Nat
  denominator : Nat
  deriving Repr, DecidableEq

/-- The size of a finite floating-point number. -/
def magnitude (mantissa : Nat) (exponent : Int) : Fraction :=
  if 0 ≤ exponent then ⟨mantissa * Nat.pow 2 exponent.toNat, 1⟩
  else ⟨mantissa, Nat.pow 2 (-exponent).toNat⟩

/-- A fraction divided by a power of ten. -/
def Fraction.scaled (f : Fraction) (power : Int) : Fraction :=
  if 0 ≤ power then ⟨f.numerator, f.denominator * Nat.pow 10 power.toNat⟩
  else ⟨f.numerator * Nat.pow 10 (-power).toNat, f.denominator⟩

/-- The whole part of a fraction. -/
def Fraction.floor (f : Fraction) : Nat := f.numerator / f.denominator

/-- The number of digits of a whole number. -/
def digitCount (n : Nat) : Nat := (Nat.toDigits 10 n).length

/-- The power of ten of the first digit of a positive fraction. -/
def leadingPower (f : Fraction) : Int :=
  let estimate : Int := (digitCount f.numerator : Int) - digitCount f.denominator
  if (f.scaled estimate).floor = 0 then estimate - 1 else estimate

/-- The neighbours of a number on a decimal grid that read back as the number, the nearest
first; of two equally near ones the even one comes first. -/
def candidates (number : Binary64) (f : Fraction) (power : Int) : List Nat :=
  let scaled := f.scaled power
  let below := scaled.floor
  let twice := 2 * (scaled.numerator - below * scaled.denominator)
  let belowFirst :=
    twice < scaled.denominator || (twice == scaled.denominator && below % 2 == 0)
  let ordered := if belowFirst then [below, below + 1] else [below + 1, below]
  ordered.filter fun n => Binary64.ofDecimal ⟨false, n, power⟩ = number

/-- Searches the grids of the given counts of digits for the first with a candidate. -/
def search (number : Binary64) (f : Fraction) (leading : Int) : List Nat → Option (Nat × Int)
  | [] => none
  | count :: counts =>
      let power := leading - (count - 1 : Nat)
      match candidates number f power with
      | n :: _ => some (n, power)
      | [] => search number f leading counts

/-- The digits of a positive number without zeros at the end, and the position of the decimal
point relative to their beginning. -/
def digits (mantissa : Nat) (exponent : Int) : Text × Int :=
  let f := magnitude mantissa exponent
  let counts := (List.range 17).map (· + 1)
  match search (.finite false mantissa exponent) f (leadingPower f) counts with
  | none => (['0'], 1)
  | some (n, power) =>
      let written := Nat.toDigits 10 n
      let kept := (written.reverse.dropWhile (· == '0')).reverse
      (kept, (written.length : Int) + power)

end Shortest

/-- How numbers are laid out. -/
structure NumberStyle where
  /-- The greatest position of the point at which it is written among the digits. -/
  greatestPoint : Int
  /-- The least position of the point at which it is written among the digits. -/
  leastPoint : Int
  /-- The least number of digits of an exponent. -/
  exponentWidth : Nat
  /-- The text of infinity. -/
  infinity : Text
  /-- The text of what is not a number. -/
  notANumber : Text

namespace NumberStyle

/-- An exponent with its sign. -/
def exponent (style : NumberStyle) (power : Int) : Text :=
  let written := Nat.toDigits 10 power.natAbs
  let sign := if power < 0 then '-' else '+'
  sign :: List.replicate (style.exponentWidth - written.length) '0' ++ written

/-- Digits with the point at a position; a whole number has one zero after the point. -/
def layout (style : NumberStyle) (digits : Text) (point : Int) : Text :=
  if style.leastPoint ≤ point && point ≤ style.greatestPoint then
    if point ≤ 0 then '0' :: '.' :: List.replicate (-point).toNat '0' ++ digits
    else if digits.length ≤ point.toNat then
      digits ++ List.replicate (point.toNat - digits.length) '0' ++ ['.', '0']
    else digits.take point.toNat ++ '.' :: digits.drop point.toNat
  else
    let fraction := match digits.drop 1 with
      | [] => []
      | rest => '.' :: rest
    digits.take 1 ++ fraction ++ 'e' :: style.exponent (point - 1)

/-- The text of a number. -/
def text (style : NumberStyle) : Binary64 → Text
  | .finite negative mantissa exponent =>
      let unsigned :=
        if mantissa = 0 then ['0', '.', '0']
        else
          let (digits, point) := Shortest.digits mantissa exponent
          style.layout digits point
      if negative then '-' :: unsigned else unsigned
  | .infinite negative => if negative then '-' :: style.infinity else style.infinity
  | .notANumber => style.notANumber

end NumberStyle

end RelayDescriptor
