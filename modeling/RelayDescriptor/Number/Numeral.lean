import RelayDescriptor.Text.Basic

/-!
# Numerals

Whole numbers written with ASCII digits.  A numeral with more than 4300 digits is
not read at all; that is not a fault of the document but a limit of the reader, so
it has an outcome of its own.
-/

namespace RelayDescriptor

namespace Numeral

/-- The greatest number of digits that is read. -/
def digitLimit : Nat := 4300

/-- What is said about a numeral with too many digits. -/
def limitMessage (count : Nat) : String :=
  "Exceeds the limit (4300 digits) for integer string conversion: value has " ++
    s!"{count} digits; use sys.set_int_max_str_digits() to increase the limit"

/-- Whether a text is a numeral without a sign. -/
def isUnsigned (text : Text) : Bool := !text.isEmpty && text.all Char.isDigit

/-- Whether a text is a numeral, perhaps with a minus sign. -/
def isSigned : Text → Bool
  | '-' :: digits => isUnsigned digits
  | text => isUnsigned text

/-- The value of an ASCII digit. -/
def digitValue (c : Char) : Nat := c.toNat - 0x30

/-- The value of a hexadecimal digit. -/
def hexValue? (c : Char) : Option Nat :=
  if c.isDigit then some (digitValue c)
  else if 'a' ≤ c ∧ c ≤ 'f' then some (c.toNat - 0x57)
  else if 'A' ≤ c ∧ c ≤ 'F' then some (c.toNat - 0x37)
  else none

/-- The number that digits write, from a number already read. -/
def valueFrom (read : Nat) (digits : Text) : Nat :=
  digits.foldl (fun n c => n * 10 + digitValue c) read

/-- The number that digits write. -/
def value (digits : Text) : Nat := valueFrom 0 digits

theorem valueFrom_append (read : Nat) (left right : Text) :
    valueFrom read (left ++ right) = valueFrom (valueFrom read left) right :=
  List.foldl_append

theorem valueFrom_eq (read : Nat) (digits : Text) :
    valueFrom read digits = read * Nat.pow 10 digits.length + value digits := by
  induction digits generalizing read with
  | nil => simp [valueFrom, value]
  | cons c digits induction =>
      have first := induction (read * 10 + digitValue c)
      have second := induction (0 * 10 + digitValue c)
      have power : Nat.pow 10 (digits.length + 1) = 10 * Nat.pow 10 digits.length :=
        Nat.pow_succ'
      simp only [valueFrom, value, List.foldl_cons] at first second ⊢
      rw [first, second, List.length_cons, power, Nat.zero_mul, Nat.zero_add, Nat.add_mul,
        Nat.add_assoc, Nat.mul_assoc]

/-- Reads a numeral without a sign, or reports its number of digits if that is too great. -/
def readNat (digits : Text) : Except Nat Nat :=
  if digits.length ≤ digitLimit then .ok (value digits) else .error digits.length

/-- Reads a numeral, or reports its number of digits if that is too great. -/
def readInt : Text → Except Nat Int
  | '-' :: digits => (readNat digits).map fun n => -(n : Int)
  | digits => (readNat digits).map fun n => (n : Int)

end Numeral

end RelayDescriptor
