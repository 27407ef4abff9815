import RelayDescriptor.Calendar
import RelayDescriptor.Field.Scalar

/-!
# Timestamps and intervals

A timestamp is a date and a time of day in two arguments, an interval a number of
seconds in two more.  Moments are milliseconds since the beginning of 1970.
-/

namespace RelayDescriptor

/-- An argument of a line, or the fault of a line that has too few. -/
def argumentAt (line : Text) (arguments : List Text) (index : Nat) (expected : String) :
    Except Fault Text :=
  match arguments[index]? with
  | some argument => .ok argument
  | none => .error (.line line expected)

namespace Timestamp

/-- What a timestamp looks like. -/
def expected : String := "a 'YYYY-MM-DD HH:MM:SS' timestamp"

/-- The year, month and day of a date, if it has the right shape. -/
def dateParts? : Text → Option (Nat × Nat × Nat)
  | [y₁, y₂, y₃, y₄, '-', m₁, m₂, '-', d₁, d₂] =>
      if [y₁, y₂, y₃, y₄, m₁, m₂, d₁, d₂].all Char.isDigit then
        some (Numeral.value [y₁, y₂, y₃, y₄], Numeral.value [m₁, m₂], Numeral.value [d₁, d₂])
      else none
  | _ => none

/-- The hour, minute and second of a time of day, if it has the right shape. -/
def timeParts? : Text → Option (Nat × Nat × Nat)
  | [h₁, h₂, ':', m₁, m₂, ':', s₁, s₂] =>
      if [h₁, h₂, m₁, m₂, s₁, s₂].all Char.isDigit then
        some (Numeral.value [h₁, h₂], Numeral.value [m₁, m₂], Numeral.value [s₁, s₂])
      else none
  | _ => none

/-- Reads a date and a time of day. -/
def read (line date time : Text) : Except Fault Int :=
  match dateParts? date with
  | none => .error (.value line date expected)
  | some (year, month, day) =>
      match timeParts? time with
      | none => .error (.value line time expected)
      | some (hour, minute, second) =>
          let moment : Calendar.Moment := ⟨year, month, day, hour, minute, second⟩
          if moment.Exists then .ok moment.epochMillis
          else .error (.value line (date ++ ' ' :: time) expected)

end Timestamp

/-- Reads the timestamp in two arguments of a line. -/
def timestamp (line : Text) (arguments : List Text) (dateIndex timeIndex : Nat) :
    Except Fault Int := do
  let date ← argumentAt line arguments dateIndex Timestamp.expected
  let time ← argumentAt line arguments timeIndex Timestamp.expected
  Timestamp.read line date time

/-- Reads the interval in an argument and the next one. -/
def interval (line : Text) (arguments : List Text) (index : Nat) : Except Fault Int := do
  let expected := "an interval of the form '(<n> s)'"
  let opening ← argumentAt line arguments index expected
  let closing ← argumentAt line arguments (index + 1) expected
  match opening with
  | '(' :: d :: digits =>
      if closing = ['s', ')'] then seconds line (d :: digits)
      else .error (.value line (opening ++ ' ' :: closing) expected)
  | _ => .error (.value line (opening ++ ' ' :: closing) expected)

/-- The end of an interval and its length. -/
structure StatsInterval where
  endMillis : Int
  lengthSeconds : Int
  deriving Repr, DecidableEq

/-- Reads a timestamp and an interval with nothing after them. -/
def statsInterval (line : Text) (arguments : List Text) : Except Fault StatsInterval := do
  if arguments.length ≠ 4 then
    .error (.line line "'YYYY-MM-DD HH:MM:SS (<n> s)'")
  else
    let endMillis ← timestamp line arguments 0 1
    let lengthSeconds ← interval line arguments 2
    return ⟨endMillis, lengthSeconds⟩

end RelayDescriptor
