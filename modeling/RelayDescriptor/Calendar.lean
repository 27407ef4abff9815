/-!
# Calendar

Dates of the Gregorian calendar, extended to all years from 1 to 9999, and their
distance from the first day of 1970.
-/

namespace RelayDescriptor

namespace Calendar

/-- Whether a year has a leap day. -/
def isLeapYear (year : Nat) : Bool := (year % 4 == 0 && year % 100 != 0) || year % 400 == 0

/-- The number of days of a month. -/
def monthLength (year : Nat) : Nat → Nat
  | 2 => if isLeapYear year then 29 else 28
  | 4 | 6 | 9 | 11 => 30
  | _ => 31

/-- The number of days before a year, counted from the first day of year 1. -/
def daysBeforeYear (year : Nat) : Nat :=
  let complete := year - 1
  365 * complete + complete / 4 - complete / 100 + complete / 400

/-- The number of days before a month within its year. -/
def daysBeforeMonth (year : Nat) : Nat → Nat
  | 0 | 1 => 0
  | month + 1 => daysBeforeMonth year month + monthLength year month

/-- A date and a time of day, without a time zone. -/
structure Moment where
  year : Nat
  month : Nat
  day : Nat
  hour : Nat
  minute : Nat
  second : Nat
  deriving Repr, DecidableEq

namespace Moment

/-- Whether the parts name an existing day and an existing second of it. -/
def Exists (m : Moment) : Prop :=
  1 ≤ m.year ∧ m.year ≤ 9999 ∧ 1 ≤ m.month ∧ m.month ≤ 12 ∧
    1 ≤ m.day ∧ m.day ≤ monthLength m.year m.month ∧
    m.hour ≤ 23 ∧ m.minute ≤ 59 ∧ m.second ≤ 59

instance (m : Moment) : Decidable m.Exists := inferInstanceAs (Decidable (_ ∧ _))

/-- The number of days before the moment's day, counted from the first day of year 1. -/
def dayNumber (m : Moment) : Nat :=
  daysBeforeYear m.year + daysBeforeMonth m.year m.month + (m.day - 1)

/-- The number of days from the first day of year 1 to the first day of 1970. -/
def epochDay : Nat := 719162

/-- The seconds since the beginning of 1970, which are negative before it. -/
def epochSeconds (m : Moment) : Int :=
  ((m.dayNumber : Int) - epochDay) * 86400 + (m.hour * 3600 + m.minute * 60 + m.second : Nat)

/-- The milliseconds since the beginning of 1970. -/
def epochMillis (m : Moment) : Int := m.epochSeconds * 1000

end Moment

end Calendar

end RelayDescriptor
