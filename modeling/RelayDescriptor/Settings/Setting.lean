import RelayDescriptor.Calendar
import RelayDescriptor.Number.Shortest
import RelayDescriptor.OrderedMap
import RelayDescriptor.Text.Quoted

/-!
# Setting values

The values that a settings document can hold, whether they make sense or not, and
how they are shown when they do not.
-/

namespace RelayDescriptor

/-- A day of the calendar. -/
structure CalendarDay where
  year : Nat
  month : Nat
  day : Nat
  deriving Repr, DecidableEq

/-- A time of day. -/
structure ClockTime where
  hour : Nat
  minute : Nat
  second : Nat
  microsecond : Nat
  deriving Repr, DecidableEq

/-- The distance of a time zone from universal time. -/
inductive ZoneOffset where
  | universal
  /-- East of it or west of it, by hours and minutes. -/
  | shifted (east : Bool) (hours minutes : Nat)
  deriving Repr, DecidableEq

/-- The value of a setting. -/
inductive Setting where
  | absent
  | flag (value : Bool)
  | integer (value : Int)
  | real (value : Binary64)
  | text (value : Text)
  | day (day : CalendarDay)
  | time (time : ClockTime)
  | moment (day : CalendarDay) (time : ClockTime) (zone : Option ZoneOffset)
  | list (values : List Setting)
  | table (entries : List (Text × Setting))
  deriving Repr

/-- How numbers are shown among settings. -/
def settingNumbers : NumberStyle := ⟨16, -3, 2, "inf".toList, "nan".toList⟩

namespace ClockTime

/-- The parts of a time of day without zero seconds and microseconds at the end. -/
def significant (time : ClockTime) : List Nat :=
  if time.microsecond ≠ 0 then [time.hour, time.minute, time.second, time.microsecond]
  else if time.second ≠ 0 then [time.hour, time.minute, time.second]
  else [time.hour, time.minute]

end ClockTime

/-- Numbers with a comma and a space between neighbours. -/
def listed (numbers : List Nat) : String := ", ".intercalate (numbers.map toString)

namespace ZoneOffset

/-- Two decimal digits. -/
def twoDigits (n : Nat) : String := if n < 10 then s!"0{n}" else toString n

/-- The offset as whole days and the seconds beyond them. -/
def distance : ZoneOffset → String
  | .universal => "0"
  | .shifted east hours minutes =>
      let seconds := hours * 3600 + minutes * 60
      if seconds = 0 then "0"
      else if east then s!"seconds={seconds}"
      else s!"days=-1, seconds={86400 - seconds}"

/-- The name of the offset. -/
def name : ZoneOffset → String
  | .universal => "UTC"
  | .shifted east hours minutes =>
      (if east then "+" else "-") ++ twoDigits hours ++ ":" ++ twoDigits minutes

/-- The offset as it is shown. -/
def quoted (zone : ZoneOffset) : String :=
  s!"datetime.timezone(datetime.timedelta({zone.distance}), '{zone.name}')"

end ZoneOffset

namespace Setting

/-- The name of the type of a value. -/
def typeName : Setting → String
  | .absent => "NoneType"
  | .flag _ => "bool"
  | .integer _ => "int"
  | .real _ => "float"
  | .text _ => "str"
  | .day _ => "date"
  | .time _ => "time"
  | .moment .. => "datetime"
  | .list _ => "list"
  | .table _ => "dict"

mutual

/-- A value as it is shown. -/
def quoted : Setting → String
  | .absent => "None"
  | .flag true => "True"
  | .flag false => "False"
  | .integer n => toString n
  | .real number => shown (settingNumbers.text number)
  | .text value => shown (Quoted.text value)
  | .day d => s!"datetime.date({listed [d.year, d.month, d.day]})"
  | .time t => s!"datetime.time({listed t.significant})"
  | .moment d t zone =>
      let parts := listed ([d.year, d.month, d.day] ++ t.significant)
      match zone with
      | none => s!"datetime.datetime({parts})"
      | some zone => s!"datetime.datetime({parts}, tzinfo={zone.quoted})"
  | .list values => "[" ++ quotedValues values ++ "]"
  | .table entries => "\x7b" ++ quotedEntries entries ++ "\x7d"

/-- The values of a list as they are shown. -/
def quotedValues : List Setting → String
  | [] => ""
  | [value] => quoted value
  | value :: values => quoted value ++ ", " ++ quotedValues values

/-- The entries of a table as they are shown. -/
def quotedEntries : List (Text × Setting) → String
  | [] => ""
  | [(key, value)] => shown (Quoted.text key) ++ ": " ++ quoted value
  | (key, value) :: entries =>
      shown (Quoted.text key) ++ ": " ++ quoted value ++ ", " ++ quotedEntries entries

end

/-- The entries of a table. -/
def entries? : Setting → Option (OrderedMap Text Setting)
  | .table entries => some entries
  | _ => none

end Setting

end RelayDescriptor
