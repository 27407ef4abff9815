import RelayDescriptor.Tools.Toml.Number

/-!
# Days, times and numbers of settings documents

A word that begins with a sign or a digit is a day, a time of day, both, or a number.
Every reader takes the text from where its part begins and returns what is left
after it.
-/

namespace RelayDescriptor

namespace Toml

/-- Two digits. -/
def twoDigits? (a b : Char) : Option Nat :=
  if a.isDigit && b.isDigit then some (Numeral.value [a, b]) else none

/-- A day, whose year has four digits, and what follows it. -/
def dayBefore? (text : Text) : Option (CalendarDay × Text) := do
  let year := text.take 4
  if year.length < 4 || !Numeral.isUnsigned year then none
  match text.drop 4 with
  | '-' :: a :: b :: '-' :: c :: d :: rest =>
      let day : CalendarDay := ⟨Numeral.value year, ← twoDigits? a b, ← twoDigits? c d⟩
      let moment : Calendar.Moment := ⟨day.year, day.month, day.day, 0, 0, 0⟩
      if moment.Exists then some (day, rest) else none
  | _ => none

/-- The microseconds that the digits after a point write. -/
def microseconds (digits : Text) : Nat :=
  Numeral.value ((digits ++ List.replicate 6 '0').take 6)

/-- The second and microsecond of a time of day, both of which may be absent, and what follows. -/
def secondsBefore? : Text → Option (Nat × Nat × Text)
  | ':' :: a :: b :: '.' :: fraction => do
      let second ← twoDigits? a b
      let digits := fraction.takeWhile Char.isDigit
      if digits.isEmpty then none
      else some (second, microseconds digits, fraction.dropWhile Char.isDigit)
  | ':' :: a :: b :: rest => do some (← twoDigits? a b, 0, rest)
  | rest => some (0, 0, rest)

/-- A time of day, and what follows it. -/
def timeBefore? : Text → Option (ClockTime × Text)
  | a :: b :: ':' :: c :: d :: rest => do
      let hour ← twoDigits? a b
      let minute ← twoDigits? c d
      let (second, microsecond, rest) ← secondsBefore? rest
      if 23 < hour ∨ 59 < minute ∨ 59 < second then none
      else some (⟨hour, minute, second, microsecond⟩, rest)
  | _ => none

/-- A time zone. -/
def zone? : Text → Option (Option ZoneOffset)
  | [] => some none
  | ['Z'] | ['z'] => some (some .universal)
  | [sign, a, b, ':', c, d] => do
      let hours ← twoDigits? a b
      let minutes ← twoDigits? c d
      if (sign = '+' ∨ sign = '-') ∧ hours ≤ 23 ∧ minutes ≤ 59 then
        some (some (.shifted (sign = '+') hours minutes))
      else none
  | _ => none

/-- A day and a time of day. -/
def moment? (text : Text) : Option Setting := do
  let (day, rest) ← dayBefore? text
  match rest with
  | separator :: clock =>
      if separator = 'T' ∨ separator = 't' ∨ separator = ' ' then
        let (time, zone) ← timeBefore? clock
        return .moment day time (← zone? zone)
      else none
  | [] => none

/-- A time of day and nothing else. -/
def time? (text : Text) : Option Setting :=
  match timeBefore? text with
  | some (time, []) => some (.time time)
  | _ => none

/-- Whether a character ends a number. -/
def endsNumber (c : Char) : Bool := " \t\n#,]\x7d".toList.contains c

/-- Whether a character ends a day and a time of day with a space between them. -/
def endsMoment (c : Char) : Bool := "\t\n#,]\x7d".toList.contains c

/-- A number, a day, a time of day, or both. -/
def numberOrMoment (text : Text) : Except Flaw (Setting × Text) :=
  let word := text.takeWhile fun c => !endsNumber c
  let rest := text.dropWhile fun c => !endsNumber c
  match dayBefore? word with
  | some (day, []) =>
      let clock := Text.trimEnd (rest.takeWhile fun c => !endsMoment c)
      let after := rest.dropWhile fun c => !endsMoment c
      if clock.isEmpty then .ok (.day day, after)
      else match moment? (word ++ clock) with
        | some value => .ok (value, after)
        | none => .error .invalid
  | _ =>
      match (moment? word).or ((time? word).or (number? word)) with
      | some value => .ok (value, rest)
      | none => .error .invalid

end Toml

end RelayDescriptor
