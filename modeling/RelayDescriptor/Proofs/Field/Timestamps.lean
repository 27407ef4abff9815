import Mathlib.Algebra.Group.Nat.Defs
import Mathlib.Data.List.Induction
import RelayDescriptor.Field.Timestamp
import RelayDescriptor.Proofs.Calendar.Succession
import RelayDescriptor.Proofs.Field.Readers

/-!
# Timestamps written and read

A moment is written with a fixed number of digits for each of its parts.  Reading accepts
just what is written of an existing moment, and gives the milliseconds by which the moment
lies behind the beginning of 1970, or before it.
-/

namespace RelayDescriptor

/-! ## Numerals of a fixed width -/

/-- Texts of one length are ordered before their continuations are looked at. -/
theorem Text.append_lt_append {left right : Text} (same : left.length = right.length)
    (below : left < right) (leftRest rightRest : Text) : left ++ leftRest < right ++ rightRest := by
  induction left generalizing right with
  | nil =>
      rw [List.length_nil, eq_comm, List.length_eq_zero_iff] at same
      rw [same] at below
      exact absurd below (List.lt_irrefl _)
  | cons c left induction =>
      cases right with
      | nil => cases same
      | cons d right =>
          rw [List.cons_lt_cons_iff] at below
          rw [List.cons_append, List.cons_append, List.cons_lt_cons_iff]
          rcases below with first | ⟨equal, rest⟩
          · exact .inl first
          · exact .inr ⟨equal, induction (Nat.succ.inj same) rest⟩

namespace Numeral

variable {width n : Nat} {digits : Text}

/-- A number with a fixed number of digits, those in front of it being zeros. -/
def padded : Nat → Nat → Text
  | 0, _ => []
  | width + 1, n => padded width (n / 10) ++ [Nat.digitChar (n % 10)]

@[simp] theorem length_padded (width n : Nat) : (padded width n).length = width := by
  induction width generalizing n with
  | zero => rfl
  | succ width induction => rw [padded, List.length_append, induction, List.length_singleton]

theorem value_concat (digits : Text) (c : Char) :
    value (digits ++ [c]) = value digits * 10 + digitValue c :=
  valueFrom_append 0 digits [c]

theorem digitValue_digitChar (bound : n < 10) : digitValue (Nat.digitChar n) = n := by
  rw [digitValue, Nat.toNat_digitChar_of_lt_ten bound]
  exact Nat.add_sub_cancel_left 48 n

theorem value_padded (bound : n < 10 ^ width) : value (padded width n) = n := by
  induction width generalizing n with
  | zero =>
      rw [Nat.pow_zero, Nat.lt_one_iff] at bound
      rw [bound]
      rfl
  | succ width induction =>
      have front : n / 10 < 10 ^ width := Nat.div_lt_of_lt_mul (by rwa [Nat.pow_succ'] at bound)
      rw [padded, value_concat, induction front, digitValue_digitChar (Nat.mod_lt n (by decide)),
        Nat.div_add_mod']

theorem digitChar_digitValue {c : Char} (digit : c.isDigit = true) :
    Nat.digitChar (digitValue c) = c := by
  have bounds : 48 ≤ c.toNat ∧ c.toNat ≤ 57 := Char.isDigit_iff_toNat.mp digit
  apply Char.toNat_inj.mp
  rw [Nat.toNat_digitChar_of_lt_ten (digitValue_lt digit), digitValue]
  omega

theorem padded_value (all : ∀ c ∈ digits, c.isDigit = true) :
    padded digits.length (value digits) = digits := by
  induction digits using List.reverseRecOn with
  | nil => rfl
  | append_singleton digits c induction =>
      have last : c.isDigit = true := all c (by simp)
      have front := induction fun d member => all d (List.mem_append_left [c] member)
      have bound := digitValue_lt last
      have quotient : (value digits * 10 + digitValue c) / 10 = value digits := by omega
      have remainder : (value digits * 10 + digitValue c) % 10 = digitValue c := by omega
      rw [value_concat, List.length_append, List.length_singleton, padded, quotient, remainder,
        front, digitChar_digitValue last]

theorem value_lt (all : ∀ c ∈ digits, c.isDigit = true) : value digits < 10 ^ digits.length := by
  induction digits using List.reverseRecOn with
  | nil => decide
  | append_singleton digits c induction =>
      have last := digitValue_lt (all c (by simp))
      have front := induction fun d member => all d (List.mem_append_left [c] member)
      rw [value_concat, List.length_append, List.length_singleton, Nat.pow_succ]
      omega

theorem digitChar_lt {m : Nat} (below : m < n) (bound : n < 10) :
    Nat.digitChar m < Nat.digitChar n := by
  rw [Char.lt_def, UInt32.lt_iff_toNat_lt]
  show (Nat.digitChar m).toNat < (Nat.digitChar n).toNat
  rw [Nat.toNat_digitChar_of_lt_ten bound, Nat.toNat_digitChar_of_lt_ten (Nat.lt_trans below bound)]
  exact Nat.add_lt_add_left below 48

/-- Numerals of one width are ordered as the numbers are. -/
theorem padded_lt {m : Nat} (below : m < n) (bound : n < 10 ^ width) :
    padded width m < padded width n := by
  induction width generalizing m n with
  | zero =>
      rw [Nat.pow_zero] at bound
      omega
  | succ width induction =>
      have front : n / 10 < 10 ^ width := Nat.div_lt_of_lt_mul (by rwa [Nat.pow_succ'] at bound)
      rw [padded, padded]
      rcases Nat.lt_or_ge (m / 10) (n / 10) with less | notLess
      · exact Text.append_lt_append (by simp) (induction less front) _ _
      · have same : m / 10 = n / 10 := by omega
        have last : m % 10 < n % 10 := by omega
        rw [same]
        exact List.append_left_lt (List.cons_lt_cons_iff.mpr
          (.inl (digitChar_lt last (Nat.mod_lt n (by decide)))))

end Numeral

namespace Calendar.Moment

variable {m other : Moment}

/-- The date of a moment with four, two and two digits. -/
def dateText (m : Moment) : Text :=
  Numeral.padded 4 m.year ++ '-' :: (Numeral.padded 2 m.month ++ '-' :: Numeral.padded 2 m.day)

/-- The time of day of a moment with two digits for each part. -/
def timeText (m : Moment) : Text :=
  Numeral.padded 2 m.hour ++ ':' ::
    (Numeral.padded 2 m.minute ++ ':' :: Numeral.padded 2 m.second)

theorem monthLength_le (year month : Nat) : monthLength year month ≤ 31 := by
  rw [monthLength.eq_def]
  split
  · split <;> decide
  all_goals decide

/-- The parts of a moment fit into their digits. -/
structure HasDigits (m : Moment) : Prop where
  year : m.year < 10 ^ 4
  month : m.month < 10 ^ 2
  day : m.day < 10 ^ 2
  hour : m.hour < 10 ^ 2
  minute : m.minute < 10 ^ 2
  second : m.second < 10 ^ 2

theorem hasDigits_of_exists (found : m.Exists) : m.HasDigits := by
  have long := monthLength_le m.year m.month
  obtain ⟨_, year, _, month, _, day, hour, minute, second⟩ := found
  constructor <;> omega

/-- Of two moments the earlier one is written as an earlier date, or as an earlier time of day
with the same date. -/
theorem text_lt (digits : other.HasDigits) (earlier : m.parts < other.parts) :
    m.dateText < other.dateText ∨
      m.dateText = other.dateText ∧ m.timeText < other.timeText := by
  -- Numerals of one width decide the order of texts unless they are the same.
  have first : ∀ {width n k : Nat} (rest others : Text), n < k → k < 10 ^ width →
      Numeral.padded width n ++ rest < Numeral.padded width k ++ others :=
    fun rest others below bound =>
      Text.append_lt_append (by simp) (Numeral.padded_lt below bound) rest others
  have later : ∀ {width n k : Nat} (c : Char) {rest others : Text}, n = k → rest < others →
      Numeral.padded width n ++ c :: rest < Numeral.padded width k ++ c :: others := by
    rintro width n k c rest others rfl below
    exact List.append_left_lt (List.cons_lt_cons_iff.mpr (.inr ⟨rfl, below⟩))
  rcases parts_lt_iff.mp earlier with
    year | ⟨year, month | ⟨month, day | ⟨day, time⟩⟩⟩
  · exact .inl (first _ _ year digits.year)
  · exact .inl (later '-' year (first _ _ month digits.month))
  · exact .inl (later '-' year (later '-' month (Numeral.padded_lt day digits.day)))
  · refine .inr ⟨by rw [dateText, dateText, year, month, day], ?_⟩
    rcases time with hour | ⟨hour, minute | ⟨minute, second⟩⟩
    · exact first _ _ hour digits.hour
    · exact later ':' hour (first _ _ minute digits.minute)
    · exact later ':' hour (later ':' minute (Numeral.padded_lt second digits.second))

end Calendar.Moment

namespace Timestamp

variable {line date time : Text} {year month day hour minute second : Nat}

theorem dateParts?_eq_some_iff :
    dateParts? date = some (year, month, day) ↔
      year < 10 ^ 4 ∧ month < 10 ^ 2 ∧ day < 10 ^ 2 ∧
        date = Numeral.padded 4 year ++ '-' ::
          (Numeral.padded 2 month ++ '-' :: Numeral.padded 2 day) := by
  constructor
  · intro read
    rw [dateParts?.eq_def] at read
    split at read
    next y₁ y₂ y₃ y₄ m₁ m₂ d₁ d₂ =>
      split at read
      next digits =>
        cases read
        have all := List.all_eq_true.mp digits
        have years : ∀ c ∈ [y₁, y₂, y₃, y₄], c.isDigit = true := fun c member => all c (by grind)
        have months : ∀ c ∈ [m₁, m₂], c.isDigit = true := fun c member => all c (by grind)
        have days : ∀ c ∈ [d₁, d₂], c.isDigit = true := fun c member => all c (by grind)
        refine ⟨Numeral.value_lt years, Numeral.value_lt months, Numeral.value_lt days, ?_⟩
        have year : Numeral.padded 4 _ = _ := Numeral.padded_value years
        have month : Numeral.padded 2 _ = _ := Numeral.padded_value months
        have day : Numeral.padded 2 _ = _ := Numeral.padded_value days
        rw [year, month, day]
        rfl
      next => cases read
    next => cases read
  · rintro ⟨years, months, days, rfl⟩
    have year := Numeral.value_padded years
    have month := Numeral.value_padded months
    have day := Numeral.value_padded days
    simp only [Numeral.padded, List.nil_append, List.cons_append] at year month day ⊢
    rw [dateParts?, if_pos, year, month, day]
    simp [Nat.isDigit_digitChar, Nat.mod_lt]

theorem timeParts?_eq_some_iff :
    timeParts? time = some (hour, minute, second) ↔
      hour < 10 ^ 2 ∧ minute < 10 ^ 2 ∧ second < 10 ^ 2 ∧
        time = Numeral.padded 2 hour ++ ':' ::
          (Numeral.padded 2 minute ++ ':' :: Numeral.padded 2 second) := by
  constructor
  · intro read
    rw [timeParts?.eq_def] at read
    split at read
    next h₁ h₂ m₁ m₂ s₁ s₂ =>
      split at read
      next digits =>
        cases read
        have all := List.all_eq_true.mp digits
        have hours : ∀ c ∈ [h₁, h₂], c.isDigit = true := fun c member => all c (by grind)
        have minutes : ∀ c ∈ [m₁, m₂], c.isDigit = true := fun c member => all c (by grind)
        have seconds : ∀ c ∈ [s₁, s₂], c.isDigit = true := fun c member => all c (by grind)
        refine ⟨Numeral.value_lt hours, Numeral.value_lt minutes, Numeral.value_lt seconds, ?_⟩
        have hour : Numeral.padded 2 _ = _ := Numeral.padded_value hours
        have minute : Numeral.padded 2 _ = _ := Numeral.padded_value minutes
        have second : Numeral.padded 2 _ = _ := Numeral.padded_value seconds
        rw [hour, minute, second]
        rfl
      next => cases read
    next => cases read
  · rintro ⟨hours, minutes, seconds, rfl⟩
    have hour := Numeral.value_padded hours
    have minute := Numeral.value_padded minutes
    have second := Numeral.value_padded seconds
    simp only [Numeral.padded, List.nil_append, List.cons_append] at hour minute second ⊢
    rw [timeParts?, if_pos, hour, minute, second]
    simp [Nat.isDigit_digitChar, Nat.mod_lt]

/-- What is read is what is written of an existing moment. -/
theorem read_eq_ok_iff {millis : Int} :
    read line date time = .ok millis ↔
      ∃ moment : Calendar.Moment, moment.Exists ∧ date = moment.dateText ∧
        time = moment.timeText ∧ millis = moment.epochMillis := by
  rw [read]
  constructor
  · intro result
    split at result
    next => cases result
    next year month day dateRead =>
      split at result
      next => cases result
      next hour minute second timeRead =>
        dsimp only at result
        split at result
        next found =>
          cases result
          exact ⟨_, found, (dateParts?_eq_some_iff.mp dateRead).2.2.2,
            (timeParts?_eq_some_iff.mp timeRead).2.2.2, rfl⟩
        next => cases result
  · rintro ⟨moment, found, rfl, rfl, rfl⟩
    have digits := Calendar.Moment.hasDigits_of_exists found
    have dateRead := dateParts?_eq_some_iff.mpr ⟨digits.year, digits.month, digits.day, rfl⟩
    have timeRead := timeParts?_eq_some_iff.mpr ⟨digits.hour, digits.minute, digits.second, rfl⟩
    rw [Calendar.Moment.dateText, dateRead, Calendar.Moment.timeText, timeRead]
    exact if_pos found

/-- The date and the time of day that are written for a number of milliseconds. -/
def written (millis : Int) : Text × Text :=
  let moment := Calendar.Moment.ofEpochSeconds (millis / 1000)
  (moment.dateText, moment.timeText)

end Timestamp

variable {line : Text}

theorem argumentAt_eq_ok_iff {arguments : List Text} {index : Nat} {expected : String}
    {argument : Text} :
    argumentAt line arguments index expected = .ok argument ↔
      arguments[index]? = some argument := by
  rw [argumentAt]
  split
  next found => rw [found, Except.ok.injEq, Option.some.injEq]
  next absent => simp [absent]

theorem timestamp_eq_ok_iff {arguments : List Text} {dateIndex timeIndex : Nat} {millis : Int} :
    timestamp line arguments dateIndex timeIndex = .ok millis ↔
      ∃ date time, arguments[dateIndex]? = some date ∧ arguments[timeIndex]? = some time ∧
        Timestamp.read line date time = .ok millis := by
  simp only [timestamp, bind_eq_ok_iff, argumentAt_eq_ok_iff]
  constructor
  · rintro ⟨date, first, time, second, result⟩
    exact ⟨date, time, first, second, result⟩
  · rintro ⟨date, time, first, second, result⟩
    exact ⟨date, first, time, second, result⟩

namespace Calendar.Moment

variable {m other : Moment}

theorem exists_epoch : epoch.Exists := by decide

theorem isAway_epoch_iff (found : m.Exists) {seconds : Int} :
    IsAway epoch seconds m ↔ m.epochSeconds = seconds := by
  rw [isAway_iff (exists_iff.mp exists_epoch).1 (exists_iff.mp found).1, epochSeconds_epoch,
    Int.zero_add]

theorem epochMillis_eq_iff {millis : Int} :
    millis = m.epochMillis ↔ ∃ seconds, m.epochSeconds = seconds ∧ millis = 1000 * seconds := by
  simp [epochMillis, Int.mul_comm]

/-- The texts of existing moments are ordered as the moments are. -/
theorem text_lt_iff (left : m.Exists) (right : other.Exists) :
    (m.dateText < other.dateText ∨ m.dateText = other.dateText ∧ m.timeText < other.timeText) ↔
      m.epochMillis < other.epochMillis := by
  have seconds : m.epochMillis < other.epochMillis ↔ m.parts < other.parts := by
    rw [← epochSeconds_lt_iff (exists_iff.mp left).1 (exists_iff.mp right).1, epochMillis,
      epochMillis]
    omega
  rw [seconds]
  constructor
  · intro below
    rcases lt_trichotomy m.parts other.parts with before | same | after
    · exact before
    · rw [parts_injective same] at below
      exact absurd below
        (not_or.mpr ⟨List.lt_irrefl _, fun both => List.lt_irrefl _ both.2⟩)
    · -- Texts that are out of order cannot be in order as well.
      rcases text_lt (hasDigits_of_exists left) after with date | ⟨date, time⟩
      · rcases below with other | ⟨same, _⟩
        · exact absurd (List.lt_trans date other) (List.lt_irrefl _)
        · rw [same] at date
          exact absurd date (List.lt_irrefl _)
      · rcases below with other | ⟨_, other⟩
        · rw [date] at other
          exact absurd other (List.lt_irrefl _)
        · exact absurd (List.lt_trans time other) (List.lt_irrefl _)
  · exact text_lt (hasDigits_of_exists right)

end Calendar.Moment

/-- The texts that are read as a number of milliseconds are those that are written for it. -/
theorem Timestamp.read_eq_ok_iff_written {date time : Text} {millis : Int} :
    read line date time = .ok millis ↔
      1000 ∣ millis ∧ -62135596800000 ≤ millis ∧ millis ≤ 253402300799000 ∧
        (date, time) = written millis := by
  rw [read_eq_ok_iff]
  constructor
  · rintro ⟨moment, found, rfl, rfl, rfl⟩
    obtain ⟨least, greatest⟩ := Calendar.Moment.epochSeconds_of_exists found
    have seconds : moment.epochMillis / 1000 = moment.epochSeconds :=
      Int.mul_ediv_cancel _ (by decide)
    refine ⟨Int.dvd_mul_left _ _, ?_, ?_, ?_⟩
    · rw [Calendar.Moment.epochMillis]
      omega
    · rw [Calendar.Moment.epochMillis]
      omega
    · rw [written, seconds, Calendar.Moment.ofEpochSeconds_epochSeconds found]
  · rintro ⟨⟨seconds, rfl⟩, least, greatest, texts⟩
    obtain ⟨found, same⟩ := Calendar.Moment.exists_ofEpochSeconds
      (show -62135596800 ≤ seconds by omega) (show seconds ≤ 253402300799 by omega)
    rw [written, Int.mul_ediv_cancel_left _ (by decide)] at texts
    obtain ⟨rfl, rfl⟩ := Prod.mk.inj texts
    exact ⟨_, found, rfl, rfl, Calendar.Moment.epochMillis_eq_iff.mpr ⟨seconds, same, rfl⟩⟩

/-- Reading timestamps is the inverse of writing them: it accepts the texts of existing moments,
each of which lies the number of seconds that is read away from the beginning of 1970; these
numbers are all those between that of the first moment and that of the last; and they are ordered
as the texts are. -/
theorem timestamp_isInverse (line : Text) :
    (∀ arguments dateIndex timeIndex millis,
      timestamp line arguments dateIndex timeIndex = .ok millis ↔
        ∃ moment : Calendar.Moment, moment.Exists ∧
          arguments[dateIndex]? = some moment.dateText ∧
          arguments[timeIndex]? = some moment.timeText ∧
          ∃ seconds, Calendar.Moment.IsAway .epoch seconds moment ∧ millis = 1000 * seconds) ∧
    (∀ date time millis, timestamp line [date, time] 0 1 = .ok millis ↔
      1000 ∣ millis ∧ -62135596800000 ≤ millis ∧ millis ≤ 253402300799000 ∧
        (date, time) = Timestamp.written millis) ∧
    ∀ date time millis otherDate otherTime otherMillis,
      timestamp line [date, time] 0 1 = .ok millis →
        timestamp line [otherDate, otherTime] 0 1 = .ok otherMillis →
          (date < otherDate ∨ date = otherDate ∧ time < otherTime ↔ millis < otherMillis) := by
  have alone : ∀ date time, timestamp line [date, time] 0 1 = Timestamp.read line date time :=
    fun _ _ => rfl
  refine ⟨?_, ?_, ?_⟩
  · intro arguments dateIndex timeIndex millis
    rw [timestamp_eq_ok_iff]
    constructor
    · rintro ⟨date, time, dateGiven, timeGiven, result⟩
      obtain ⟨moment, found, rfl, rfl, same⟩ := Timestamp.read_eq_ok_iff.mp result
      obtain ⟨seconds, distance, same⟩ := Calendar.Moment.epochMillis_eq_iff.mp same
      exact ⟨moment, found, dateGiven, timeGiven, seconds,
        (Calendar.Moment.isAway_epoch_iff found).mpr distance, same⟩
    · rintro ⟨moment, found, dateGiven, timeGiven, seconds, away, same⟩
      have distance := (Calendar.Moment.isAway_epoch_iff found).mp away
      refine ⟨_, _, dateGiven, timeGiven,
        Timestamp.read_eq_ok_iff.mpr ⟨moment, found, rfl, rfl, ?_⟩⟩
      exact Calendar.Moment.epochMillis_eq_iff.mpr ⟨seconds, distance, same⟩
  · intro date time millis
    rw [alone]
    exact Timestamp.read_eq_ok_iff_written
  · intro date time millis otherDate otherTime otherMillis first second
    rw [alone] at first second
    obtain ⟨moment, found, rfl, rfl, rfl⟩ := Timestamp.read_eq_ok_iff.mp first
    obtain ⟨other, otherFound, rfl, rfl, rfl⟩ := Timestamp.read_eq_ok_iff.mp second
    exact Calendar.Moment.text_lt_iff found otherFound

theorem timestamp_isInverse_leapDay :
    let line := "published 2012-02-29 23:59:59".toList
    let leapDay := "2012-02-29".toList
    let march := "2012-03-01".toList
    timestamp line [leapDay, "23:59:59".toList] 0 1 = .ok 1330559999000 ∧
      timestamp line [march, "00:00:00".toList] 0 1 = .ok 1330560000000 ∧
        (leapDay < march ∨ leapDay = march ∧ "23:59:59".toList < "00:00:00".toList) ∧
          (leapDay, "23:59:59".toList) = Timestamp.written 1330559999000 := by
  intro line leapDay march
  obtain ⟨_, inverse, ordered⟩ := timestamp_isInverse line
  have last : timestamp line [leapDay, "23:59:59".toList] 0 1 = .ok 1330559999000 := by decide
  have first : timestamp line [march, "00:00:00".toList] 0 1 = .ok 1330560000000 := by decide
  exact ⟨last, first, (ordered _ _ _ _ _ _ last first).mpr (by decide),
    ((inverse _ _ _).mp last).2.2.2⟩

end RelayDescriptor
