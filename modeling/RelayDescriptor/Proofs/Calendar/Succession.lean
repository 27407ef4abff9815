import Mathlib.Data.List.Lex
import Mathlib.Logic.Function.Iterate
import RelayDescriptor.Calendar

/-!
# One second after the other

The calendar can be gone through second by second.  The number that is computed for a
moment counts these steps: it grows by one with each of them, it is zero at the beginning
of 1970, and it grows as moments do that are compared part by part.
-/

namespace RelayDescriptor

namespace Calendar

variable {year month : Nat}

/-- The number of days of a year. -/
def yearLength (year : Nat) : Nat := if isLeapYear year then 366 else 365

theorem monthLength_pos (year month : Nat) : 0 < monthLength year month := by
  rw [monthLength.eq_def]
  split
  · split
    · decide
    · decide
  all_goals decide

theorem daysBeforeMonth_first (year : Nat) : daysBeforeMonth year 1 = 0 := rfl

theorem daysBeforeMonth_succ (first : 1 ≤ month) :
    daysBeforeMonth year (month + 1) = daysBeforeMonth year month + monthLength year month := by
  obtain ⟨earlier, rfl⟩ := Nat.exists_eq_add_of_le' first
  rfl

theorem daysBeforeMonth_mono {later : Nat} (first : 1 ≤ month) (behind : month ≤ later) :
    daysBeforeMonth year month ≤ daysBeforeMonth year later := by
  induction later, behind using Nat.le_induction with
  | base => exact Nat.le_refl _
  | succ later behind induction =>
      rw [daysBeforeMonth_succ (Nat.le_trans first behind)]
      exact Nat.le_trans induction (Nat.le_add_right _ _)

theorem daysBeforeMonth_last (year : Nat) :
    daysBeforeMonth year 12 + monthLength year 12 = yearLength year := by
  simp only [daysBeforeMonth, monthLength, yearLength]
  split <;> rfl

theorem isLeapYear_iff : isLeapYear year = true ↔ 4 ∣ year ∧ ¬100 ∣ year ∨ 400 ∣ year := by
  simp [isLeapYear, Nat.dvd_iff_mod_eq_zero]

theorem daysBeforeYear_succ (first : 1 ≤ year) :
    daysBeforeYear (year + 1) = daysBeforeYear year + yearLength year := by
  obtain ⟨complete, rfl⟩ := Nat.exists_eq_add_of_le' first
  -- Of the three quotients, each grows by one just where its divisor divides the year.
  have fourth := Nat.succ_div (a := complete) (b := 4)
  have century := Nat.succ_div (a := complete) (b := 100)
  have cycle := Nat.succ_div (a := complete) (b := 400)
  simp only [daysBeforeYear, yearLength, isLeapYear_iff, Nat.add_sub_cancel, fourth, century,
    cycle]
  by_cases dividesCycle : 400 ∣ complete + 1
  · have dividesCentury : 100 ∣ complete + 1 := Nat.dvd_trans (by decide) dividesCycle
    have dividesFourth : 4 ∣ complete + 1 := Nat.dvd_trans (by decide) dividesCycle
    simp only [dividesCycle, dividesCentury, dividesFourth, or_true, ↓reduceIte]
    omega
  · by_cases dividesCentury : 100 ∣ complete + 1
    · have dividesFourth : 4 ∣ complete + 1 := Nat.dvd_trans (by decide) dividesCentury
      simp only [dividesCycle, dividesCentury, dividesFourth, not_true_eq_false, and_false,
        or_self, ↓reduceIte]
      omega
    · by_cases dividesFourth : 4 ∣ complete + 1
      · simp only [dividesCycle, dividesCentury, dividesFourth, not_false_eq_true, and_self,
          or_false, ↓reduceIte]
        omega
      · simp only [dividesCycle, dividesCentury, dividesFourth, false_and, or_self, ↓reduceIte]
        omega

theorem daysBeforeYear_mono {later : Nat} (first : 1 ≤ year) (behind : year ≤ later) :
    daysBeforeYear year ≤ daysBeforeYear later := by
  induction later, behind using Nat.le_induction with
  | base => exact Nat.le_refl _
  | succ later behind induction =>
      rw [daysBeforeYear_succ (Nat.le_trans first behind)]
      exact Nat.le_trans induction (Nat.le_add_right _ _)

namespace Moment

variable {m other : Moment}

/-- A moment of an existing day from year 1 on; the years have no end. -/
structure IsProper (m : Moment) : Prop where
  year : 1 ≤ m.year
  firstMonth : 1 ≤ m.month
  lastMonth : m.month ≤ 12
  firstDay : 1 ≤ m.day
  lastDay : m.day ≤ monthLength m.year m.month
  hour : m.hour ≤ 23
  minute : m.minute ≤ 59
  second : m.second ≤ 59

theorem exists_iff : m.Exists ↔ m.IsProper ∧ m.year ≤ 9999 := by
  constructor
  · rintro ⟨year, bound, firstMonth, lastMonth, firstDay, lastDay, hour, minute, second⟩
    exact ⟨⟨year, firstMonth, lastMonth, firstDay, lastDay, hour, minute, second⟩, bound⟩
  · rintro ⟨⟨year, firstMonth, lastMonth, firstDay, lastDay, hour, minute, second⟩, bound⟩
    exact ⟨year, bound, firstMonth, lastMonth, firstDay, lastDay, hour, minute, second⟩

/-- The moment one second later. -/
def next (m : Moment) : Moment :=
  if m.second < 59 then { m with second := m.second + 1 }
  else if m.minute < 59 then { m with minute := m.minute + 1, second := 0 }
  else if m.hour < 23 then { m with hour := m.hour + 1, minute := 0, second := 0 }
  else if m.day < monthLength m.year m.month then ⟨m.year, m.month, m.day + 1, 0, 0, 0⟩
  else if m.month < 12 then ⟨m.year, m.month + 1, 1, 0, 0, 0⟩
  else ⟨m.year + 1, 1, 1, 0, 0, 0⟩

theorem isProper_next (proper : m.IsProper) : m.next.IsProper := by
  obtain ⟨year, firstMonth, lastMonth, firstDay, lastDay, hour, minute, second⟩ := proper
  rw [next]
  split
  next early => exact ⟨year, firstMonth, lastMonth, firstDay, lastDay, hour, minute, early⟩
  split
  next early =>
    exact ⟨year, firstMonth, lastMonth, firstDay, lastDay, hour, early, Nat.zero_le _⟩
  split
  next early =>
    exact ⟨year, firstMonth, lastMonth, firstDay, lastDay, early, Nat.zero_le _, Nat.zero_le _⟩
  split
  next early =>
    exact ⟨year, firstMonth, lastMonth, Nat.le_add_left _ _, early, Nat.zero_le _, Nat.zero_le _,
      Nat.zero_le _⟩
  split
  next early =>
    exact ⟨year, Nat.le_add_left _ _, early, Nat.le_refl 1, monthLength_pos _ _, Nat.zero_le _,
      Nat.zero_le _, Nat.zero_le _⟩
  next =>
    exact ⟨Nat.le_add_left _ _, Nat.le_refl 1, Nat.le_add_left 1 11, Nat.le_refl 1,
      monthLength_pos _ _, Nat.zero_le _, Nat.zero_le _, Nat.zero_le _⟩

/-- The seconds since the beginning of the moment's day. -/
def daySeconds (m : Moment) : Nat := m.hour * 3600 + m.minute * 60 + m.second

theorem daySeconds_midnight (year month day : Nat) :
    daySeconds ⟨year, month, day, 0, 0, 0⟩ = 0 := by
  simp [daySeconds]

theorem epochSeconds_eq (m : Moment) :
    m.epochSeconds = ((m.dayNumber : Int) - epochDay) * 86400 + m.daySeconds := rfl

/-- One step adds one second. -/
theorem epochSeconds_next (proper : m.IsProper) : m.next.epochSeconds = m.epochSeconds + 1 := by
  obtain ⟨year, firstMonth, lastMonth, firstDay, lastDay, hour, minute, second⟩ := proper
  have sameDay : ∀ later : Moment, later.dayNumber = m.dayNumber →
      later.daySeconds = m.daySeconds + 1 → later.epochSeconds = m.epochSeconds + 1 := by
    intro later day seconds
    rw [epochSeconds_eq, epochSeconds_eq, day, seconds]
    omega
  -- The last second of a day is followed by the first one of the next day.
  have nextDay : ∀ later : Moment, m.daySeconds = 86399 → later.dayNumber = m.dayNumber + 1 →
      later.daySeconds = 0 → later.epochSeconds = m.epochSeconds + 1 := by
    intro later last day seconds
    rw [epochSeconds_eq, epochSeconds_eq, day, seconds, last]
    omega
  rw [next]
  split
  next =>
    refine sameDay _ rfl ?_
    simp only [daySeconds]
    omega
  next lastSecond =>
  split
  next =>
    refine sameDay _ rfl ?_
    simp only [daySeconds]
    omega
  next lastMinute =>
  split
  next =>
    refine sameDay _ rfl ?_
    simp only [daySeconds]
    omega
  next lastHour =>
  have last : m.daySeconds = 86399 := by
    simp only [daySeconds]
    omega
  split
  next =>
    refine nextDay _ last ?_ (daySeconds_midnight _ _ _)
    simp only [dayNumber]
    omega
  next lastOfMonth =>
  have day : m.day = monthLength m.year m.month := by omega
  split
  next =>
    refine nextDay _ last ?_ (daySeconds_midnight _ _ _)
    simp only [dayNumber, daysBeforeMonth_succ firstMonth]
    omega
  next lastOfYear =>
    have month : m.month = 12 := by omega
    refine nextDay _ last ?_ (daySeconds_midnight _ _ _)
    have days := daysBeforeMonth_last m.year
    have positive := monthLength_pos m.year 12
    simp only [dayNumber, daysBeforeYear_succ year, daysBeforeMonth_first, day, month]
    omega

theorem isProper_iterate (proper : m.IsProper) (count : Nat) : (next^[count] m).IsProper := by
  induction count with
  | zero => exact proper
  | succ count induction =>
      rw [Function.iterate_succ_apply']
      exact isProper_next induction

/-- A number of steps adds as many seconds. -/
theorem epochSeconds_iterate (proper : m.IsProper) (count : Nat) :
    (next^[count] m).epochSeconds = m.epochSeconds + count := by
  induction count with
  | zero => exact (Int.add_zero _).symm
  | succ count induction =>
      rw [Function.iterate_succ_apply', epochSeconds_next (isProper_iterate proper count),
        induction]
      omega

/-! ## Order -/

/-- The parts of a moment, the greater ones first. -/
def parts (m : Moment) : List Nat := [m.year, m.month, m.day, m.hour, m.minute, m.second]

theorem parts_injective (same : m.parts = other.parts) : m = other := by
  simp only [parts, List.cons.injEq, and_true] at same
  obtain ⟨year, month, day, hour, minute, second⟩ := same
  cases m
  cases other
  simp_all

theorem parts_lt_iff :
    m.parts < other.parts ↔
      m.year < other.year ∨ m.year = other.year ∧ (m.month < other.month ∨
        m.month = other.month ∧ (m.day < other.day ∨ m.day = other.day ∧
          (m.hour < other.hour ∨ m.hour = other.hour ∧ (m.minute < other.minute ∨
            m.minute = other.minute ∧ m.second < other.second)))) := by
  simp [parts, List.cons_lt_cons_iff]

theorem daySeconds_lt (proper : m.IsProper) : m.daySeconds < 86400 := by
  have hour := proper.hour
  have minute := proper.minute
  have second := proper.second
  simp only [daySeconds]
  omega

theorem dayNumber_lt_of_month (proper : m.IsProper) :
    m.dayNumber < daysBeforeYear m.year + daysBeforeMonth m.year (m.month + 1) := by
  have first := proper.firstDay
  have last := proper.lastDay
  rw [daysBeforeMonth_succ proper.firstMonth, dayNumber]
  omega

theorem dayNumber_lt_of_year (proper : m.IsProper) : m.dayNumber < daysBeforeYear (m.year + 1) := by
  have within := dayNumber_lt_of_month proper
  have months : daysBeforeMonth m.year (m.month + 1) ≤ daysBeforeMonth m.year (12 + 1) :=
    daysBeforeMonth_mono (Nat.le_add_left 1 m.month) (Nat.succ_le_succ proper.lastMonth)
  rw [daysBeforeMonth_succ (Nat.le_add_left 1 11), daysBeforeMonth_last] at months
  rw [daysBeforeYear_succ proper.year]
  omega

theorem dayNumber_lt (left : m.IsProper)
    (later : 1 ≤ other.day)
    (earlier : m.year < other.year ∨ m.year = other.year ∧ (m.month < other.month ∨
      m.month = other.month ∧ m.day < other.day)) : m.dayNumber < other.dayNumber := by
  rcases earlier with year | ⟨year, month | ⟨month, day⟩⟩
  · have within := dayNumber_lt_of_year left
    have years := daysBeforeYear_mono (Nat.le_add_left 1 m.year) year
    rw [dayNumber.eq_def other]
    omega
  · have within := dayNumber_lt_of_month left
    have months : daysBeforeMonth other.year (m.month + 1) ≤
        daysBeforeMonth other.year other.month :=
      daysBeforeMonth_mono (Nat.le_add_left 1 m.month) month
    rw [year] at within
    rw [dayNumber.eq_def other]
    omega
  · have first := left.firstDay
    rw [dayNumber, dayNumber, year, month]
    omega

theorem epochSeconds_lt (left : m.IsProper) (right : other.IsProper)
    (earlier : m.parts < other.parts) : m.epochSeconds < other.epochSeconds := by
  have bound := daySeconds_lt left
  rw [epochSeconds_eq, epochSeconds_eq]
  rw [parts_lt_iff] at earlier
  have days : m.dayNumber < other.dayNumber ∨
      m.dayNumber = other.dayNumber ∧ m.daySeconds < other.daySeconds := by
    rcases earlier with year | ⟨year, month | ⟨month, day | ⟨day, time⟩⟩⟩
    · exact .inl (dayNumber_lt left right.firstDay (.inl year))
    · exact .inl (dayNumber_lt left right.firstDay (.inr ⟨year, .inl month⟩))
    · exact .inl (dayNumber_lt left right.firstDay (.inr ⟨year, .inr ⟨month, day⟩⟩))
    · refine .inr ⟨by rw [dayNumber, dayNumber, year, month, day], ?_⟩
      have minute := left.minute
      have second := left.second
      simp only [daySeconds]
      omega
  omega

/-- Moments are as far apart as their parts, compared one after the other, say. -/
theorem epochSeconds_lt_iff (left : m.IsProper) (right : other.IsProper) :
    m.epochSeconds < other.epochSeconds ↔ m.parts < other.parts := by
  constructor
  · intro earlier
    rcases lt_trichotomy m.parts other.parts with before | same | after
    · exact before
    · rw [parts_injective same] at earlier
      exact absurd earlier (Int.lt_irrefl _)
    · exact absurd (Int.lt_trans earlier (epochSeconds_lt right left after)) (Int.lt_irrefl _)
  · exact epochSeconds_lt left right

theorem epochSeconds_injective (left : m.IsProper) (right : other.IsProper)
    (same : m.epochSeconds = other.epochSeconds) : m = other := by
  rcases lt_trichotomy m.parts other.parts with before | equal | after
  · exact absurd same (Int.ne_of_lt (epochSeconds_lt left right before))
  · exact parts_injective equal
  · exact absurd same.symm (Int.ne_of_lt (epochSeconds_lt right left after))

/-! ## Distance -/

/-- The beginning of 1970. -/
def epoch : Moment := ⟨1970, 1, 1, 0, 0, 0⟩

/-- The first moment that exists. -/
def earliest : Moment := ⟨1, 1, 1, 0, 0, 0⟩

/-- The last moment that exists. -/
def latest : Moment := ⟨9999, 12, 31, 23, 59, 59⟩

/-- A moment is a number of steps after another one, or before it if the number is negative. -/
def IsAway (origin : Moment) : Int → Moment → Prop
  | .ofNat count, m => next^[count] origin = m
  | .negSucc count, m => next^[count + 1] m = origin

theorem isAway_iff {origin : Moment} (start : origin.IsProper) (proper : m.IsProper)
    {seconds : Int} :
    IsAway origin seconds m ↔ m.epochSeconds = origin.epochSeconds + seconds := by
  cases seconds with
  | ofNat count =>
      have steps := epochSeconds_iterate start count
      constructor
      · rintro rfl
        exact steps
      · intro same
        exact epochSeconds_injective (isProper_iterate start count) proper (steps.trans same.symm)
  | negSucc count =>
      have steps := epochSeconds_iterate proper (count + 1)
      rw [Int.negSucc_eq]
      constructor
      · rintro rfl
        omega
      · intro same
        apply epochSeconds_injective (isProper_iterate proper (count + 1)) start
        omega

/-- The moment that is reached from the first one at a number of seconds after the beginning of
1970. -/
def ofEpochSeconds (seconds : Int) : Moment :=
  next^[(seconds - earliest.epochSeconds).toNat] earliest

theorem exists_earliest : earliest.Exists := by decide

theorem exists_latest : latest.Exists := by decide

theorem epochSeconds_earliest : earliest.epochSeconds = -62135596800 := by decide

theorem epochSeconds_latest : latest.epochSeconds = 253402300799 := by decide

theorem epochSeconds_epoch : epoch.epochSeconds = 0 := by decide

theorem earliest_le (proper : m.IsProper) : earliest.epochSeconds ≤ m.epochSeconds := by
  apply Int.not_lt.mp
  rw [epochSeconds_lt_iff proper (exists_iff.mp exists_earliest).1, parts_lt_iff]
  obtain ⟨year, firstMonth, _, firstDay, _⟩ := proper
  simp only [earliest]
  omega

theorem le_latest_iff (proper : m.IsProper) :
    m.epochSeconds ≤ latest.epochSeconds ↔ m.year ≤ 9999 := by
  rw [← Int.not_lt, epochSeconds_lt_iff (exists_iff.mp exists_latest).1 proper, parts_lt_iff]
  obtain ⟨_, _, lastMonth, _, lastDay, hour, minute, second⟩ := proper
  have long : m.month = 12 → m.day ≤ 31 := by
    intro december
    rw [december] at lastDay
    exact lastDay
  simp only [latest]
  omega

theorem epochSeconds_of_exists (found : m.Exists) :
    -62135596800 ≤ m.epochSeconds ∧ m.epochSeconds ≤ 253402300799 := by
  obtain ⟨proper, bound⟩ := exists_iff.mp found
  rw [← epochSeconds_earliest, ← epochSeconds_latest]
  exact ⟨earliest_le proper, (le_latest_iff proper).mpr bound⟩

/-- Every number of seconds between those of the first and of the last moment belongs to one. -/
theorem exists_ofEpochSeconds {seconds : Int} (least : -62135596800 ≤ seconds)
    (greatest : seconds ≤ 253402300799) :
    (ofEpochSeconds seconds).Exists ∧ (ofEpochSeconds seconds).epochSeconds = seconds := by
  have start := (exists_iff.mp exists_earliest).1
  have proper : (ofEpochSeconds seconds).IsProper := isProper_iterate start _
  have reached : (ofEpochSeconds seconds).epochSeconds = seconds := by
    rw [ofEpochSeconds, epochSeconds_iterate start, epochSeconds_earliest]
    omega
  refine ⟨exists_iff.mpr ⟨proper, (le_latest_iff proper).mp ?_⟩, reached⟩
  rw [reached, epochSeconds_latest]
  exact greatest

theorem ofEpochSeconds_epochSeconds (found : m.Exists) : ofEpochSeconds m.epochSeconds = m := by
  obtain ⟨least, greatest⟩ := epochSeconds_of_exists found
  obtain ⟨reached, same⟩ := exists_ofEpochSeconds least greatest
  exact epochSeconds_injective (exists_iff.mp reached).1 (exists_iff.mp found).1 same

end Moment

end Calendar

end RelayDescriptor
