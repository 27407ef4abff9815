import RelayDescriptor.Text.Ascii
import RelayDescriptor.Text.Blank
import RelayDescriptor.Text.Digit
import RelayDescriptor.Number.Numeral

/-!
# Log entries

Reading leaves a record of what was decided on the way.  Entries have one of four
levels; a threshold, which is any whole number, decides which of them are shown,
and a layout decides how.
-/

namespace RelayDescriptor

/-- How important a log entry is. -/
inductive LogLevel where
  | trace
  | debug
  | info
  | warning
  deriving Repr, DecidableEq

/-- A remark made while reading. -/
structure LogEntry where
  level : LogLevel
  message : String
  deriving Repr, DecidableEq

namespace LogLevel

/-- The number that is compared with a threshold. -/
def rank : LogLevel → Int
  | .trace => 5
  | .debug => 10
  | .info => 20
  | .warning => 30

/-- The name of a level. -/
def name : LogLevel → String
  | .trace => "TRACE"
  | .debug => "DEBUG"
  | .info => "INFO"
  | .warning => "WARNING"

end LogLevel

namespace LogEntry

def trace (message : String) : LogEntry := ⟨.trace, message⟩
def debug (message : String) : LogEntry := ⟨.debug, message⟩
def info (message : String) : LogEntry := ⟨.info, message⟩
def warning (message : String) : LogEntry := ⟨.warning, message⟩

end LogEntry

namespace Log

/-- The threshold when none is asked for. -/
def defaultThreshold : Int := 50

/-- The thresholds that have names. -/
def namedThresholds : List (String × Int) :=
  [("TRACE", 5), ("DEBUG", 10), ("INFO", 20), ("WARNING", 30), ("WARN", 30), ("ERROR", 40),
    ("CRITICAL", 50), ("FATAL", 50), ("NOTSET", 0)]

/-- Why the text of a threshold cannot be read. -/
inductive ThresholdFlaw where
  /-- A character shows a digit without being one. -/
  | notDecimal (text : Text)
  /-- The numeral has too many digits. -/
  | digitLimit (count : Nat)
  deriving Repr, DecidableEq

/-- The greatest number of characters of a threshold that are shown. -/
def shownLength : Nat := 200

/-- What is wrong with the text of a threshold. -/
def ThresholdFlaw.message : ThresholdFlaw → String
  | .notDecimal text =>
      "invalid literal for int() with base 10: " ++ shown ((Quoted.text text).take shownLength)
  | .digitLimit count => Numeral.limitMessage count

/-- The number that digits of any script write, if all of them are decimal. -/
def decimalNumber? (text : Text) : Option Nat :=
  text.foldl (fun read c => do return (← read) * 10 + (← decimalValue? c)) (some 0)

/-- The threshold that a text asks for: a numeral in any script, or a name in any case. -/
def threshold? (text : Text) : Except ThresholdFlaw (Option Int) :=
  let asked := text.trim.map Ascii.capital
  if text.isEmpty then .ok none
  else if !asked.isEmpty && asked.all showsDigit then
    match decimalNumber? asked with
    | none => .error (.notDecimal asked)
    | some n =>
        if asked.length ≤ Numeral.digitLimit then .ok (some n) else .error (.digitLimit asked.length)
  else .ok ((namedThresholds.find? fun (name, _) => name.toList = asked).map Prod.snd)

/-- The threshold in force: the given one, else the one asked for unless it is zero, else the
default. -/
def effectiveThreshold (given asked : Option Int) : Int :=
  match given, asked with
  | some level, _ => level
  | none, some level => if level = 0 then defaultThreshold else level
  | none, none => defaultThreshold

/-- The layout of entries at a threshold; low thresholds also show where an entry was made. -/
def layout (threshold : Int) : String :=
  if LogLevel.info.rank ≤ threshold then "[%(levelname)s] %(message)s"
  else "[%(levelname)s] [%(filename)s:%(lineno)d] [%(funcName)s] %(message)s"

/-- The name of a rank, which is made up for ranks that have none. -/
def rankName (rank : Int) : String :=
  match ([(0, "NOTSET"), (5, "TRACE"), (10, "DEBUG"), (20, "INFO"), (30, "WARNING"), (40, "ERROR"),
    (50, "CRITICAL")] : List (Int × String)).find? fun (known, _) => known = rank with
  | some (_, name) => name
  | none => s!"Level {rank}"

/-- The text of an entry without colours. -/
def line (rank : Int) (message : String) : String := s!"[{rankName rank}] {message}"

/-- The codes that set and reset the colour of a rank. -/
def colours (rank : Int) : String × String :=
  let code := fun (n : String) => "\x1b[" ++ n ++ "m"
  if 50 ≤ rank then (code "91", code "39")
  else if 40 ≤ rank then (code "31", code "39")
  else if 30 ≤ rank then (code "33", code "39")
  else if 20 ≤ rank then (code "32", code "39")
  else if 10 ≤ rank then (code "90", code "39")
  else if 5 ≤ rank then (code "34", code "39")
  else (code "2" ++ code "31", code "22" ++ code "39")

/-- The text of an entry in the colour of its rank. -/
def colouredLine (rank : Int) (message : String) : String :=
  (colours rank).1 ++ line rank message ++ (colours rank).2

/-- The entries that a threshold lets through. -/
def shownAt (threshold : Int) (entries : List LogEntry) : List LogEntry :=
  entries.filter fun entry => threshold ≤ entry.level.rank

end Log

end RelayDescriptor
