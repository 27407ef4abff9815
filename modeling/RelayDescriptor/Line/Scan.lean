import RelayDescriptor.Line.Basic
import RelayDescriptor.Log

/-!
# Scanning past embedded blocks

Key material between an opening and a closing line is base 64 text that may look
like keyword lines, so it is passed over.  A scan yields the items outside blocks,
together with the places where a block was left or never closed.
-/

namespace RelayDescriptor

/-- What a scan comes upon. -/
inductive ScanEvent where
  | item (item : Item)
  /-- A block was closed after some lines. -/
  | blockClosed (passed : Nat)
  /-- The lines ended within a block, after some lines of it. -/
  | blockOpen (passed : Nat)
  deriving Repr, DecidableEq

namespace Scan

/-- Scans lines.  Within a block, the state counts the lines that were passed over. -/
def eventsFrom : Option Nat → List Text → List ScanEvent
  | none, [] => []
  | some passed, [] => [.blockOpen passed]
  | some passed, line :: lines =>
      if closesBlock line then .blockClosed passed :: eventsFrom none lines
      else eventsFrom (some (passed + 1)) lines
  | none, line :: lines =>
      match tokenize line with
      | .blockEdge true _ => eventsFrom (some 0) lines
      | .blockEdge false _ => eventsFrom none lines
      | .item item => .item item :: eventsFrom none lines

/-- Within a block only its end is looked for. -/
theorem eventsFrom_block (passed : Nat) {body : List Text}
    (inside : ∀ line ∈ body, closesBlock line = false) {closing : Text}
    (closes : closesBlock closing = true) (rest : List Text) :
    eventsFrom (some passed) (body ++ closing :: rest) =
      .blockClosed (passed + body.length) :: eventsFrom none rest := by
  induction body generalizing passed with
  | nil => simp [eventsFrom, closes]
  | cons line body induction =>
      have notYet := inside line List.mem_cons_self
      have others : ∀ line ∈ body, closesBlock line = false :=
        fun line member => inside line (List.mem_cons_of_mem _ member)
      have count : passed + 1 + body.length = passed + (line :: body).length := by
        rw [List.length_cons, Nat.add_assoc, Nat.add_comm 1]
      simp [eventsFrom, notYet, induction (passed + 1) others, count]

/-- Scans lines from outside any block. -/
def events (lines : List Text) : List ScanEvent := eventsFrom none lines

/-- The items among scan events. -/
def itemsOf (events : List ScanEvent) : List Item :=
  events.filterMap fun
    | .item item => some item
    | _ => none

/-- The items outside embedded blocks. -/
def items (lines : List Text) : List Item := itemsOf (events lines)

/-- The remark on an event. -/
def remark? : ScanEvent → Option LogEntry
  | .item _ => none
  | .blockClosed passed => some (.trace s!"tokens: left embedded block after {passed} line(s)")
  | .blockOpen passed =>
      some (.debug s!"tokens: embedded block not terminated; {passed} line(s) skipped")

/-- The remarks made until a number of items has been taken. -/
def remarksUntil : Nat → List ScanEvent → List LogEntry
  | 0, _ => []
  | _, [] => []
  | count + 1, .item _ :: events => remarksUntil count events
  | count + 1, event :: events => (remark? event).toList ++ remarksUntil (count + 1) events

/-- The remarks of a complete scan. -/
def remarks (events : List ScanEvent) : List LogEntry := events.filterMap remark?

end Scan

end RelayDescriptor
