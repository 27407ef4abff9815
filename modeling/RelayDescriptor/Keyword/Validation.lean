import RelayDescriptor.Keyword.Rules
import RelayDescriptor.Line.Scan

/-!
# Validation

The lines of a document are checked before any value is decoded.  One pass over them
counts the keywords of recognized lines and collects the lines themselves; in strict
reading it ends at the first line that is not recognized.  The constraints are checked
after it, on the counts alone.
-/

namespace RelayDescriptor

/-- What a pass over lines has gathered so far. -/
structure Tally where
  /-- The recognized lines. -/
  tokens : Array Token
  /-- How often each keyword of a recognized line has occurred. -/
  counts : OrderedMap Text Nat
  /-- The unrecognized lines that are kept. -/
  unrecognized : Array Text
  deriving Repr, DecidableEq

namespace Tally

/-- The tally before the first line. -/
def empty : Tally := ⟨#[], [], #[]⟩

/-- How often a keyword has occurred; one that is not there has not. -/
def count (tally : Tally) (keyword : Text) : Nat :=
  (OrderedMap.find? keyword tally.counts).getD 0

/-- The tally after a recognized line. -/
def withToken (token : Token) (tally : Tally) : Tally where
  tokens := tally.tokens.push token
  counts := OrderedMap.insert token.keyword (tally.count token.keyword + 1) tally.counts
  unrecognized := tally.unrecognized

/-- The tally after an unrecognized line that is kept. -/
def withLine (line : Text) (tally : Tally) : Tally :=
  { tally with unrecognized := tally.unrecognized.push line }

/-- What is handed on of a pass over all lines. -/
def validated (tally : Tally) : Validated :=
  ⟨tally.tokens.toList, tally.counts, tally.unrecognized.toList⟩

end Tally

namespace LineRules

/-- Whether one more unrecognized line is kept. -/
def hasRoom (rules : LineRules) (tally : Tally) : Bool :=
  match rules.cap with
  | none => true
  | some cap => tally.unrecognized.size < cap

/-- Looks at a line. -/
def look (rules : LineRules) (tally : Tally) (item : Item) : Except Violation Tally :=
  match rules.recognize? item with
  | some token => .ok (tally.withToken token)
  | none =>
      if rules.strict then .error (.unrecognized item.keyword? item.line)
      else if rules.hasRoom tally then .ok (tally.withLine item.line)
      else .ok tally

/-- The recognized lines of a document that breaks no rule, their keywords with counts, and the
unrecognized lines that are kept. -/
def validate (rules : LineRules) (items : List Item) : Except Violation Validated := do
  if let some violation := rules.leadingViolation? items then .error violation
  let tally ← items.foldlM rules.look .empty
  match rules.constraints.violation? tally.count with
  | some violation => .error violation
  | none => return tally.validated

/-- How many lines have been looked at when validation ends: the first one if it is wrong, those
up to the first unrecognized one in strict reading, or else all. -/
def examined (rules : LineRules) (items : List Item) : Option Nat :=
  if (rules.leadingViolation? items).isSome then some 1
  else if rules.strict then
    (items.findIdx? fun item => (rules.recognize? item).isNone).map (· + 1)
  else none

/-- The remarks made while lines are scanned and validated. -/
def remarks (rules : LineRules) (lines : List Text) : List LogEntry :=
  let events := Scan.events lines
  let items := Scan.itemsOf events
  let scanned := match items, rules.examined items with
    | _ :: _, some count => Scan.remarksUntil count events
    | _, _ => Scan.remarks events
  let collected := match rules.validate items with
    | .ok ⟨_, _, line :: unrecognized⟩ =>
        [.debug s!"validator: collected {(line :: unrecognized).length} unrecognized line(s)"]
    | _ => []
  scanned ++ collected

end LineRules

end RelayDescriptor
