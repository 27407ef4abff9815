import RelayDescriptor.Keyword.Constraints
import RelayDescriptor.Line.Basic

/-!
# Rules on lines

What the lines of a document have to satisfy, and the verdict on them as a whole: the
first line must have the leading keyword, in strict reading every line must be
recognized, and the occurrences of keywords must agree with the constraints.  The rules
have an order, and the first one that is broken is told.
-/

namespace RelayDescriptor

/-- What the lines of a document have to satisfy. -/
structure LineRules where
  /-- The keyword of the first line. -/
  leading : Text
  /-- The keywords that may occur. -/
  recognized : List Text
  constraints : Constraints
  /-- Whether an unrecognized line is a violation. -/
  strict : Bool
  /-- How many unrecognized lines are kept; without a cap all are. -/
  cap : Option Int
  deriving Repr, DecidableEq

/-- The lines of a document that satisfies its rules. -/
structure Validated where
  /-- The recognized lines in order. -/
  tokens : List Token
  /-- How often each keyword of a recognized line occurs. -/
  counts : OrderedMap Text Nat
  /-- The unrecognized lines that are kept, in order. -/
  unrecognized : List Text
  deriving Repr, DecidableEq

/-- How often a keyword occurs. -/
def occurrences (keyword : Text) (tokens : List Token) : Nat :=
  tokens.countP fun token => token.keyword = keyword

/-- The keywords that occur, in the order of their first occurrence, with their counts. -/
def keywordCounts (tokens : List Token) : OrderedMap Text Nat :=
  (tokens.map Token.keyword).eraseDups.map fun keyword => (keyword, occurrences keyword tokens)

namespace Constraints

/-- The violation by a keyword that must occur exactly once. -/
def exactlyOnceViolation? (count : Text → Nat) (keyword : Text) : Option Violation :=
  match count keyword with
  | 0 => some (.missing keyword)
  | 1 => none
  | count => some (.duplicate keyword count)

/-- The violation by a keyword that may occur at most once. -/
def atMostOnceViolation? (count : Text → Nat) (keyword : Text) : Option Violation :=
  if 1 < count keyword then some (.repeated keyword (count keyword)) else none

/-- The violation by a keyword that needs another one. -/
def dependencyViolation? (count : Text → Nat) (entry : Text × Text) : Option Violation :=
  if 0 < count entry.1 ∧ count entry.2 = 0 then some (.missingDependency entry.1 entry.2)
  else none

/-- The first constraint that the numbers of occurrences break: first the keywords that must occur
exactly once, then those that may occur at most once, then the dependencies, each in ascending
order. -/
def violation? (constraints : Constraints) (count : Text → Nat) : Option Violation :=
  (constraints.exactlyOnce.findSome? (exactlyOnceViolation? count)).or
    ((constraints.atMostOnce.findSome? (atMostOnceViolation? count)).or
      (constraints.sortedDependencies.findSome? (dependencyViolation? count)))

end Constraints

namespace LineRules

/-- The token of a line whose keyword is recognized. -/
def recognize? (rules : LineRules) (item : Item) : Option Token :=
  item.token?.filter fun token => rules.recognized.contains token.keyword

/-- The violation by the first line. -/
def leadingViolation? (rules : LineRules) : List Item → Option Violation
  | [] => some (.empty rules.leading)
  | item :: _ =>
      if item.keyword? = some rules.leading then none
      else some (.wrongLeading rules.leading item.line)

/-- The first line that is not recognized. -/
def firstUnrecognized? (rules : LineRules) (items : List Item) : Option Item :=
  items.find? fun item => (rules.recognize? item).isNone

/-- The violation by a line in strict reading. -/
def strictViolation? (rules : LineRules) (items : List Item) : Option Violation :=
  if rules.strict then
    (rules.firstUnrecognized? items).map fun item => .unrecognized item.keyword? item.line
  else none

/-- The lines that are not recognized. -/
def unrecognizedLines (rules : LineRules) (items : List Item) : List Text :=
  (items.filter fun item => (rules.recognize? item).isNone).map Item.line

/-- As many lines as are kept. -/
def kept (rules : LineRules) (lines : List Text) : List Text :=
  match rules.cap with
  | none => lines
  | some cap => lines.take cap.toNat

/-- What is kept of the lines of a document: the recognized ones with the counts of their keywords,
and as many of the others as may be. -/
def extract (rules : LineRules) (items : List Item) : Validated :=
  let tokens := items.filterMap rules.recognize?
  ⟨tokens, keywordCounts tokens, rules.kept (rules.unrecognizedLines items)⟩

/-- The first rule that the lines of a document break. -/
def violation? (rules : LineRules) (items : List Item) : Option Violation :=
  (rules.leadingViolation? items).or
    ((rules.strictViolation? items).or
      (rules.constraints.violation? (occurrences · (items.filterMap rules.recognize?))))

/-- The verdict on the lines of a document. -/
def verdict (rules : LineRules) (items : List Item) : Except Violation Validated :=
  match rules.violation? items with
  | some violation => .error violation
  | none => .ok (rules.extract items)

end LineRules

end RelayDescriptor
