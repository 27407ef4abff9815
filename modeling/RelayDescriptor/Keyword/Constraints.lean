import RelayDescriptor.Failure
import RelayDescriptor.OrderedMap

/-!
# Keyword constraints

How often keywords may occur in a document, and which keyword needs which other
one.  Constraints are checked for contradictions when they are defined.
-/

namespace RelayDescriptor

/-- Rules on the occurrence of keywords.  The first two lists ascend and hold no keyword twice. -/
structure Constraints where
  /-- The keywords that must occur exactly once. -/
  exactlyOnce : List Text
  /-- The keywords that may occur at most once. -/
  atMostOnce : List Text
  /-- The keyword that another one needs. -/
  dependsOn : OrderedMap Text Text
  deriving Repr, DecidableEq

namespace Constraints

/-- The constraints with the given keywords, not checked. -/
def of (exactlyOnce atMostOnce : List Text) (dependsOn : OrderedMap Text Text) : Constraints :=
  ⟨Text.sortedSet exactlyOnce, Text.sortedSet atMostOnce, dependsOn⟩

/-- The first contradiction within constraints. -/
def contradiction? (constraints : Constraints) : Option DefinitionError :=
  match constraints.exactlyOnce.filter constraints.atMostOnce.contains with
  | [] =>
      (List.find? (fun entry => entry.1 = entry.2) constraints.dependsOn).map
        fun entry => .selfDependency entry.1
  | both => some (.bothOnce both)

/-- The constraints with the given keywords, if they do not contradict each other. -/
def define (exactlyOnce atMostOnce : List Text) (dependsOn : OrderedMap Text Text) :
    Except DefinitionError Constraints :=
  let constraints := of exactlyOnce atMostOnce dependsOn
  match constraints.contradiction? with
  | some error => .error error
  | none => .ok constraints

/-- Every keyword of a group needs the group's own keyword, which does not need itself. -/
def needs (map : OrderedMap Text Text) (group : Text × List Text) : OrderedMap Text Text :=
  group.2.foldl
    (fun result keyword =>
      if keyword = group.1 then result else OrderedMap.insert keyword group.1 result)
    map

/-- The dependencies of groups, each of which is a needed keyword with those that need it.  A
keyword in several groups needs the keyword of the last one. -/
def dependencies (groups : List (Text × List Text)) : OrderedMap Text Text :=
  groups.foldl needs []

/-- The keywords that the constraints mention, ascending. -/
def keywords (constraints : Constraints) : List Text :=
  Text.sortedSet (constraints.exactlyOnce ++ constraints.atMostOnce ++
    constraints.dependsOn.map Prod.fst ++ constraints.dependsOn.map Prod.snd)

/-- Inserts a dependency before the first one with a keyword above its own. -/
def insertDependency (entry : Text × Text) : List (Text × Text) → List (Text × Text)
  | [] => [entry]
  | head :: tail =>
      if Text.isBelow entry.1 head.1 then entry :: head :: tail
      else head :: insertDependency entry tail

/-- The dependencies in ascending order of the keywords that need another. -/
def sortedDependencies (constraints : Constraints) : List (Text × Text) :=
  constraints.dependsOn.foldr insertDependency []

end Constraints

end RelayDescriptor
