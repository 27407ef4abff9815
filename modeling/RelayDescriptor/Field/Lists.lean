import RelayDescriptor.Field.Scalar
import RelayDescriptor.Line.Basic
import RelayDescriptor.Number.Binary64
import RelayDescriptor.OrderedMap

/-!
# Shares and lists

Percentages, comma-separated lists of numbers, and lists of keys with counts, which
are separated by commas or by spaces.
-/

namespace RelayDescriptor

/-- Reads the only argument of a line as a percentage that is not negative. -/
def share (line : Text) (arguments : List Text) : Except Fault Binary64 :=
  let expected := "a non-negative percentage like '0.37%'"
  match arguments with
  | [value] =>
      match value.getLast?, Decimal.ofText? value.dropLast with
      | some '%', some decimal =>
          let number := Binary64.ofDecimal decimal
          if number.isNegative then .error (.value line value expected) else .ok number
      | _, _ => .error (.value line value expected)
  | _ => .error (.line line expected)

/-- Joins the arguments of a comma-separated list.  Every argument but the last has to end with
a comma. -/
def joinListFrom (line : Text) (expected : String) (joined : Text) :
    List Text → Except Fault Text
  | [] => .ok joined
  | piece :: pieces =>
      if joined.getLast? = some ',' then joinListFrom line expected (joined ++ piece) pieces
      else .error (.value line piece expected)

/-- The comma-separated list that begins at an argument; it is empty if the argument is absent. -/
def listArgument (line : Text) (arguments : List Text) (index : Nat) (expected : String) :
    Except Fault Text :=
  match arguments.drop index with
  | [] => .ok []
  | first :: pieces => joinListFrom line expected first pieces

/-- Reads a key and its count. -/
def keyCount (keyLength : Int) (line : Text) (expected : String) (element : Text) :
    Except Fault (Text × Int) :=
  match Text.cutFirst? '=' element with
  | none => .error (.value line element expected)
  | some (key, count) =>
      if key.isEmpty || (0 < keyLength && (key.length : Int) != keyLength) ||
          !Numeral.isSigned count then
        .error (.value line element expected)
      else (readInteger count).map fun n => (key, n)

/-- Reads keys with counts; a key that comes again gets its last count. -/
def keyCounts (keyLength : Int) (line : Text) (expected : String) (elements : List Text) :
    Except Fault (OrderedMap Text Int) :=
  (elements.mapM (keyCount keyLength line expected)).map OrderedMap.ofList

/-- Reads the comma-separated list of keys with counts that begins at an argument.  A positive
key length is required of all keys. -/
def keyValueList (line : Text) (arguments : List Text) (index : Nat) (keyLength : Int) :
    Except Fault (OrderedMap Text Int) := do
  let expected := "a comma-separated list of key=value pairs with integer values"
  let list ← listArgument line arguments index expected
  keyCounts keyLength line expected (commaFields list)

/-- Reads the keys with counts that stand in the arguments from an index on. -/
def spacedKeyValues (line : Text) (arguments : List Text) (index : Nat) :
    Except Fault (OrderedMap Text Int) :=
  keyCounts 0 line "space-separated key=value pairs with integer values" (arguments.drop index)

/-- Reads the elements of the comma-separated list in an argument that must be the last one. -/
def elementsAt {α : Type} (read : Text → Except Fault α) (expected : String) (line : Text)
    (arguments : List Text) (index : Nat) : Except Fault (List α) :=
  match arguments.drop index with
  | [] => .ok []
  | [list] => (commaFields list).mapM read
  | _ :: extra :: _ => .error (.value line extra expected)

/-- Reads a comma-separated list of numbers. -/
def integerList (line : Text) (arguments : List Text) (index : Nat) : Except Fault (List Int) :=
  let expected := "a comma-separated list of integers"
  let read := fun (element : Text) =>
    if Numeral.isSigned element then readInteger element
    else .error (.value line element expected)
  elementsAt read expected line arguments index

/-- Reads a comma-separated list of decimal numbers. -/
def decimalList (line : Text) (arguments : List Text) (index : Nat) :
    Except Fault (List Binary64) :=
  let expected := "a comma-separated list of numbers"
  let read := fun (element : Text) =>
    match Decimal.ofText? element with
    | some decimal => .ok (Binary64.ofDecimal decimal)
    | none => .error (.value line element expected)
  elementsAt read expected line arguments index

end RelayDescriptor
