import RelayDescriptor.Settings.Setting
import RelayDescriptor.Tools.Toml.Quotation

/-!
# Tables of settings documents

A document may come back to a table after other tables, and then the table is
scattered: several entries have one key.  Whether a table may be continued depends
on how its parts came about, on what is the last of them, and in the end on whether
the parts have a key in common.
-/

namespace RelayDescriptor

namespace Toml

/-- The greatest number of parts of a key, and of lists and tables inside one another. -/
def nestingLimit : Nat := 100

/-- The number of steps that suffices for the tables inside a table.  Headings and dotted keys each
nest tables as deep as a key has parts, and every level takes two steps. -/
def levels : Nat := 4 * (nestingLimit + 1)

/-- How a table came about. -/
inductive Origin where
  /-- A longer heading mentions it. -/
  | implied
  /-- It has a heading. -/
  | headed
  /-- A dotted key mentions it. -/
  | dotted
  deriving Repr, DecidableEq

/-- What stands under a key while a document is read. -/
inductive Node where
  | value (setting : Setting)
  | table (origin : Origin) (entries : List (Text × Node))
  /-- The tables of an array. -/
  | tables (elements : List (List (Text × Node)))

/-- The entries of a table while a document is read, in the order of the document. -/
abbrev Entries := List (Text × Node)

namespace Node

/-- Whether a node is a table. -/
def isTable : Node → Bool
  | .table .. => true
  | _ => false

/-- The entries of a node that is a table. -/
def entries : Node → Entries
  | .table _ entries => entries
  | _ => []

end Node

namespace Entries

/-- The keys in the order of their first entries. -/
def keys (entries : Entries) : List Text := (entries.map Prod.fst).eraseDups

/-- The last node under a key. -/
def last? (key : Text) (entries : Entries) : Option Node := OrderedMap.find? key entries.reverse

/-- The key of the last table. -/
def lastTable? (entries : Entries) : Option Text :=
  (entries.reverse.find? fun (_, node) => node.isTable).map Prod.fst

/-- The entries with another last node under a key. -/
def replaceLast (key : Text) (node : Node) (entries : Entries) : Entries :=
  (OrderedMap.insert key node entries.reverse).reverse

/-- The entries of all parts of a table that is scattered. -/
def scattered? (key : Text) (entries : Entries) : Option Entries :=
  match entries.filter fun (k, _) => k = key with
  | [] | [_] => none
  | parts => some (parts.flatMap fun (_, node) => node.entries)

/-- The first key that comes again after something other than a table.  The entries that have been
seen are given with the last one first. -/
def blocked? (seen : Entries) : Entries → Option Text
  | [] => none
  | (key, node) :: rest =>
      match OrderedMap.find? key seen with
      | some (.value _) | some (.tables _) => some key
      | _ => blocked? ((key, node) :: seen) rest

/-- Refuses a scattered table in which something other than a table has a further entry. -/
def visit (key : Text) (entries : Entries) : Except Flaw Unit :=
  match (scattered? key entries).bind (blocked? []) with
  | some repeated => .error (.repeatedKey repeated)
  | none => .ok ()

/-- Adds further entries one after the other, and visits the table of each. -/
def extend (add : Entries → Text × Node → Except Flaw Entries) (entries further : Entries) :
    Except Flaw Entries :=
  further.foldlM (fun entries entry => do
    let entries ← add entries entry
    visit entry.1 entries
    return entries) entries

mutual

/-- Adds an entry.  A further part of a table is allowed unless both parts have headings or a
heading follows a dotted key; tables that two headings in a row imply are joined, and a table that a
heading implies after an array continues the last table of the array.  If `checked`, the parts of a
scattered table are compared at once.  The first argument bounds the nesting. -/
def add : Nat → Bool → Entries → Text × Node → Except Flaw Entries
  | 0, _, _, _ => .error .invalid
  | depth + 1, checked, entries, (key, node) =>
      match last? key entries with
      | none => .ok (entries ++ [(key, node)])
      | some (.table before inner) =>
          match node with
          | .table origin further => do
              if before = .headed ∧ origin = .headed then .error (.repeatedKey key)
              else if before = .dotted ∧ origin = .headed then .error .redefinition
              else if before = .implied ∧ origin = .implied ∧ lastTable? entries = some key then
                let joined ← extend (add depth true) inner further
                return replaceLast key (.table before joined) entries
              else
                let entries := entries ++ [(key, node)]
                if checked then settle depth key entries
                return entries
          | _ => .error (.repeatedKey key)
      | some (.tables elements) =>
          match node, elements.getLast? with
          | .tables further, _ => .ok (replaceLast key (.tables (elements ++ further)) entries)
          | .table .implied further, some last => do
              let joined ← extend (add depth true) last further
              return replaceLast key (.tables (elements.dropLast ++ [joined])) entries
          | _, _ => .error (.repeatedKey key)
      | some (.value _) => .error (.repeatedKey key)

/-- Refuses a scattered table whose parts do not fit together. -/
def settle : Nat → Text → Entries → Except Flaw Unit
  | 0, _, _ => .error .invalid
  | depth + 1, key, entries =>
      match scattered? key entries with
      | none => .ok ()
      | some parts => do
          let joined ← parts.foldlM (add depth false) []
          (keys joined).forM fun key => settle depth key joined

end

/-- Refuses entries among which is a scattered table whose parts do not fit together. -/
def settleAll (entries : Entries) : Except Flaw Unit :=
  (keys entries).forM fun key => settle levels key entries

/-- The settings that entries amount to.  The first argument bounds the nesting. -/
def settings : Nat → Entries → Except Flaw (OrderedMap Text Setting)
  | 0, _ => .error .invalid
  | depth + 1, entries =>
      (keys entries).mapM fun key => do
        visit key entries
        match scattered? key entries, last? key entries with
        | some parts, _ => return (key, .table (← settings depth parts))
        | none, some (.value setting) => return (key, setting)
        | none, some (.table _ inner) => return (key, .table (← settings depth inner))
        | none, some (.tables elements) =>
            return (key, .list ((← elements.mapM (settings depth)).map .table))
        | none, none => .error .invalid

end Entries

end Toml

end RelayDescriptor
