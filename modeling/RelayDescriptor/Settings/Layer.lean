import RelayDescriptor.Log
import RelayDescriptor.Settings.Setting
import RelayDescriptor.Text.Blank

/-!
# Layers of settings

Settings come in layers, each of which may set some options.  Of two layers the
later one prevails option by option.  A layer that is read from a document ignores
what it does not understand and leaves a remark.
-/

namespace RelayDescriptor

/-- The settings that are in force. -/
structure Settings where
  /-- Whether unrecognized lines are violations. -/
  strict : Bool
  /-- How many bytes are looked at to tell the kind. -/
  window : Int
  /-- The type name that makes looking unnecessary. -/
  hint : Option Text
  /-- The documents that the settings come from, in order. -/
  sources : List Text
  deriving Repr, DecidableEq

/-- Settings of which some may be unset. -/
structure Layer where
  strict : Option Bool
  window : Option Int
  hint : Option Text
  sources : List Text
  deriving Repr, DecidableEq

/-- The name of the table with the options. -/
def optionTable : Text := "parser".toList

/-- The option for strict reading. -/
def strictOption : Text := "fail_unrecognized_lines".toList

/-- The option for the number of bytes that are looked at. -/
def windowOption : Text := "sniff_window".toList

/-- The option for the type name. -/
def hintOption : Text := "type_hint".toList

/-- The window when none is set. -/
def defaultWindow : Int := 100

namespace Layer

/-- The layer that sets nothing. -/
def empty : Layer := ⟨none, none, none, []⟩

/-- The layer of the defaults. -/
def defaults : Layer := ⟨some false, some defaultWindow, none, []⟩

/-- A layer with another one above it. -/
def merge (layer above : Layer) : Layer where
  strict := above.strict.or layer.strict
  window := above.window.or layer.window
  hint := above.hint.or layer.hint
  sources := layer.sources ++ above.sources

@[simp] theorem empty_merge (layer : Layer) : empty.merge layer = layer := by
  simp [merge, empty]

@[simp] theorem merge_empty (layer : Layer) : layer.merge empty = layer := by
  simp [merge, empty]

theorem merge_assoc (lower layer above : Layer) :
    (lower.merge layer).merge above = lower.merge (layer.merge above) := by
  simp [merge, Option.or_assoc]

/-- The settings of a layer; unset options have their defaults. -/
def freeze (layer : Layer) : Settings where
  strict := layer.strict.getD false
  window := layer.window.getD defaultWindow
  hint := layer.hint
  sources := layer.sources

/-- The flag that a value sets. -/
def readStrict? : Setting → Option Bool
  | .flag value => some value
  | _ => none

/-- The window that a value sets, which must be positive. -/
def readWindow? : Setting → Option Int
  | .integer n => if 0 < n then some n else none
  | _ => none

/-- The type name that a value sets, which must not be blank. -/
def readHint? : Setting → Option Text
  | .text value => if value.trim.isEmpty then none else some value.trim
  | _ => none

/-- The value of an option; an absent value is as good as none. -/
def option? (name : Text) (entries : OrderedMap Text Setting) : Option Setting :=
  match OrderedMap.find? name entries with
  | none | some .absent => none
  | some value => some value

/-- The table of options: at the top, or else within the table of this tool. -/
def optionTable? (document : OrderedMap Text Setting) : Option Setting :=
  (option? optionTable document).or do
    let tools ← (← option? "tool".toList document).entries?
    let tool ← (← option? "descparse".toList tools).entries?
    option? optionTable tool

/-- The layer of a document that has a source, if that is known. -/
def ofDocument (document : OrderedMap Text Setting) (source : Option Text) : Layer :=
  let sources := source.toList
  match (optionTable? document).bind Setting.entries? with
  | none => { empty with sources }
  | some options =>
      {
        strict := (option? strictOption options).bind readStrict?
        window := (option? windowOption options).bind readWindow?
        hint := (option? hintOption options).bind readHint?
        sources
      }

/-- The remark on an option with a value that is not understood. -/
def ignored {α : Type} (options : OrderedMap Text Setting) (name : Text)
    (read? : Setting → Option α) (expected : String) : List LogEntry :=
  match option? name options with
  | none => []
  | some value =>
      if (read? value).isSome then []
      else [.warning s!"Ignoring {shown name}={value.quoted}: expected {expected}"]

/-- The names in a table of options that are no options, in order. -/
def unknownOptions (options : OrderedMap Text Setting) : List Text :=
  Text.sortedSet (options.keys.filter fun name =>
    !([strictOption, windowOption, hintOption].contains name))

/-- The name of a source in remarks. -/
def sourceText (source : Option Text) : String :=
  match source with
  | none | some [] => "<dict>"
  | some name => shown name

/-- The remarks made when a layer is read from a document. -/
def remarks (document : OrderedMap Text Setting) (source : Option Text) : List LogEntry :=
  let place := sourceText source
  match optionTable? document with
  | none => [.debug s!"No [{shown optionTable}] table in {place}"]
  | some (.table options) =>
      ((unknownOptions options).map fun name =>
        LogEntry.warning s!"Ignoring unknown key '{shown name}' in {place}") ++
      ignored options strictOption readStrict? "a boolean" ++
      ignored options windowOption readWindow? "a positive integer" ++
      ignored options hintOption readHint? "a type name"
  | some value =>
      [.warning (s!"Ignoring [{shown optionTable}] in {place}: expected a table, got " ++
        value.typeName)]

end Layer

namespace Settings

/-- The layer that sets all options as they are in force. -/
def thaw (settings : Settings) : Layer :=
  ⟨some settings.strict, some settings.window, settings.hint, settings.sources⟩

@[simp] theorem freeze_thaw (settings : Settings) : settings.thaw.freeze = settings := rfl

/-- The document of settings, without their sources. -/
def toDocument (settings : Settings) : OrderedMap Text Setting :=
  let hint := match settings.hint with
    | none => []
    | some name => [(hintOption, Setting.text name)]
  [(optionTable, .table
    ([(strictOption, .flag settings.strict), (windowOption, .integer settings.window)] ++ hint))]

end Settings

end RelayDescriptor
