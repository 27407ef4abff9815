import RelayDescriptor.Command.Toolkit
import RelayDescriptor.Settings.Layer
import RelayDescriptor.Text.Utf8

/-!
# Configuration files

Settings are merged from the files of the current directory and from files that are
named on the command line.  The first file that cannot be used ends the loading.
-/

namespace RelayDescriptor

/-- Why a configuration file cannot be used. -/
inductive ConfigurationFault where
  | unreadable (name : Text) (error : SystemError)
  /-- The bytes of the file are not UTF-8. -/
  | undecodable (flaw : Utf8.Flaw)
  /-- The text of the file is not in the notation of settings documents. -/
  | malformed (name : Text) (description : String)
  /-- The reader of settings documents fails in another way. -/
  | foreign (className message : String)
  deriving Repr, DecidableEq

/-- The fault of a file whose text has a flaw. -/
def ConfigurationFault.ofFlaw (name : Text) : DocumentFlaw → ConfigurationFault
  | .malformed description => .malformed name description
  | .foreign className message => .foreign className message

/-- A name that cannot be looked up. -/
structure Unreachable where
  name : Text
  error : SystemError
  deriving Repr, DecidableEq

namespace FileName

/-- The names that pass a test, unless one of them cannot be looked up for it. -/
def select (test : Text → Except SystemError Bool) :
    List Text → Except Unreachable (List Text)
  | [] => .ok []
  | name :: names =>
      match test name with
      | .error error => .error ⟨name, error⟩
      | .ok false => select test names
      | .ok true => (select test names).map (name :: ·)

end FileName

namespace Configuration

/-- The files that are looked for in the current directory, in the order of merging. -/
def discoverable : List Text := ["pyproject.toml".toList, "descparse.toml".toList]

/-- The files of the current directory that are there. -/
def discovered (environment : Environment) : Except Unreachable (List Text) :=
  FileName.select (fun name => (environment.entry name).isFile)
    (discoverable.map (FileName.within environment.directory))

/-- A text in which every line break is one line feed. -/
def withLineFeeds : Text → Text
  | [] => []
  | '\r' :: '\n' :: text => '\n' :: withLineFeeds text
  | '\r' :: text => '\n' :: withLineFeeds text
  | c :: text => c :: withLineFeeds text

/-- The document in a file. -/
def document (tools : Toolkit) (environment : Environment) (name : Text) :
    Except ConfigurationFault (OrderedMap Text Setting) :=
  match (environment.entry name).read with
  | .error error => .error (.unreadable name error)
  | .ok content =>
      match Utf8.flaw? content with
      | some flaw => .error (.undecodable flaw)
      | none =>
          (tools.document (withLineFeeds (Utf8.decode content))).mapError
            (ConfigurationFault.ofFlaw name)

section Merging

variable {ε : Type} (document : Text → Except ε (OrderedMap Text Setting))

/-- Merges the layers of the documents in files over a layer. -/
def merged (layer : Layer) : List Text → Except ε Layer
  | [] => .ok layer
  | name :: names =>
      match document name with
      | .error fault => .error fault
      | .ok content => merged (layer.merge (Layer.ofDocument content (some name))) names

/-- The settings of the documents in files. -/
def load (names : List Text) : Except ε Settings :=
  (merged document Layer.defaults names).map Layer.freeze

/-- The remarks made while files are merged. -/
def remarks : List Text → List LogEntry
  | [] => []
  | name :: names =>
      match document name with
      | .error _ => []
      | .ok content =>
          Layer.remarks content (some name) ++
            .debug s!"Merged config layer {shown name}" :: remarks names

end Merging

/-- The remark on the files of the current directory, if all of them can be looked up. -/
def discoveryRemarks (environment : Environment) : List LogEntry :=
  match discovered environment with
  | .error _ => []
  | .ok names =>
      [.debug (s!"Discovered {names.length} config file(s) in " ++ shown environment.directory)]

end Configuration

end RelayDescriptor
