import RelayDescriptor.Grammar.ExtraInfo
import RelayDescriptor.Grammar.Microdescriptor
import RelayDescriptor.Grammar.NetworkStatus
import RelayDescriptor.Grammar.Server

/-!
# The registry of grammars

At most one grammar belongs to a kind.  Kinds that can be told apart but have no
grammar cannot be parsed.
-/

namespace RelayDescriptor

/-- Grammars by their kinds, in the order in which they were registered. -/
abbrev Registry := List Grammar

namespace Registry

/-- The grammar of a kind. -/
def find? (kind : Kind) (registry : Registry) : Option Grammar :=
  List.find? (fun grammar => grammar.kind = kind) registry

/-- The registry with a further grammar, whose kind must be new. -/
def register (registry : Registry) (grammar : Grammar) : Except DefinitionError Registry :=
  match registry.find? grammar.kind with
  | some _ => .error (.repeatedKind grammar.kind)
  | none => .ok (registry ++ [grammar])

/-- The grammars of the library. -/
def standard : Registry :=
  NetworkStatus.grammars ++ Server.grammars ++ ExtraInfo.grammars ++ Microdescriptor.grammars ++
    KeyCertificate.grammars

end Registry

/-- The grammar of a kind, if the kind can be parsed. -/
def grammarOf (kind : Kind) : Except Rejection Grammar :=
  match Registry.standard.find? kind with
  | some grammar => .ok grammar
  | none => .error (.unsupported kind)

/-- What is known about a kind. -/
structure KindInfo where
  kind : Kind
  /-- The keyword that opens a document, if the kind can be parsed. -/
  leading : Option Text
  description : String
  deriving Repr, DecidableEq

namespace KindInfo

/-- Whether the documents of the kind can be parsed. -/
def isSupported (info : KindInfo) : Bool := info.leading.isSome

/-- What is known about all kinds. -/
def all : List KindInfo :=
  Kind.all.map fun kind =>
    match Registry.standard.find? kind with
    | some grammar => ⟨kind, some grammar.leading, grammar.description⟩
    | none => ⟨kind, none, ""⟩

end KindInfo

end RelayDescriptor
