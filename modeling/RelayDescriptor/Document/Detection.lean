import RelayDescriptor.Blob.Basic
import RelayDescriptor.Failure
import RelayDescriptor.Log

/-!
# Detecting kinds

The kind of a blob is told from its first bytes, read as one character each.  A
type annotation of the right version at the very beginning is trusted; otherwise
the patterns of the kinds are tried in turn.  A hint makes looking unnecessary.
-/

namespace RelayDescriptor

/-- What a caller says about the kind of a blob. -/
inductive Hint where
  /-- The type name, perhaps with a version or as an annotation. -/
  | named (name : Text)
  /-- The kind itself. -/
  | known (kind : Kind)
  deriving Repr, DecidableEq

namespace Hint

/-- The word that begins a type annotation. -/
def annotationOpening : Text := "@type ".toList

/-- The type name without the word that begins an annotation. -/
def bareName (name : Text) : Text :=
  let trimmed := name.trim
  if annotationOpening.isPrefixOf trimmed then trimmed.drop annotationOpening.length else trimmed

/-- The kind that a hint means. -/
def resolve : Hint → Except Rejection Kind
  | .known kind => .ok kind
  | .named name =>
      match Kind.ofTypeName? (bareName name) with
      | some kind => .ok kind
      | none => .error (.unknownTypeName name)

/-- The hint between quotes or brackets. -/
def quoted : Hint → String
  | .named name => shown (Quoted.text name)
  | .known kind => s!"<DocumentKind.{kind.constantName}: '{kind.typeName}'>"

/-- The text of what a hint means. -/
def resolvedText : Except Rejection Kind → String
  | .ok kind => s!"DocumentKind.{kind.constantName}"
  | .error rejection => rejection.message

end Hint

/-- How the documents of a kind look. -/
structure Pattern where
  kind : Kind
  /-- The beginnings of lines that tell the kind; none if only annotations tell it. -/
  lineStarts : List String
  /-- What else has to occur. -/
  required : List String
  /-- Whether the line has to be the first one. -/
  firstLine : Bool

namespace Pattern

/-- A pattern that any line may match. -/
def anyLine (kind : Kind) (start : String) : Pattern := ⟨kind, [start], [], false⟩

/-- A kind that only annotations tell. -/
def annotated (kind : Kind) : Pattern := ⟨kind, [], [], false⟩

/-- The patterns in the order in which they are tried. -/
def all : List Pattern :=
  [
    ⟨.microdescConsensus, ["network-status-version 3 microdesc"], ["\nvote-status consensus\n"],
      false⟩,
    ⟨.consensus, ["network-status-version 3"], ["\nvote-status consensus\n"], false⟩,
    ⟨.vote, ["network-status-version 3\n"], ["\nvote-status vote\n"], false⟩,
    ⟨.bridgeNetworkStatus, ["r "], [], true⟩,
    annotated .bridgeServerDescriptor,
    anyLine .serverDescriptor "router ",
    annotated .bridgeExtraInfo,
    anyLine .extraInfo "extra-info ",
    anyLine .microdescriptor "onion-key\n",
    anyLine .bridgePoolAssignment "bridge-pool-assignment ",
    anyLine .keyCertificate "dir-key-certificate-version ",
    anyLine .exitList "ExitNode ",
    anyLine .networkStatus2 "network-status-version 2\n",
    anyLine .directory "signed-directory\n",
    annotated .performance
  ]

/-- The beginning of a type annotation of the kind, in the first version. -/
def typeTag (pattern : Pattern) : Text := s!"@type {pattern.kind.typeName} 1.".toList

/-- Whether a beginning of a blob is annotated with the kind. -/
def matchesAnnotation (pattern : Pattern) (beginning : Text) : Bool :=
  pattern.typeTag.isPrefixOf beginning

/-- Whether a line start occurs where the pattern allows it. -/
def matchesStart (pattern : Pattern) (beginning : Text) (start : String) : Bool :=
  start.toList.isPrefixOf beginning ||
    (!pattern.firstLine && occursIn ('\n' :: start.toList) beginning)

/-- Whether a beginning of a blob looks like the kind. -/
def matchesContent (pattern : Pattern) (beginning : Text) : Bool :=
  pattern.lineStarts.any (pattern.matchesStart beginning) &&
    pattern.required.all fun part => occursIn part.toList beginning

end Pattern

namespace Blob

/-- The number of bytes that are usually looked at. -/
def usualWindow : Int := 100

/-- The first bytes of a blob, as characters.  A negative window leaves out bytes at the end. -/
def beginning (blob : Blob) (window : Int) : Text :=
  let count := if 0 ≤ window then window.toNat else blob.size - window.natAbs
  (blob.data.take count).map fun b => Char.ofNat b.toNat

/-- The kind of a blob that is annotated with one. -/
def annotatedKind? (beginning : Text) : Option Kind :=
  (Pattern.all.find? fun pattern => pattern.matchesAnnotation beginning).map Pattern.kind

/-- The kind of a blob that looks like one. -/
def contentKind? (beginning : Text) : Option Kind :=
  (Pattern.all.find? fun pattern => pattern.matchesContent beginning).map Pattern.kind

/-- The kind of a blob, from a hint or else from its beginning. -/
def detect (blob : Blob) (hint : Option Hint) (window : Int) : Except Rejection Kind :=
  match hint with
  | some hint => hint.resolve
  | none =>
      let beginning := blob.beginning window
      match (annotatedKind? beginning).or (contentKind? beginning) with
      | some kind => .ok kind
      | none => .error (.unknownContent beginning)

/-- The origin in log entries. -/
def originText (blob : Blob) : String :=
  match blob.origin with
  | some origin => shown origin
  | none => "None"

/-- The remark made when the kind is determined. -/
def detectionRemark (blob : Blob) (hint : Option Hint) (window : Int) : LogEntry :=
  match hint with
  | some hint =>
      .debug s!"sniffer: type hint {hint.quoted} -> {Hint.resolvedText hint.resolve}"
  | none =>
      let beginning := blob.beginning window
      match annotatedKind? beginning, contentKind? beginning with
      | some kind, _ => .trace s!"sniffer: type annotation -> {kind.typeName}"
      | none, some kind => .trace s!"sniffer: content pattern -> {kind.typeName}"
      | none, none =>
          .debug ("sniffer: no kind matched prefix " ++ shown (Quoted.text beginning) ++
            s!" (origin: {blob.originText})")

end Blob

end RelayDescriptor
