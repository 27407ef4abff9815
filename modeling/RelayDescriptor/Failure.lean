import RelayDescriptor.Kind
import RelayDescriptor.Number.Numeral
import RelayDescriptor.Text.Ascii

/-!
# Failures

Two things can go wrong with a document.  A *rejection* is about the input: its kind
is not known, a line breaks the rules of its document, or a value has not the
expected shape.  An *interruption* is not about the input: it is a limit of the
reader, or a *definition error* of a grammar that contradicts itself or of a search
for documents that does not get on, and it ends the reading.
-/

namespace RelayDescriptor

/-- How a document breaks the rules on its lines. -/
inductive Violation where
  /-- There is no line at all. -/
  | empty (leading : Text)
  /-- The first line has another keyword. -/
  | wrongLeading (leading line : Text)
  /-- A line is outside the grammar; blank lines have no keyword. -/
  | unrecognized (keyword : Option Text) (line : Text)
  /-- A required keyword does not occur. -/
  | missing (keyword : Text)
  /-- A keyword that must occur exactly once occurs more often. -/
  | duplicate (keyword : Text) (count : Nat)
  /-- A keyword that may occur once occurs more often. -/
  | repeated (keyword : Text) (count : Nat)
  /-- A keyword occurs without the one it depends on. -/
  | missingDependency (keyword required : Text)
  /-- A line has the wrong number of arguments. -/
  | argumentCount (keyword line : Text) (atLeast : Bool) (expected found : Nat)
  /-- A line that belongs to an authority precedes every authority. -/
  | beforeAuthority (keyword line : Text)
  /-- A line that belongs to an authority occurs a second time for it. -/
  | againForAuthority (keyword line : Text)
  deriving Repr, DecidableEq

namespace Violation

/-- The class of a violation. -/
def cause : Violation → String
  | .empty .. | .wrongLeading .. => "bad-leading-keyword"
  | .unrecognized .. => "unrecognized-line"
  | .missing .. => "missing-keyword"
  | .duplicate .. | .repeated .. | .againForAuthority .. => "duplicate-keyword"
  | .missingDependency .. => "missing-dependency"
  | .argumentCount .. | .beforeAuthority .. => "illegal-line"

/-- The keyword that a violation is about. -/
def keyword? : Violation → Option Text
  | .empty leading | .wrongLeading leading _ => some leading
  | .unrecognized keyword _ => keyword
  | .missing keyword | .duplicate keyword _ | .repeated keyword _
  | .missingDependency keyword _ | .argumentCount keyword ..
  | .beforeAuthority keyword _ | .againForAuthority keyword _ => some keyword

/-- The line that a violation is about. -/
def line? : Violation → Option Text
  | .wrongLeading _ line | .unrecognized _ line | .argumentCount _ line ..
  | .beforeAuthority _ line | .againForAuthority _ line => some line
  | .empty .. | .missing .. | .duplicate .. | .repeated .. | .missingDependency .. => none

/-- The wording of a violation. -/
def message : Violation → String
  | .empty leading =>
      s!"Empty document; keyword '{shown leading}' must be contained in the first line."
  | .wrongLeading leading _ =>
      s!"Keyword '{shown leading}' must be contained in the first line."
  | .unrecognized _ line => s!"Unrecognized line '{shown line}'."
  | .missing keyword => s!"Keyword '{shown keyword}' must be contained exactly once."
  | .duplicate keyword count =>
      s!"Keyword '{shown keyword}' must be contained exactly once, found {count} times."
  | .repeated keyword count =>
      s!"Keyword '{shown keyword}' must be contained at most once, found {count} times."
  | .missingDependency keyword required =>
      s!"Keyword '{shown keyword}' is contained, but keyword '{shown required}' is not."
  | .argumentCount _ line atLeast expected found =>
      let bound := if atLeast then "at least " else ""
      s!"Illegal line '{shown line}': expected {bound}{expected} argument(s), found {found}."
  | .beforeAuthority keyword _ => s!"Keyword '{shown keyword}' must follow a 'dir-source' line."
  | .againForAuthority keyword _ =>
      s!"Keyword '{shown keyword}' must be contained at most once per 'dir-source'."

end Violation

/-- Why an input, or one of its documents, is refused. -/
inductive Rejection where
  /-- Nothing in the inspected beginning tells the kind. -/
  | unknownContent (beginning : Text)
  /-- No kind has the given type name. -/
  | unknownTypeName (name : Text)
  /-- The kind is known but cannot be parsed. -/
  | unsupported (kind : Kind)
  /-- The lines break the rules of the document. -/
  | malformed (violation : Violation)
  /-- A value, or a whole line where no value is named, has not the expected shape. -/
  | illegalValue (line : Text) (argument : Option Text) (expected : String)
  deriving Repr, DecidableEq

namespace Rejection

/-- The name of the class of a rejection in reports. -/
def className : Rejection → String
  | .unknownContent _ | .unknownTypeName _ => "UnknownKindError"
  | .unsupported _ => "UnsupportedKindError"
  | .malformed _ => "MalformedDocumentError"
  | .illegalValue .. => "MalformedValueError"

/-- The wording of a rejection. -/
def message : Rejection → String
  | .unknownContent beginning =>
      "Could not detect descriptor type in descriptor starting with " ++
        shown (Quoted.text beginning) ++ "."
  | .unknownTypeName name => s!"Unknown descriptor type '{shown name}'."
  | .unsupported kind => s!"No grammar registered for descriptor type '{kind.typeName}'."
  | .malformed violation => violation.message
  | .illegalValue line none expected => s!"Illegal line '{shown line}': expected {expected}."
  | .illegalValue line (some argument) expected =>
      s!"Illegal value '{shown argument}' in line '{shown line}': expected {expected}."

end Rejection

/-- How the definition of a grammar contradicts itself, or the search for its documents fails. -/
inductive DefinitionError where
  /-- Keywords are to occur exactly once and at most once. -/
  | bothOnce (keywords : List Text)
  /-- A keyword depends on itself. -/
  | selfDependency (keyword : Text)
  /-- A keyword has two rules. -/
  | repeatedRule (kind : Kind) (keyword : Text)
  /-- The leading keyword need not occur exactly once. -/
  | optionalLeading (kind : Kind) (leading : Text)
  /-- Constraints name keywords that have no rule. -/
  | unrecognizedKeywords (kind : Kind) (keywords : List Text)
  /-- The number of lines to keep is negative. -/
  | negativeCap (kind : Kind)
  /-- A digest is asked for but the record has no field for it. -/
  | missingDigestField (kind : Kind) (record field : String)
  /-- Rules write fields that the record does not have. -/
  | unknownFields (record : String) (fields : List Text)
  /-- A kind has two grammars. -/
  | repeatedKind (kind : Kind)
  /-- The next document would end at the position where it starts, or before. -/
  | standstill (position : Nat) (leading : Text) (origin : Option Text)
  deriving Repr, DecidableEq

namespace DefinitionError

/-- The name of the class of a definition error in reports. -/
def className : DefinitionError → String
  | .standstill .. => "SplitterError"
  | _ => "GrammarDefinitionError"

/-- The wording of a definition error. -/
def message : DefinitionError → String
  | .bothOnce keywords =>
      "Keywords declared both exactly-once and at-most-once: " ++ shown (Quoted.list keywords)
  | .selfDependency keyword => s!"Keyword '{shown keyword}' depends on itself"
  | .repeatedRule kind keyword =>
      s!"{kind.typeName}: keyword '{shown keyword}' has more than one rule"
  | .optionalLeading kind leading =>
      s!"{kind.typeName}: leading keyword '{shown leading}' must be declared exactly-once"
  | .unrecognizedKeywords kind keywords =>
      s!"{kind.typeName}: constraints name unrecognized keyword(s) " ++ shown (Quoted.list keywords)
  | .negativeCap kind => s!"{kind.typeName}: max_unrecognized_lines must be >= 0"
  | .missingDigestField kind record field =>
      s!"{kind.typeName}: digest requested but {record} has no '{field}' field"
  | .unknownFields record fields =>
      s!"{record} has no field(s) {shown (Quoted.list fields)} produced by its decoders"
  | .repeatedKind kind => s!"Duplicate grammar for kind: {kind.typeName}"
  | .standstill position leading origin =>
      let place := shown (origin.getD "None".toList)
      s!"Splitter made no progress at offset {position} " ++
        s!"(keyword '{shown leading}', origin: {place})"

end DefinitionError

/-- What ends the reading although the input may be all right. -/
inductive Interruption where
  /-- The grammar contradicts itself, or its documents cannot be found. -/
  | undefinable (error : DefinitionError)
  /-- A numeral has more digits than are read. -/
  | digitLimit (count : Nat)
  /-- A keyword or an end marker is not ASCII. -/
  | notAscii (flaw : Ascii.Flaw)
  /-- A value is to be added to a field that holds no list. -/
  | noList (typeName : String)
  deriving Repr, DecidableEq

namespace Interruption

/-- The name of the class of an interruption in reports. -/
def className : Interruption → String
  | .undefinable error => error.className
  | .digitLimit _ => "ValueError"
  | .notAscii _ => "UnicodeEncodeError"
  | .noList _ => "AttributeError"

/-- The wording of an interruption. -/
def message : Interruption → String
  | .undefinable error => error.message
  | .digitLimit count => Numeral.limitMessage count
  | .notAscii flaw => flaw.message
  | .noList typeName => s!"'{typeName}' object has no attribute 'append'"

end Interruption

/-- Anything that keeps a document from being parsed. -/
inductive Fault where
  | rejected (rejection : Rejection)
  | interrupted (interruption : Interruption)
  deriving Repr, DecidableEq

namespace Fault

/-- The fault of an illegal value. -/
def value (line argument : Text) (expected : String) : Fault :=
  .rejected (.illegalValue line (some argument) expected)

/-- The fault of a line whose values have not the expected shape as a whole. -/
def line (line : Text) (expected : String) : Fault := .rejected (.illegalValue line none expected)

/-- The fault of a line that breaks the rules of its document. -/
def violation (v : Violation) : Fault := .rejected (.malformed v)

/-- The name of the class of a fault in reports. -/
def className : Fault → String
  | .rejected rejection => rejection.className
  | .interrupted interruption => interruption.className

/-- The wording of a fault. -/
def message : Fault → String
  | .rejected rejection => rejection.message
  | .interrupted interruption => interruption.message

end Fault

end RelayDescriptor
