import RelayDescriptor.Document.SignedPart
import RelayDescriptor.Text.Utf8

/-!
# Documents

A document is parsed in steps: its bytes are decoded, annotations are taken off,
the remaining lines are validated, their values are decoded in order, and the
collected fields make up a record.
-/

namespace RelayDescriptor

/-- A parsed document. -/
structure Document where
  kind : Kind
  /-- The bytes of the document, with its annotations. -/
  raw : List UInt8
  range : ByteRange
  record : Record
  /-- The annotation lines above the document. -/
  annotations : List Text
  /-- The lines outside the grammar that were kept. -/
  unrecognized : List Text
  origin : Option Text
  deriving Repr

namespace Grammar

/-- The fields after a line that writes some. -/
def writeAll (repeated : Bool) (fields : Fields) (updates : List (String × Value)) :
    Except Fault Fields :=
  updates.foldlM (Fields.put repeated) fields

/-- The fields after a line. -/
def decodeToken (grammar : Grammar) (fields : Fields) (token : Token) : Except Fault Fields :=
  match grammar.rule? token.keyword with
  | none => .ok fields
  | some rule => rule.decoder.updates token >>= writeAll rule.repeated fields

/-- The fields after all lines. -/
def decodeTokens (grammar : Grammar) (tokens : List Token) : Except Fault Fields :=
  tokens.foldlM grammar.decodeToken []

end Grammar

namespace Document

/-- The annotations and the other lines of a document. -/
def parts (raw : List UInt8) : List Text × List Text :=
  splitAnnotations (lines (Utf8.decode raw))

/-- The recognized and the unrecognized lines of a document. -/
def validated (grammar : Grammar) (strict : Bool) (raw : List UInt8) :
    Except Violation Validated :=
  (grammar.lineRules strict).validate (Scan.items (parts raw).2)

/-- The record of a document whose lines have been validated. -/
def recordOf (grammar : Grammar) (raw : List UInt8) (tokens : List Token) :
    Except Fault Record := do
  let fields ← grammar.decodeTokens tokens
  let digests ← grammar.digests raw
  grammar.schema.build (digests.write fields)

/-- Parses the document at a range of a blob.  A given origin takes the place of the blob's. -/
def parse (blob : Blob) (range : ByteRange) (grammar : Grammar) (strict : Bool)
    (origin : Option Text) : Except Fault Document := do
  let raw := blob.slice range
  let validated ← (validated grammar strict raw).mapError Fault.violation
  let record ← recordOf grammar raw validated.tokens
  return {
    kind := grammar.kind
    raw
    range
    record
    annotations := (parts raw).1
    unrecognized := validated.unrecognized
    origin := origin.or blob.origin
  }

/-- The remarks made while the document at a range is parsed. -/
def remarks (blob : Blob) (range : ByteRange) (grammar : Grammar) (strict : Bool) :
    List LogEntry :=
  let raw := blob.slice range
  let scanned := (grammar.lineRules strict).remarks (parts raw).2
  match validated grammar strict raw, parse blob range grammar strict none with
  | .ok validated, .ok document =>
      scanned ++
        [.trace (s!"parser: {document.kind.typeName} at {range.text}: " ++
          s!"{validated.tokens.length} token(s), " ++
          s!"{document.unrecognized.length} unrecognized")]
  | _, _ => scanned

end Document

end RelayDescriptor
