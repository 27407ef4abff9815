import RelayDescriptor.Grammar.Decoder
import RelayDescriptor.Keyword.Validation
import RelayDescriptor.Record

/-!
# Grammars

A grammar says which keywords the documents of one kind may have, how often they
may occur, what their lines mean and which record they make up.  It is checked for
contradictions when it is defined.
-/

namespace RelayDescriptor

/-- The meaning of the lines with one keyword. -/
structure FieldRule where
  keyword : Text
  decoder : Decoder
  /-- Whether each line adds a value to a list, instead of writing its field anew. -/
  repeated : Bool

namespace FieldRule

/-- A rule whose lines write their fields anew. -/
def once (keyword : String) (decoder : Decoder) : FieldRule := ⟨keyword.toList, decoder, false⟩

/-- A rule whose lines each add a value. -/
def each (keyword : String) (decoder : Decoder) : FieldRule := ⟨keyword.toList, decoder, true⟩

end FieldRule

/-- Everything that is needed to parse the documents of one kind. -/
structure Grammar where
  kind : Kind
  /-- The keyword that opens a document. -/
  leading : Text
  constraints : Constraints
  rules : List FieldRule
  schema : Schema
  /-- The keywords that are recognized but mean nothing. -/
  passthrough : List Text
  /-- How many unrecognized lines are kept; without a cap all are. -/
  cap : Option Int
  /-- Where the part of a document ends over which a SHA-1 digest is taken. -/
  digestEnd : Option Text
  /-- Where the part of a document ends over which a SHA-256 digest is taken. -/
  sha256End : Option Text
  description : String

/-- The field of the SHA-1 digest. -/
def digestField : String := "digest"

/-- The field of the SHA-256 digest. -/
def sha256Field : String := "digest_sha256"

namespace Grammar

/-- The keywords that have a rule. -/
def ruled (grammar : Grammar) : List Text := grammar.rules.map FieldRule.keyword

/-- The keywords that may occur. -/
def recognized (grammar : Grammar) : List Text := grammar.ruled ++ grammar.passthrough

/-- The rule of a keyword. -/
def rule? (grammar : Grammar) (keyword : Text) : Option FieldRule :=
  grammar.rules.find? fun rule => rule.keyword = keyword

/-- What the lines of a document have to satisfy. -/
def lineRules (grammar : Grammar) (strict : Bool) : LineRules :=
  ⟨grammar.leading, grammar.recognized, grammar.constraints, strict, grammar.cap⟩

/-- The first text of a list that has occurred before. -/
def firstRepeated? (seen : List Text) : List Text → Option Text
  | [] => none
  | text :: texts => if seen.contains text then some text else firstRepeated? (text :: seen) texts

/-- The keywords that the constraints mention and that may not occur. -/
def unrecognizedConstraints (grammar : Grammar) : List Text :=
  grammar.constraints.keywords.filter fun keyword => !grammar.recognized.contains keyword

/-- The digest field that is asked for but missing. -/
def missingDigest? (grammar : Grammar) : Option String :=
  let asked := [(grammar.digestEnd, digestField), (grammar.sha256End, sha256Field)]
  (asked.find? fun (marker, field) =>
    marker.isSome && !grammar.schema.fieldNames.contains field).map Prod.snd

/-- The first contradiction within a grammar. -/
def contradiction? (grammar : Grammar) : Option DefinitionError :=
  match firstRepeated? [] grammar.ruled with
  | some keyword => some (.repeatedRule grammar.kind keyword)
  | none =>
      if !grammar.constraints.exactlyOnce.contains grammar.leading then
        some (.optionalLeading grammar.kind grammar.leading)
      else if !grammar.unrecognizedConstraints.isEmpty then
        some (.unrecognizedKeywords grammar.kind grammar.unrecognizedConstraints)
      else if grammar.cap.any (· < 0) then some (.negativeCap grammar.kind)
      else grammar.missingDigest?.map (.missingDigestField grammar.kind grammar.schema.name)

/-- The grammar itself, if it does not contradict itself. -/
def check (grammar : Grammar) : Except DefinitionError Grammar :=
  match grammar.contradiction? with
  | some error => .error error
  | none => .ok grammar

/-- The remark that a grammar was defined. -/
def remark (grammar : Grammar) : LogEntry :=
  .trace (s!"grammar: {grammar.kind.typeName} with {grammar.rules.length} rule(s), " ++
    s!"leading keyword '{shown grammar.leading}'")

end Grammar

end RelayDescriptor
