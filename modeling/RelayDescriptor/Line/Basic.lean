import RelayDescriptor.Text.Basic

/-!
# Lines

A document is cut into lines at every line break of the three usual kinds, and a
line into fields at every single space.  A line is a token, a line without
fields, or the edge of an embedded block of key material.
-/

namespace RelayDescriptor

/-- The texts between line breaks; a carriage return and a line feed that follow each other are
one break. -/
def betweenBreaks : Text → List Text
  | [] => [[]]
  | '\r' :: '\n' :: text => [] :: betweenBreaks text
  | c :: text =>
      if c = '\n' ∨ c = '\r' then [] :: betweenBreaks text
      else Text.pushFirst c (betweenBreaks text)

/-- The lines of a text; a break at the end does not open another line. -/
def lines (text : Text) : List Text :=
  let pieces := betweenBreaks text
  if pieces.getLast? = some [] then pieces.dropLast else pieces

/-- The fields of a line: its pieces between single spaces, without the empty ones at the end. -/
def fields (line : Text) : List Text := Text.dropEmptyEnd (Text.pieces ' ' line)

/-- The pieces between commas, without the empty ones at the end. -/
def commaFields (text : Text) : List Text := Text.dropEmptyEnd (Text.pieces ',' text)

/-- The pieces between the occurrences of any separator, without the empty ones at the end. -/
def fieldsAt? (separator text : Text) : Option (List Text) :=
  (Text.piecesAt? separator text).map Text.dropEmptyEnd

/-- The beginning of a line that marks its keyword as deprecated. -/
def optional : Text := "opt ".toList

/-- The beginning of a line that opens an embedded block. -/
def blockOpening : Text := "-----BEGIN".toList

/-- The beginning of a line that closes an embedded block. -/
def blockClosing : Text := "-----END".toList

/-- Whether a line opens an embedded block. -/
def opensBlock (line : Text) : Bool := blockOpening.isPrefixOf line

/-- Whether a line closes an embedded block. -/
def closesBlock (line : Text) : Bool := blockClosing.isPrefixOf line

/-- A line with a keyword. -/
structure Token where
  /-- The first field. -/
  keyword : Text
  /-- The other fields. -/
  arguments : List Text
  /-- The whole line. -/
  line : Text
  /-- Whether the line marks its keyword as deprecated. -/
  deprecated : Bool
  deriving Repr, DecidableEq

/-- A line outside embedded blocks. -/
inductive Item where
  | token (token : Token)
  /-- A line without fields. -/
  | blank (line : Text)
  deriving Repr, DecidableEq

namespace Item

/-- The whole line. -/
def line : Item → Text
  | .token t => t.line
  | .blank content => content

/-- The token of a line that has one. -/
def token? : Item → Option Token
  | .token t => some t
  | .blank _ => none

/-- The keyword of a line that has one. -/
def keyword? (item : Item) : Option Text := item.token?.map Token.keyword

end Item

/-- A line of any sort. -/
inductive LineItem where
  | item (item : Item)
  /-- A line that opens or closes an embedded block. -/
  | blockEdge (opens : Bool) (line : Text)
  deriving Repr, DecidableEq

/-- A line cut into fields, without the mark of a deprecated keyword. -/
def itemOf (deprecated : Bool) (line body : Text) : Item :=
  match fields body with
  | [] => .blank line
  | keyword :: arguments => .token ⟨keyword, arguments, line, deprecated⟩

/-- What a line is. -/
def tokenize (line : Text) : LineItem :=
  if opensBlock line then .blockEdge true line
  else if closesBlock line then .blockEdge false line
  else if optional.isPrefixOf line then .item (itemOf true line (line.drop optional.length))
  else .item (itemOf false line line)

/-- Whether a line is an annotation. -/
def isAnnotation (line : Text) : Bool := line.head? = some '@'

/-- The annotations at the beginning of a list of lines, and the lines after them. -/
def splitAnnotations (lines : List Text) : List Text × List Text := lines.span isAnnotation

end RelayDescriptor
