import RelayDescriptor.Document.Basic
import RelayDescriptor.Document.Detection
import RelayDescriptor.Grammar.Registry
import RelayDescriptor.Settings.Layer

/-!
# Reading blobs

A blob is read in steps: its kind is determined, its documents are located, and
each of them is parsed.  A document that is refused becomes a result of its own and
does not keep the others from being parsed.  Only an interruption, which is not about
the input, ends the reading.
-/

namespace RelayDescriptor

/-- A part of a blob that is refused, and why. -/
structure Refusal where
  /-- The kind, if it is known. -/
  kind : Option Kind
  /-- The bytes of the part. -/
  raw : List UInt8
  range : ByteRange
  rejection : Rejection
  origin : Option Text
  deriving Repr, DecidableEq

/-- The result of reading a part of a blob. -/
inductive Outcome where
  | parsed (document : Document)
  | refused (refusal : Refusal)
  deriving Repr

namespace Outcome

/-- Whether a document was parsed. -/
def isParsed : Outcome → Bool
  | .parsed _ => true
  | .refused _ => false

/-- The kind, if it is known. -/
def kind? : Outcome → Option Kind
  | .parsed document => some document.kind
  | .refused refusal => refusal.kind

/-- The part of the blob. -/
def range : Outcome → ByteRange
  | .parsed document => document.range
  | .refused refusal => refusal.range

/-- The bytes of the part. -/
def raw : Outcome → List UInt8
  | .parsed document => document.raw
  | .refused refusal => refusal.raw

/-- Where the blob came from. -/
def origin? : Outcome → Option Text
  | .parsed document => document.origin
  | .refused refusal => refusal.origin

end Outcome

/-- A blob and how it is to be read. -/
structure Reading where
  blob : Blob
  strict : Bool
  hint : Option Hint
  window : Int

namespace Reading

/-- The reading of a blob by settings.  What is asked for directly goes before the settings, and
these go before the defaults.  A given origin takes the place of the blob's. -/
def of (blob : Blob) (strict : Option Bool) (hint : Option Hint) (origin : Option Text)
    (settings : Option Settings) : Reading where
  blob := { blob with origin := origin.or blob.origin }
  strict := strict.getD ((settings.map Settings.strict).getD false)
  hint := hint.or ((settings.bind Settings.hint).map .named)
  window := (settings.map Settings.window).getD Blob.usualWindow

/-- What there is to do with a blob. -/
inductive Plan where
  /-- The whole blob is refused. -/
  | refuse (kind : Option Kind) (rejection : Rejection)
  /-- Documents are parsed. -/
  | parse (grammar : Grammar) (ranges : List ByteRange)

/-- Determines what there is to do. -/
def plan (reading : Reading) : Except Interruption Plan :=
  match reading.blob.detect reading.hint reading.window with
  | .error rejection => .ok (.refuse none rejection)
  | .ok kind =>
      match grammarOf kind with
      | .error rejection => .ok (.refuse (some kind) rejection)
      | .ok grammar =>
          match reading.blob.documentRanges grammar.leading with
          | .error interruption => .error interruption
          | .ok ranges => .ok (.parse grammar ranges)

/-- The refusal of the whole blob. -/
def refusal (reading : Reading) (kind : Option Kind) (rejection : Rejection) : Refusal :=
  ⟨kind, reading.blob.data, ⟨0, reading.blob.size, Nat.zero_le _⟩, rejection, reading.blob.origin⟩

/-- Reads the document at a range. -/
def attempt (reading : Reading) (grammar : Grammar) (range : ByteRange) :
    Except Interruption Outcome :=
  match Document.parse reading.blob range grammar reading.strict none with
  | .ok document => .ok (.parsed document)
  | .error (.rejected rejection) =>
      .ok (.refused
        ⟨some grammar.kind, reading.blob.slice range, range, rejection, reading.blob.origin⟩)
  | .error (.interrupted interruption) => .error interruption

/-- The results up to and including the first interruption. -/
def untilInterrupted {α : Type} (read : α → Except Interruption Outcome) :
    List α → List (Except Interruption Outcome)
  | [] => []
  | a :: rest =>
      match read a with
      | .ok outcome => .ok outcome :: untilInterrupted read rest
      | .error interruption => [.error interruption]

/-- The results one after the other; only the last one can be an interruption. -/
def steps (reading : Reading) : List (Except Interruption Outcome) :=
  match reading.plan with
  | .error interruption => [.error interruption]
  | .ok (.refuse kind rejection) => [.ok (.refused (reading.refusal kind rejection))]
  | .ok (.parse grammar ranges) => untilInterrupted (reading.attempt grammar) ranges

/-- All results, unless there is an interruption. -/
def outcomes (reading : Reading) : Except Interruption (List Outcome) := reading.steps.mapM id

/-- The text of a flag in remarks. -/
def flagText (flag : Bool) : String := if flag then "True" else "False"

/-- The remarks made before the first result. -/
def openingRemarks (reading : Reading) : List LogEntry :=
  let origin := reading.blob.originText
  let detection := reading.blob.detectionRemark reading.hint reading.window
  match reading.plan with
  | .error _ => [detection]
  | .ok (.refuse _ rejection) =>
      [detection, .warning s!"{rejection.message} (origin: {origin})"]
  | .ok (.parse grammar ranges) =>
      let parsing := LogEntry.debug (s!"runner: parsing {grammar.kind.typeName} " ++
        s!"({reading.blob.size} byte(s), strict={flagText reading.strict}, origin: {origin})")
      detection :: parsing ::
        Document.rangeRemarks grammar.leading reading.blob.size ranges

/-- The remarks made while the document at a range is read. -/
def attemptRemarks (reading : Reading) (grammar : Grammar) (range : ByteRange) : List LogEntry :=
  let parsing := Document.remarks reading.blob range grammar reading.strict
  match reading.attempt grammar range with
  | .ok (.refused refusal) =>
      parsing ++
        [.warning (s!"Unparseable {grammar.kind.typeName} at {range.text} " ++
          s!"(origin: {reading.blob.originText}): {refusal.rejection.message}")]
  | _ => parsing

/-- The remarks made for each result. -/
def stepRemarks (reading : Reading) : List (List LogEntry) :=
  match reading.plan with
  | .ok (.parse grammar ranges) => ranges.map (reading.attemptRemarks grammar)
  | _ => []

/-- The remarks made until a number of results have been asked for. -/
def remarksUntil (reading : Reading) (count : Nat) : List LogEntry :=
  if count = 0 then []
  else
    let taken := min count reading.steps.length
    reading.openingRemarks ++ (reading.stepRemarks.take taken).flatten

/-- The remarks of a complete reading. -/
def remarks (reading : Reading) : List LogEntry :=
  reading.remarksUntil (reading.steps.length + 1)

end Reading

end RelayDescriptor
