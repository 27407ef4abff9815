import RelayDescriptor.Blob.Basic
import RelayDescriptor.Failure
import RelayDescriptor.Log

/-!
# Document ranges

A blob may hold many documents of one kind back to back.  A document starts at a
line with the leading keyword, and ends before the next annotation line of a blob
with annotations, else before the next line with the keyword, else at the end of
the blob.  The annotation lines directly above the first document belong to it;
what stands before them belongs to no document.  Positions are counted in bytes,
and only line feeds separate lines.
-/

namespace RelayDescriptor

/-- The byte that ends a line. -/
def lineFeed : UInt8 := 0x0A

/-- The byte that separates the fields of a line. -/
def space : UInt8 := 0x20

/-- The byte that begins an annotation line. -/
def atSign : UInt8 := 0x40

namespace Document

/-- The beginnings of a line with the leading keyword: a space or a line feed follows. -/
def spaced (keyword : List UInt8) : List UInt8 := keyword ++ [space]

/-- The beginning of a line that is only the leading keyword. -/
def bare (keyword : List UInt8) : List UInt8 := keyword ++ [lineFeed]

/-- Whether bytes begin with the leading keyword of a document. -/
def opensWith (keyword bytes : List UInt8) : Bool :=
  (spaced keyword).isPrefixOf bytes || (bare keyword).isPrefixOf bytes

/-- The number of bytes before the first later line with a given beginning. -/
def nextLine? (beginning bytes : List UInt8) : Option Nat :=
  (searchFrom (lineFeed :: beginning) 0 bytes).map (· + 1)

/-- The number of bytes before the next line with the leading keyword.  A keyword before a space
is preferred, wherever it stands. -/
def nextDocument? (keyword bytes : List UInt8) : Option Nat :=
  (nextLine? (spaced keyword) bytes).or (nextLine? (bare keyword) bytes)

/-- The number of bytes before the first document. -/
def opening? (keyword bytes : List UInt8) : Option Nat :=
  if opensWith keyword bytes then some 0 else nextDocument? keyword bytes

/-- Whether some line is an annotation. -/
def hasAnnotations (bytes : List UInt8) : Bool :=
  [atSign].isPrefixOf bytes || (nextLine? [atSign] bytes).isSome

/-- The number of bytes of the document with which the bytes begin.  Annotations end a document
only if there are any. -/
def extent (annotated : Bool) (keyword bytes : List UInt8) : Nat :=
  let marked := if annotated then nextLine? [atSign] bytes else none
  (marked.or (nextDocument? keyword bytes)).getD bytes.length

/-- The lines of bytes, each with its line feed, which only the last may lack. -/
def byteLines : List UInt8 → List (List UInt8)
  | [] => []
  | b :: bytes =>
      if b = lineFeed then [b] :: byteLines bytes
      else match byteLines bytes with
        | [] => [[b]]
        | line :: lines => (b :: line) :: lines

/-- The lines of bytes make up the bytes. -/
theorem flatten_byteLines (bytes : List UInt8) : (byteLines bytes).flatten = bytes := by
  induction bytes with
  | nil => rfl
  | cons b bytes induction =>
      rw [byteLines]
      split
      · simp [induction]
      · cases found : byteLines bytes with
        | nil =>
            rw [found] at induction
            simpa using induction
        | cons line lines =>
            rw [found] at induction
            simpa using induction

/-- Whether a line is an annotation. -/
def isAnnotationLine (line : List UInt8) : Bool := line.head? = some atSign

/-- The annotation lines with which bytes end. -/
def annotationBlock (bytes : List UInt8) : List (List UInt8) :=
  ((byteLines bytes).reverse.takeWhile isAnnotationLine).reverse

/-- The position of the first annotation line directly above a position, or the position itself
if there is none. -/
def blockStart (bytes : List UInt8) (start : Nat) : Nat :=
  start - (annotationBlock (bytes.take start)).flatten.length

/-- Where the next range starts and where it ends.  Bytes before the annotations of the first
document are skipped; each later range starts where the one before it ended. -/
def nextSpan? (annotated : Bool) (keyword bytes : List UInt8) (isFirst : Bool)
    (position : Nat) : Option (Nat × Nat) :=
  (opening? keyword (bytes.drop position)).map fun count =>
    let opening := position + count
    let start := if isFirst then max position (blockStart bytes opening) else position
    (start, opening + extent annotated keyword (bytes.drop opening))

theorem le_start_of_nextSpan? {annotated : Bool} {keyword bytes : List UInt8} {isFirst : Bool}
    {position start stop : Nat}
    (found : nextSpan? annotated keyword bytes isFirst position = some (start, stop)) :
    position ≤ start := by
  obtain ⟨count, _, equal⟩ := Option.map_eq_some_iff.mp found
  obtain ⟨rfl, rfl⟩ := Prod.mk.inj equal
  cases isFirst with
  | false => exact Nat.le_refl position
  | true => exact Nat.le_max_left position _

/-- The ranges from a position on.  Should a range not end after its start, the position of the
start is reported. -/
def rangesFrom (annotated : Bool) (keyword bytes : List UInt8) (isFirst : Bool)
    (position : Nat) : Except Nat (List ByteRange) :=
  if _inside : position < bytes.length then
    match _found : nextSpan? annotated keyword bytes isFirst position with
    | none => .ok []
    | some (start, stop) =>
        if advances : start < stop then
          (rangesFrom annotated keyword bytes false stop).map
            (⟨start, stop, Nat.le_of_lt advances⟩ :: ·)
        else .error start
  else .ok []
termination_by bytes.length - position
decreasing_by
  have behind := le_start_of_nextSpan? _found
  omega

/-- The ranges of all documents whose leading keyword is given as bytes, or the position where
the search for them came to a standstill. -/
def ranges (keyword bytes : List UInt8) : Except Nat (List ByteRange) :=
  rangesFrom (hasAnnotations bytes) keyword bytes true 0

/-- The remarks made while ranges are determined. -/
def rangeRemarks (keyword : Text) (size : Nat) (ranges : List ByteRange) : List LogEntry :=
  let ignored := match ranges with
    | [] => []
    | range :: _ =>
        if range.start = 0 then []
        else [.debug
          s!"splitter: ignoring {range.start} leading byte(s) before the first document"]
  let found := ranges.map fun range => LogEntry.trace s!"splitter: document at {range.text}"
  ignored ++ found ++
    [.debug (s!"splitter: {ranges.length} document(s) for keyword '{shown keyword}' " ++
      s!"in {size} byte(s)")]

end Document

namespace Blob

/-- The ranges of the documents in a blob with a leading keyword, which must be ASCII. -/
def documentRanges (blob : Blob) (keyword : Text) : Except Interruption (List ByteRange) :=
  match Ascii.encode keyword with
  | .error flaw => .error (.notAscii flaw)
  | .ok bytes => (Document.ranges bytes blob.data).mapError fun position =>
      .undefinable (.standstill position keyword blob.origin)

end Blob

end RelayDescriptor
