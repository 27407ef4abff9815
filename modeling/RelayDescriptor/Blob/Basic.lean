import RelayDescriptor.Text.Basic

/-!
# Blobs and byte ranges

A blob is raw input together with a note of where it came from.  A byte range is
a start and an end position, the end being excluded; it may reach beyond a blob.
-/

namespace RelayDescriptor

/-- Raw input bytes and, if known, where they came from. -/
structure Blob where
  data : List UInt8
  origin : Option Text
  deriving Repr, DecidableEq

namespace Blob

/-- The number of bytes. -/
def size (blob : Blob) : Nat := blob.data.length

end Blob

/-- The positions from `start` up to but not including `stop`. -/
structure ByteRange where
  start : Nat
  stop : Nat
  ordered : start ≤ stop := by omega
  deriving Repr, DecidableEq

namespace ByteRange

/-- The range between two positions, if it is one. -/
def of? (start stop : Int) : Option ByteRange :=
  if ordered : 0 ≤ start ∧ start ≤ stop then
    some ⟨start.toNat, stop.toNat, Int.toNat_le_toNat ordered.2⟩
  else none

/-- The number of positions. -/
def size (range : ByteRange) : Nat := range.stop - range.start

/-- The text of a range, with the end marked as excluded. -/
def text (range : ByteRange) : String := s!"[{range.start}, {range.stop})"

/-- Order by start, then by end. -/
def isAtMost (left right : ByteRange) : Bool :=
  left.start < right.start || (left.start == right.start && left.stop ≤ right.stop)

end ByteRange

namespace Blob

/-- The bytes of a blob within a range. -/
def slice (blob : Blob) (range : ByteRange) : List UInt8 :=
  (blob.data.drop range.start).take range.size

end Blob

end RelayDescriptor
