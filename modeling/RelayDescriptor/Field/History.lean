import RelayDescriptor.Field.Lists
import RelayDescriptor.Field.Timestamp

/-!
# Bandwidth histories

A history ends at a timestamp and lists the bytes of equally long intervals, the
last of which ends there.
-/

namespace RelayDescriptor

/-- The bytes that were counted in intervals of equal length. -/
structure BandwidthHistory where
  /-- The whole line. -/
  line : Text
  endMillis : Int
  intervalSeconds : Int
  /-- The bytes of the interval that ends at a moment, the oldest first. -/
  values : OrderedMap Int Int
  deriving Repr, DecidableEq

namespace History

/-- The intervals with their ends, the last of which is given. -/
def withEnds (endMillis intervalSeconds : Int) (numbers : List Int) : List (Int × Int) :=
  numbers.zipIdx.map fun (number, index) =>
    (endMillis - ((numbers.length : Int) - 1 - index) * intervalSeconds * 1000, number)

/-- Reads the bytes of one interval. -/
def byteCount (line element : Text) : Except Fault Int :=
  if Numeral.isUnsigned element then readInteger element
  else .error (.value line element "non-negative integer byte counts")

end History

/-- Reads a bandwidth history. -/
def bandwidthHistory (line : Text) (arguments : List Text) : Except Fault BandwidthHistory := do
  if arguments.length ≠ 4 ∧ arguments.length ≠ 5 then
    .error (.line line "'YYYY-MM-DD HH:MM:SS (<n> s) [v1,v2,...]'")
  else
    let endMillis ← timestamp line arguments 0 1
    let intervalSeconds ← interval line arguments 2
    let elements := commaFields (arguments[4]?.getD [])
    let numbers ← elements.mapM (History.byteCount line)
    let ends := History.withEnds endMillis intervalSeconds numbers
    if ends.any fun (stop, _) => stop < 0 then
      .error (.line line "history intervals that end after the epoch")
    else return ⟨line, endMillis, intervalSeconds, OrderedMap.ofList ends⟩

end RelayDescriptor
