/-!
# Words and blocks

Both hash functions read a padded message as big-endian words of 32 bits, sixteen
to a block.
-/

namespace RelayDescriptor

namespace Words

/-- The big-endian word of four bytes. -/
def ofBytes (a b c d : UInt8) : UInt32 :=
  a.toUInt32 <<< 24 ||| b.toUInt32 <<< 16 ||| c.toUInt32 <<< 8 ||| d.toUInt32

/-- The words of a byte string; bytes that fill no word are left out. -/
def ofList : List UInt8 → List UInt32
  | a :: b :: c :: d :: rest => ofBytes a b c d :: ofList rest
  | _ => []

/-- The big-endian bytes of a word. -/
def toBytes (w : UInt32) : List UInt8 :=
  [(w >>> 24).toUInt8, (w >>> 16).toUInt8, (w >>> 8).toUInt8, w.toUInt8]

/-- The last `width` bytes of a number, the most significant first. -/
def numberBytes : Nat → Nat → List UInt8
  | 0, _ => []
  | width + 1, n => numberBytes width (n / 256) ++ [UInt8.ofNat n]

/-- The message followed by a one bit, zeros and its length in bits, so that it fills whole
blocks of 64 bytes. -/
def pad (message : List UInt8) : List UInt8 :=
  let zeros := (119 - message.length % 64) % 64
  message ++ 0x80 :: List.replicate zeros 0 ++ numberBytes 8 (8 * message.length)

/-- Groups of sixteen words; words that fill no group are left out. -/
def blocks : List UInt32 → List (List UInt32)
  | a :: b :: c :: d :: e :: f :: g :: h :: i :: j :: k :: l :: m :: n :: o :: p :: rest =>
      [a, b, c, d, e, f, g, h, i, j, k, l, m, n, o, p] :: blocks rest
  | _ => []

/-- Adds words to a reversed schedule, each found from the words before it. -/
def extend (next : List UInt32 → UInt32) : Nat → List UInt32 → List UInt32
  | 0, words => words
  | count + 1, words => extend next count (next words :: words)

/-- A schedule of `size` words that begins with the words of a block. -/
def schedule (next : List UInt32 → UInt32) (size : Nat) (block : List UInt32) : List UInt32 :=
  (extend next (size - block.length) block.reverse).reverse

/-- A word rotated to the left. -/
def rotateLeft (w : UInt32) (amount : UInt32) : UInt32 := w <<< amount ||| w >>> (32 - amount)

/-- A word rotated to the right. -/
def rotateRight (w : UInt32) (amount : UInt32) : UInt32 := w >>> amount ||| w <<< (32 - amount)

/-- The blocks of a padded message. -/
def messageBlocks (message : List UInt8) : List (List UInt32) := blocks (ofList (pad message))

end Words

end RelayDescriptor
