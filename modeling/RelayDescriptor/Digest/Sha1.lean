import RelayDescriptor.Digest.Words

/-!
# SHA-1

The 160-bit hash function with five state words and eighty rounds for a block.
-/

namespace RelayDescriptor

namespace Sha1

/-- The five words of the state. -/
structure State where
  a : UInt32
  b : UInt32
  c : UInt32
  d : UInt32
  e : UInt32
  deriving Repr, DecidableEq

/-- The state before the first block. -/
def initial : State := ⟨0x67452301, 0xEFCDAB89, 0x98BADCFE, 0x10325476, 0xC3D2E1F0⟩

/-- The next word of the schedule from the words before it, the last one first. -/
def nextWord (words : List UInt32) : UInt32 :=
  Words.rotateLeft (words.getD 2 0 ^^^ words.getD 7 0 ^^^ words.getD 13 0 ^^^ words.getD 15 0) 1

/-- The eighty words of the rounds of a block. -/
def schedule (block : List UInt32) : List UInt32 := Words.schedule nextWord 80 block

/-- The round function and the round constant. -/
def mix (round : Nat) (s : State) : UInt32 × UInt32 :=
  if round < 20 then ((s.b &&& s.c) ||| (~~~s.b &&& s.d), 0x5A827999)
  else if round < 40 then (s.b ^^^ s.c ^^^ s.d, 0x6ED9EBA1)
  else if round < 60 then ((s.b &&& s.c) ||| (s.b &&& s.d) ||| (s.c &&& s.d), 0x8F1BBCDC)
  else (s.b ^^^ s.c ^^^ s.d, 0xCA62C1D6)

/-- The rounds of a block from a given round on. -/
def rounds : Nat → State → List UInt32 → State
  | _, s, [] => s
  | round, s, word :: words =>
      let (f, k) := mix round s
      rounds (round + 1)
        ⟨Words.rotateLeft s.a 5 + f + s.e + k + word, s.a, Words.rotateLeft s.b 30, s.c, s.d⟩ words

/-- The state after a block. -/
def compress (s : State) (block : List UInt32) : State :=
  let t := rounds 0 s (schedule block)
  ⟨s.a + t.a, s.b + t.b, s.c + t.c, s.d + t.d, s.e + t.e⟩

/-- The hash of a message. -/
def hash (message : List UInt8) : List UInt8 :=
  let s := (Words.messageBlocks message).foldl compress initial
  [s.a, s.b, s.c, s.d, s.e].flatMap Words.toBytes

end Sha1

end RelayDescriptor
