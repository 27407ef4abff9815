import RelayDescriptor.Text.Quoted

/-!
# UTF-8

A transducer reads a byte string one byte at a time.  Between two bytes it is
either between characters or inside a multi-byte sequence that still owes
continuation bytes.  Where a sequence breaks off, the bytes read so far are shown
by one replacement character and the breaking byte starts afresh, so that decoding
never fails.  `flaw?` reports the first such place instead.
-/

namespace RelayDescriptor

namespace Utf8

/-- The character that stands for bytes that are not UTF-8. -/
def replacement : Char := '\uFFFD'

/-- An unfinished multi-byte sequence. -/
structure Pending where
  /-- The bits read so far. -/
  code : Nat
  /-- The number of continuation bytes still owed. -/
  missing : Nat
  /-- The least value of the next byte. -/
  low : UInt8
  /-- The greatest value of the next byte. -/
  high : UInt8
  deriving Repr, DecidableEq

/-- The sequence that a byte opens, if it opens one.  The bounds of the second byte exclude
overlong forms, surrogates and code points above the last one. -/
def lead? (b : UInt8) : Option Pending :=
  if 0xC2 ≤ b ∧ b ≤ 0xDF then some ⟨b.toNat - 0xC0, 1, 0x80, 0xBF⟩
  else if b = 0xE0 then some ⟨0, 2, 0xA0, 0xBF⟩
  else if b = 0xED then some ⟨0xD, 2, 0x80, 0x9F⟩
  else if 0xE1 ≤ b ∧ b ≤ 0xEF then some ⟨b.toNat - 0xE0, 2, 0x80, 0xBF⟩
  else if b = 0xF0 then some ⟨0, 3, 0x90, 0xBF⟩
  else if 0xF1 ≤ b ∧ b ≤ 0xF3 then some ⟨b.toNat - 0xF0, 3, 0x80, 0xBF⟩
  else if b = 0xF4 then some ⟨4, 3, 0x80, 0x8F⟩
  else none

/-- The characters that a byte yields between characters, and the state after it. -/
def start (b : UInt8) : Text × Option Pending :=
  if b < 0x80 then ([Char.ofNat b.toNat], none)
  else match lead? b with
    | some pending => ([], some pending)
    | none => ([replacement], none)

/-- The characters that a byte yields in a state, and the state after it. -/
def step : Option Pending → UInt8 → Text × Option Pending
  | none, b => start b
  | some pending, b =>
      if pending.low ≤ b ∧ b ≤ pending.high then
        let code := pending.code * 64 + (b.toNat - 0x80)
        if pending.missing ≤ 1 then ([Char.ofNat code], none)
        else ([], some ⟨code, pending.missing - 1, 0x80, 0xBF⟩)
      else (replacement :: (start b).1, (start b).2)

/-- The characters that remain to be written when the bytes end in a state. -/
def finish : Option Pending → Text
  | none => []
  | some _ => [replacement]

/-- The characters of a byte string that is read from a given state. -/
def decodeFrom (state : Option Pending) : List UInt8 → Text
  | [] => finish state
  | b :: bytes => (step state b).1 ++ decodeFrom (step state b).2 bytes

/-- The characters of a byte string, with replacement characters where it is not UTF-8. -/
def decode (bytes : List UInt8) : Text := decodeFrom none bytes

/-- The bytes of one character. -/
def encodeChar (c : Char) : List UInt8 :=
  let code := c.toNat
  let tail := fun (shift : Nat) => UInt8.ofNat (0x80 + code / shift % 64)
  if code < 0x80 then [UInt8.ofNat code]
  else if code < 0x800 then [UInt8.ofNat (0xC0 + code / 64), tail 1]
  else if code < 0x10000 then [UInt8.ofNat (0xE0 + code / 4096), tail 64, tail 1]
  else [UInt8.ofNat (0xF0 + code / 262144), tail 4096, tail 64, tail 1]

/-- The bytes of a text. -/
def encode (text : Text) : List UInt8 := text.flatMap encodeChar

/-- Why bytes are not UTF-8. -/
inductive Reason where
  | invalidStart
  | invalidContinuation
  | unexpectedEnd
  deriving Repr, DecidableEq

/-- A place where bytes are not UTF-8. -/
structure Flaw where
  /-- The position of the first byte concerned. -/
  position : Nat
  /-- The bytes concerned. -/
  bytes : List UInt8
  /-- What is wrong with them. -/
  reason : Reason
  deriving Repr, DecidableEq

/-- Searches for the first flaw.  `taken` holds the bytes of the unfinished sequence, the last
one first, and `position` is the position of the next byte. -/
def flawFrom (state : Option Pending) (taken : List UInt8) (position : Nat) :
    List UInt8 → Option Flaw
  | [] =>
      if state.isSome then some ⟨position - taken.length, taken.reverse, .unexpectedEnd⟩ else none
  | b :: bytes =>
      match state with
      | none =>
          if b < 0x80 then flawFrom none [] (position + 1) bytes
          else match lead? b with
            | some pending => flawFrom (some pending) [b] (position + 1) bytes
            | none => some ⟨position, [b], .invalidStart⟩
      | some pending =>
          if pending.low ≤ b ∧ b ≤ pending.high then
            match (step state b).2 with
            | none => flawFrom none [] (position + 1) bytes
            | some next => flawFrom (some next) (b :: taken) (position + 1) bytes
          else some ⟨position - taken.length, taken.reverse, .invalidContinuation⟩

/-- The first place where a byte string is not UTF-8. -/
def flaw? (bytes : List UInt8) : Option Flaw := flawFrom none [] 0 bytes

/-- The wording of a reason. -/
def Reason.message : Reason → String
  | .invalidStart => "invalid start byte"
  | .invalidContinuation => "invalid continuation byte"
  | .unexpectedEnd => "unexpected end of data"

/-- What is wrong with the decoded bytes, and where. -/
def Flaw.message (flaw : Flaw) : String :=
  let last := flaw.position + flaw.bytes.length - 1
  let place := match flaw.bytes with
    | [b] => s!"byte 0x{shown (hexDigits 2 b.toNat)} in position {flaw.position}"
    | _ => s!"bytes in position {flaw.position}-{last}"
  s!"'utf-8' codec can't decode {place}: {flaw.reason.message}"

end Utf8

end RelayDescriptor
