import RelayDescriptor.Text.Quoted

/-!
# ASCII text

Keywords and end markers are searched in raw bytes, so they have to be ASCII.
The encoding is refused at the first run of other characters.
-/

namespace RelayDescriptor

namespace Ascii

/-- A run of characters that are not ASCII. -/
structure Flaw where
  /-- The position of the first character of the run. -/
  position : Nat
  /-- The characters of the run. -/
  run : Text
  deriving Repr, DecidableEq

/-- Whether a character is ASCII. -/
def isAscii (c : Char) : Bool := c.toNat < 0x80

/-- The first run of characters that are not ASCII. -/
def flaw? (text : Text) : Option Flaw :=
  match text.dropWhile isAscii with
  | [] => none
  | rest => some ⟨(text.takeWhile isAscii).length, rest.takeWhile fun c => !isAscii c⟩

/-- The byte of a character that is ASCII. -/
def byte (c : Char) : UInt8 := UInt8.ofNat c.toNat

/-- One byte for each character of a text that is all ASCII. -/
def encode (text : Text) : Except Flaw (List UInt8) :=
  match flaw? text with
  | some flaw => .error flaw
  | none => .ok (text.map byte)

theorem encode_of_isAscii {text : Text} (ascii : ∀ c ∈ text, isAscii c = true) :
    encode text = .ok (text.map byte) := by
  have none : text.dropWhile isAscii = [] := by
    have rest : (text ++ []).dropWhile isAscii = [].dropWhile isAscii :=
      List.dropWhile_append_of_pos ascii
    simpa using rest
  rw [encode, flaw?, none]

theorem byte_injective {c d : Char} (left : isAscii c = true) (right : isAscii d = true)
    (same : byte c = byte d) : c = d := by
  simp only [isAscii, decide_eq_true_eq] at left right
  have codes := congrArg UInt8.toNat same
  simp only [byte, UInt8.toNat_ofNat'] at codes
  rw [Nat.mod_eq_of_lt (by omega), Nat.mod_eq_of_lt (by omega)] at codes
  exact Char.toNat_inj.mp codes

/-- An ASCII character occurs in an ASCII text if and only if its byte occurs in the encoded
text. -/
theorem byte_mem_map_iff {text : Text} (ascii : ∀ c ∈ text, isAscii c = true) {c : Char}
    (single : isAscii c = true) : byte c ∈ text.map byte ↔ c ∈ text := by
  constructor
  · intro member
    obtain ⟨d, inText, same⟩ := List.mem_map.mp member
    rw [← byte_injective (ascii d inText) single same]
    exact inText
  · exact List.mem_map_of_mem

/-- What is wrong with the encoded text. -/
def Flaw.message (flaw : Flaw) : String :=
  let last := flaw.position + flaw.run.length - 1
  match flaw.run with
  | [c] =>
      let character := shown (Quoted.escape c.toNat)
      s!"'ascii' codec can't encode character '{character}' in position {flaw.position}: " ++
        "ordinal not in range(128)"
  | _ =>
      s!"'ascii' codec can't encode characters in position {flaw.position}-{last}: " ++
        "ordinal not in range(128)"

/-- The capital of an ASCII letter; the two other characters whose capital is an ASCII letter
are the dotless i and the long s. -/
def capital (c : Char) : Char :=
  if c = 'ı' then 'I' else if c = 'ſ' then 'S' else c.toUpper

end Ascii

end RelayDescriptor
