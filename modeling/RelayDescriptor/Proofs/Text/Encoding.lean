import RelayDescriptor.Text.Ascii
import RelayDescriptor.Text.Utf8

/-!
# Decoding encoded text

Decoding undoes encoding.  A character of several bytes is followed from its first byte,
which opens a sequence, through the bytes that the sequence owes, each of which stands
for six bits.
-/

namespace RelayDescriptor

namespace Utf8

variable {b : UInt8} {bytes : List UInt8} {pending : Pending} {code n : Nat}

theorem decodeFrom_lead (found : lead? b = some pending) :
    decodeFrom none (b :: bytes) = decodeFrom (some pending) bytes := by
  -- No ASCII byte opens a sequence.
  have high : ¬b < 0x80 := by
    intro low
    have none : ∀ n < 0x80, lead? (UInt8.ofNat n) = none := by decide
    have absent := none b.toNat (UInt8.lt_iff_toNat_lt.mp low)
    rw [UInt8.ofNat_toNat, found] at absent
    cases absent
  rw [decodeFrom, step, start, if_neg high, found]
  rfl

theorem decodeFrom_last (one : pending.missing = 1) (low : pending.low ≤ b)
    (high : b ≤ pending.high) :
    decodeFrom (some pending) (b :: bytes) =
      Char.ofNat (pending.code * 64 + (b.toNat - 0x80)) :: decodeFrom none bytes := by
  rw [decodeFrom, step, if_pos ⟨low, high⟩, one]
  rfl

theorem decodeFrom_more (more : 1 < pending.missing) (low : pending.low ≤ b)
    (high : b ≤ pending.high) :
    decodeFrom (some pending) (b :: bytes) =
      decodeFrom
        (some ⟨pending.code * 64 + (b.toNat - 0x80), pending.missing - 1, 0x80, 0xBF⟩) bytes := by
  rw [decodeFrom, step, if_pos ⟨low, high⟩]
  dsimp only
  rw [if_neg (Nat.not_le_of_lt more)]
  rfl

theorem lead?_two : ∀ n < 32, 2 ≤ n →
    lead? (UInt8.ofNat (0xC0 + n)) = some ⟨n, 1, 0x80, 0xBF⟩ := by decide

theorem lead?_three : ∀ n < 16, lead? (UInt8.ofNat (0xE0 + n)) =
    some ⟨n, 2, if n = 0 then 0xA0 else 0x80, if n = 0xD then 0x9F else 0xBF⟩ := by decide

theorem lead?_four : ∀ n < 5, lead? (UInt8.ofNat (0xF0 + n)) =
    some ⟨n, 3, if n = 0 then 0x90 else 0x80, if n = 4 then 0x8F else 0xBF⟩ := by decide

/-- A byte that is not the first one of a character. -/
def tailByte (n : Nat) : UInt8 := UInt8.ofNat (0x80 + n % 64)

theorem toNat_tailByte (n : Nat) : (tailByte n).toNat = 0x80 + n % 64 := by
  rw [tailByte, UInt8.toNat_ofNat']
  exact Nat.mod_eq_of_lt (by omega)

theorem le_tailByte {low : UInt8} (bound : low.toNat ≤ 0x80 + n % 64) : low ≤ tailByte n :=
  UInt8.le_iff_toNat_le.mpr (toNat_tailByte n ▸ bound)

theorem tailByte_le {high : UInt8} (bound : 0x80 + n % 64 ≤ high.toNat) : tailByte n ≤ high :=
  UInt8.le_iff_toNat_le.mpr (toNat_tailByte n ▸ bound)

theorem decodeFrom_tail_one {low high : UInt8} (least : low.toNat ≤ 0x80 + code % 64)
    (greatest : 0x80 + code % 64 ≤ high.toNat) :
    decodeFrom (some ⟨code / 64, 1, low, high⟩) (tailByte code :: bytes) =
      Char.ofNat code :: decodeFrom none bytes := by
  have bits : code / 64 * 64 + ((tailByte code).toNat - 0x80) = code := by
    rw [toNat_tailByte]
    omega
  rw [decodeFrom_last rfl (le_tailByte least) (tailByte_le greatest), bits]

theorem decodeFrom_tail_more {low high : UInt8} {missing : Nat} (more : 1 < missing)
    (least : low.toNat ≤ 0x80 + code % 64) (greatest : 0x80 + code % 64 ≤ high.toNat) :
    decodeFrom (some ⟨code / 64, missing, low, high⟩) (tailByte code :: bytes) =
      decodeFrom (some ⟨code, missing - 1, 0x80, 0xBF⟩) bytes := by
  have bits : code / 64 * 64 + ((tailByte code).toNat - 0x80) = code := by
    rw [toNat_tailByte]
    omega
  rw [decodeFrom_more more (le_tailByte least) (tailByte_le greatest), bits]

theorem decodeFrom_two (least : 0x80 ≤ code) (greatest : code < 0x800) (bytes : List UInt8) :
    decodeFrom none (UInt8.ofNat (0xC0 + code / 64) :: tailByte code :: bytes) =
      Char.ofNat code :: decodeFrom none bytes := by
  have lead := lead?_two (code / 64) (by omega) (by omega)
  rw [decodeFrom_lead lead]
  exact decodeFrom_tail_one (by simp) (by simp; omega)

/-- Codes of surrogates are no characters. -/
theorem decodeFrom_three (least : 0x800 ≤ code) (greatest : code < 0x10000)
    (valid : code < 0xD800 ∨ 0xDFFF < code) (bytes : List UInt8) :
    decodeFrom none (UInt8.ofNat (0xE0 + code / 4096) :: tailByte (code / 64) :: tailByte code ::
        bytes) =
      Char.ofNat code :: decodeFrom none bytes := by
  have lead := lead?_three (code / 4096) (by omega)
  have split : code / 4096 = code / 64 / 64 := (Nat.div_div_eq_div_mul code 64 64).symm
  rw [split] at lead ⊢
  rw [decodeFrom_lead lead, decodeFrom_tail_more (by decide)]
  · exact decodeFrom_tail_one (by simp) (by simp; omega)
  -- The first byte narrows the range of the second one below U+1000 and from U+D000 on.
  · split
    · simp; omega
    · simp
  · split
    · simp; omega
    · simp; omega

theorem decodeFrom_four (least : 0x10000 ≤ code) (greatest : code < 0x110000)
    (bytes : List UInt8) :
    decodeFrom none (UInt8.ofNat (0xF0 + code / 262144) :: tailByte (code / 4096) ::
        tailByte (code / 64) :: tailByte code :: bytes) =
      Char.ofNat code :: decodeFrom none bytes := by
  have lead := lead?_four (code / 262144) (by omega)
  have inner : code / 4096 = code / 64 / 64 := (Nat.div_div_eq_div_mul code 64 64).symm
  have outer : code / 262144 = code / 4096 / 64 := (Nat.div_div_eq_div_mul code 4096 64).symm
  rw [outer] at lead ⊢
  rw [decodeFrom_lead lead, decodeFrom_tail_more (by decide), inner,
    decodeFrom_tail_more (by decide) (by simp) (by simp; omega)]
  · exact decodeFrom_tail_one (by simp) (by simp; omega)
  · split
    · simp; omega
    · simp
  · split
    · simp; omega
    · simp; omega

/-- The bytes of a character are read as that character. -/
theorem decodeFrom_encodeChar (c : Char) (bytes : List UInt8) :
    decodeFrom none (encodeChar c ++ bytes) = c :: decodeFrom none bytes := by
  have same : Char.ofNat c.toNat = c := Char.ofNat_toNat c
  have valid : c.toNat < 0xD800 ∨ 0xDFFF < c.toNat ∧ c.toNat < 0x110000 := c.valid
  rw [encodeChar]
  simp only [Nat.div_one]
  split
  next single =>
    have code : (UInt8.ofNat c.toNat).toNat = c.toNat := by
      rw [UInt8.toNat_ofNat']
      exact Nat.mod_eq_of_lt (Nat.lt_trans single (by decide))
    have low : UInt8.ofNat c.toNat < 0x80 := by
      rw [UInt8.lt_iff_toNat_lt, code]
      exact single
    rw [List.singleton_append, decodeFrom, step, start, if_pos low, code, same]
    rfl
  next more =>
    split
    next two =>
      have decoded := decodeFrom_two (Nat.le_of_not_lt more) two
      rw [same] at decoded
      exact decoded bytes
    next more =>
      split
      next three =>
        have decoded := decodeFrom_three (Nat.le_of_not_lt more) three (valid.imp_right And.left)
        rw [same] at decoded
        exact decoded bytes
      next more =>
        have bound : c.toNat < 0x110000 := by omega
        have decoded := decodeFrom_four (Nat.le_of_not_lt more) bound
        rw [same] at decoded
        exact decoded bytes

/-- Encoded text in front of other bytes is decoded as it stands. -/
theorem decode_encode_append (text : Text) (bytes : List UInt8) :
    decode (encode text ++ bytes) = text ++ decode bytes := by
  induction text with
  | nil => rfl
  | cons c text induction =>
      rw [decode, encode, List.flatMap_cons, List.append_assoc, decodeFrom_encodeChar]
      exact congrArg (c :: ·) induction

theorem decode_encode (text : Text) : decode (encode text) = text := by
  have whole := decode_encode_append text []
  rwa [List.append_nil, show decode [] = [] from rfl, List.append_nil] at whole

theorem encode_of_isAscii {text : Text} (ascii : ∀ c ∈ text, Ascii.isAscii c = true) :
    encode text = text.map Ascii.byte := by
  induction text with
  | nil => rfl
  | cons c text induction =>
      have single : encodeChar c = [Ascii.byte c] :=
        if_pos (of_decide_eq_true (ascii c List.mem_cons_self))
      rw [encode, List.flatMap_cons, single, List.map_cons]
      exact congrArg (Ascii.byte c :: ·) (induction fun d member =>
        ascii d (List.mem_cons_of_mem c member))

theorem decode_append_of_isAscii {text : Text} (ascii : ∀ c ∈ text, Ascii.isAscii c = true)
    (bytes : List UInt8) : decode (text.map Ascii.byte ++ bytes) = text ++ decode bytes := by
  rw [← encode_of_isAscii ascii, decode_encode_append]

theorem decode_of_isAscii {text : Text} (ascii : ∀ c ∈ text, Ascii.isAscii c = true) :
    decode (text.map Ascii.byte) = text := by
  rw [← encode_of_isAscii ascii, decode_encode]

end Utf8

end RelayDescriptor
