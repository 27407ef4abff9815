import RelayDescriptor.Text.Quoted

/-!
# Text of digests

Digests are written in upper-case hexadecimal, or in base 64 without the padding
at the end.
-/

namespace RelayDescriptor

/-- The bytes in upper-case hexadecimal, two digits for a byte. -/
def upperHex (bytes : List UInt8) : Text :=
  bytes.flatMap fun b => (hexDigits 2 b.toNat).map Char.toUpper

namespace Base64

/-- The digit of a number below sixty-four. -/
def digit (n : Nat) : Char :=
  if n < 26 then Char.ofNat (0x41 + n)
  else if n < 52 then Char.ofNat (0x61 + (n - 26))
  else if n < 62 then Char.ofNat (0x30 + (n - 52))
  else if n = 62 then '+' else '/'

/-- Three bytes give four digits; one or two bytes at the end give two or three. -/
def unpadded : List UInt8 → Text
  | [] => []
  | [a] => [digit (a.toNat / 4), digit (a.toNat % 4 * 16)]
  | [a, b] =>
      [digit (a.toNat / 4), digit (a.toNat % 4 * 16 + b.toNat / 16), digit (b.toNat % 16 * 4)]
  | a :: b :: c :: rest =>
      digit (a.toNat / 4) :: digit (a.toNat % 4 * 16 + b.toNat / 16) ::
        digit (b.toNat % 16 * 4 + c.toNat / 64) :: digit (c.toNat % 64) :: unpadded rest

end Base64

end RelayDescriptor
