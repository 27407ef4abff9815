import RelayDescriptor.Digest.Encoding
import RelayDescriptor.Digest.Sha1
import RelayDescriptor.Digest.Sha256
import RelayDescriptor.Document.Ranges
import RelayDescriptor.Grammar.Basic

/-!
# Digests of documents

The signed part of a document runs from its leading keyword through an end marker.
Its SHA-1 digest is written in hexadecimal, its SHA-256 digest in base 64.
-/

namespace RelayDescriptor

/-- The digests of a document, as far as they exist. -/
structure Digests where
  sha1 : Option Text
  sha256 : Option Text
  deriving Repr, DecidableEq

namespace Digests

/-- The bytes from the first line on that begins with a keyword. -/
def fromKeyword? (keyword bytes : List UInt8) : Option (List UInt8) :=
  if keyword.isPrefixOf bytes then some bytes
  else (Document.nextLine? keyword bytes).map bytes.drop

/-- The bytes through the end of the first occurrence of a marker. -/
def throughMarker? (marker bytes : List UInt8) : Option (List UInt8) :=
  (searchFrom marker 0 bytes).map fun start => bytes.take (start + marker.length)

/-- The text of a digest of the bytes through a marker, if there is a marker and it occurs. -/
def through (digest : List UInt8 → Text) (marker : Option Text) (bytes : List UInt8) :
    Except Ascii.Flaw (Option Text) :=
  match marker with
  | none => .ok none
  | some marker => do
      let marker ← Ascii.encode marker
      return (throughMarker? marker bytes).map digest

/-- The SHA-1 digest as text. -/
def sha1Text (bytes : List UInt8) : Text := upperHex (Sha1.hash bytes)

/-- The SHA-256 digest as text. -/
def sha256Text (bytes : List UInt8) : Text := Base64.unpadded (Sha256.hash bytes)

/-- The digests of bytes with a leading keyword and the end markers of both digests. -/
def compute (keyword : Text) (sha1End sha256End : Option Text) (bytes : List UInt8) :
    Except Ascii.Flaw Digests := do
  let keyword ← Ascii.encode keyword
  match fromKeyword? keyword bytes with
  | none => return ⟨none, none⟩
  | some signed =>
      let sha1 ← through sha1Text sha1End signed
      let sha256 ← through sha256Text sha256End signed
      return ⟨sha1, sha256⟩

/-- The fields with the digests written. -/
def write (digests : Digests) (fields : Fields) : Fields :=
  let writeText := fun (name : String) (text : Option Text) (fields : Fields) =>
    match text with
    | some text => fields.write name (.text text)
    | none => fields
  writeText sha256Field digests.sha256 (writeText digestField digests.sha1 fields)

end Digests

namespace Grammar

/-- The digests of a document. -/
def digests (grammar : Grammar) (bytes : List UInt8) : Except Fault Digests :=
  (Digests.compute grammar.leading grammar.digestEnd grammar.sha256End bytes).mapError
    fun flaw => .interrupted (.notAscii flaw)

end Grammar

end RelayDescriptor
