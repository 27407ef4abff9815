import RelayDescriptor.Grammar.Basic

/-!
# Key certificates

The certificates of the keys of directory authorities, in version 3.
-/

namespace RelayDescriptor

namespace KeyCertificate

/-- The decoded fields. -/
def schema : Schema where
  name := "DirKeyCertificate"
  fields :=
    [
      ("version", .integer 0), ("address", .absent), ("dir_port", .absent),
      ("fingerprint", .text []), ("published_millis", .integer 0),
      ("expires_millis", .integer 0), (digestField, .absent)
    ]
  arrange := .ok

/-- The version, which must be 3. -/
def version : Decoder :=
  .ofArgument "version" fun line argument => do
    let n ← integer (.atLeast 0) line argument
    if n = 3 then return .integer n else .error (.value line argument "certificate version 3")

/-- An address and a port number. -/
def dirAddress : Decoder :=
  .ofFields ["address", "dir_port"] fun token => do
    token.expectExactly 1
    match Text.cutLast? ':' (token.argument 0) with
    | none => .error (.value token.line (token.argument 0) "an 'address:port' pair")
    | some (host, number) =>
        let host ← address token.line host
        let number ← portNumber token.line number
        return [.text host, .integer number]

/-- The meanings of the keywords. -/
def rules : List FieldRule :=
  [
    .once "dir-key-certificate-version" version,
    .once "dir-address" dirAddress,
    .once "fingerprint" (.hexDigest "fingerprint" fingerprintLength),
    .once "dir-key-published" (.timestamp "published_millis"),
    .once "dir-key-expires" (.timestamp "expires_millis"),
    .once "dir-identity-key" .nothing,
    .once "dir-signing-key" .nothing,
    .once "dir-key-crosscert" .nothing,
    .once "dir-key-certification" .nothing
  ]

/-- The keywords of a certificate that must occur exactly once. -/
def required : List Text :=
  [
    "dir-key-certificate-version", "fingerprint", "dir-key-published", "dir-key-expires",
    "dir-identity-key", "dir-signing-key", "dir-key-certification"
  ].map String.toList

/-- The keywords of a certificate that may occur at most once. -/
def allowed : List Text := ["dir-address", "dir-key-crosscert"].map String.toList

/-- The grammars of this module. -/
def grammars : List Grammar :=
  [
    {
      kind := .keyCertificate
      leading := "dir-key-certificate-version".toList
      constraints := .of required allowed []
      rules
      schema
      passthrough := []
      cap := none
      digestEnd := some "\ndir-key-certification\n".toList
      sha256End := none
      description := "Directory authority key certificate (v3)"
    }
  ]

end KeyCertificate

end RelayDescriptor
