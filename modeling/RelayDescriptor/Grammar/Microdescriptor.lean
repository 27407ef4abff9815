import RelayDescriptor.Grammar.Basic

/-!
# Microdescriptors

A microdescriptor opens with a bare line that introduces an embedded key.
-/

namespace RelayDescriptor

namespace Microdescriptor

/-- The decoded fields. -/
def schema : Schema where
  name := "Microdescriptor"
  fields :=
    [
      ("ntor_onion_key", .absent), ("or_addresses", .list []), ("family", .absent),
      ("default_policy", .absent), ("port_list", .absent), ("ipv6_default_policy", .absent),
      ("ipv6_port_list", .absent), ("identities", .list [])
    ]
  arrange := .ok

/-- A policy and the port numbers that it is about, which go into two fields. -/
def policySummary (policyField portsField : String) : Decoder :=
  .ofFields [policyField, portsField] fun token => do
    token.expectExactly 2
    let policy := token.argument 0
    if policy = "accept".toList ∨ policy = "reject".toList then
      return [.text policy, .text (token.argument 1)]
    else .error (.value token.line policy "'accept' or 'reject'")

/-- A type of key and a digest. -/
def identity : Decoder :=
  .ofToken "identities" fun token => do
    token.expectExactly 2
    return Value.texts [token.argument 0, token.argument 1]

/-- The meanings of the keywords. -/
def rules : List FieldRule :=
  [
    .once "onion-key" .nothing,
    .once "ntor-onion-key" (.single "ntor_onion_key"),
    .each "a" (.single "or_addresses"),
    .once "family" (.arguments "family"),
    .once "p" (policySummary "default_policy" "port_list"),
    .once "p6" (policySummary "ipv6_default_policy" "ipv6_port_list"),
    .each "id" identity
  ]

/-- The rules on the occurrence of keywords. -/
def constraints : Constraints :=
  .of ["onion-key".toList] (["ntor-onion-key", "family", "p", "p6"].map String.toList) []

/-- The grammars of this module. -/
def grammars : List Grammar :=
  [
    {
      kind := .microdescriptor
      leading := "onion-key".toList
      constraints
      rules
      schema
      passthrough := []
      cap := none
      digestEnd := none
      sha256End := none
      description := "Microdescriptor"
    }
  ]

end Microdescriptor

end RelayDescriptor
