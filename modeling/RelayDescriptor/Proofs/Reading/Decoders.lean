import RelayDescriptor.Grammar.Registry
import RelayDescriptor.Proofs.Reading.Overlong

/-!
# Decoders of the library

No decoder of the library is interrupted by anything but a numeral with too many
digits among the arguments of its line.
-/

namespace RelayDescriptor

variable {α : Type} {sources : List Text} {token : Token} {field : String}

theorem expectExactly_onlyOverlong (count : Nat) (token : Token) :
    OnlyOverlong sources (token.expectExactly count) := by
  rw [Token.expectExactly]
  split
  · exact .ok ()
  · exact .violation _

theorem expectAtLeast_onlyOverlong (count : Nat) (token : Token) :
    OnlyOverlong sources (token.expectAtLeast count) := by
  rw [Token.expectAtLeast]
  split
  · exact .ok ()
  · exact .violation _

theorem OnlyOverlong.ofArgument {result : Except Fault α} {index : Nat}
    (only : OnlyOverlong [token.argument index] result) : OnlyOverlong token.arguments result :=
  only.argument

theorem integerArgument_onlyOverlong (bounds : Bounds) (line : Text) (token : Token)
    (index : Nat) :
    OnlyOverlong token.arguments (integer bounds line (token.argument index)) :=
  (integer_onlyOverlong bounds line _).ofArgument

namespace Decoder

/-- A decoder that only a numeral with too many digits among the arguments interrupts. -/
def IsSteady (decoder : Decoder) : Prop :=
  ∀ token, OnlyOverlong token.arguments (decoder.values token)

theorem isSteady_ofToken {read : Token → Except Fault Value}
    (each : ∀ token, OnlyOverlong token.arguments (read token)) :
    (ofToken field read).IsSteady :=
  fun token => (each token).map _

theorem isSteady_ofArgument {read : Text → Text → Except Fault Value}
    (each : ∀ line argument, OnlyOverlong [argument] (read line argument)) :
    (ofArgument field read).IsSteady := by
  apply isSteady_ofToken
  intro token
  apply OnlyOverlong.bind (expectExactly_onlyOverlong 1 token)
  intro _ _
  exact (each token.line (token.argument 0)).ofArgument

@[simp] theorem isSteady_timestamp : (timestamp field).IsSteady := by
  apply isSteady_ofToken
  intro token
  apply OnlyOverlong.bind (expectExactly_onlyOverlong 2 token)
  intro _ _
  apply OnlyOverlong.bind (timestamp_onlyOverlong token.line token.arguments 0 1)
  intro moment _
  exact .ok _

@[simp] theorem isSteady_hexDigest (length : Int) : (hexDigest field length).IsSteady := by
  apply isSteady_ofArgument
  intro line argument
  exact (hexDigest_onlyOverlong length line argument).map _

@[simp] theorem isSteady_integer (bounds : Bounds) : (integer field bounds).IsSteady := by
  apply isSteady_ofArgument
  intro line argument
  exact (integer_onlyOverlong bounds line argument).map _

@[simp] theorem isSteady_single : (single field).IsSteady := by
  apply isSteady_ofArgument
  intro line argument
  exact .ok _

@[simp] theorem isSteady_text : (text field).IsSteady := isSteady_ofToken fun _ => .ok _

@[simp] theorem isSteady_arguments : (arguments field).IsSteady := isSteady_ofToken fun _ => .ok _

@[simp] theorem isSteady_share : (share field).IsSteady := by
  apply isSteady_ofToken
  intro token
  exact (share_onlyOverlong token.line token.arguments).map _

@[simp] theorem isSteady_keyValues (keyLength : Int) : (keyValues field keyLength).IsSteady := by
  apply isSteady_ofToken
  intro token
  exact (keyValueList_onlyOverlong token.line token.arguments 0 keyLength).map _

@[simp] theorem isSteady_spacedKeyValues : (spacedKeyValues field).IsSteady := by
  apply isSteady_ofToken
  intro token
  exact (spacedKeyValues_onlyOverlong token.line token.arguments 0).map _

@[simp] theorem isSteady_integers : (integers field).IsSteady := by
  apply isSteady_ofToken
  intro token
  exact (integerList_onlyOverlong token.line token.arguments 0).map _

@[simp] theorem isSteady_decimals : (decimals field).IsSteady := by
  apply isSteady_ofToken
  intro token
  exact (decimalList_onlyOverlong token.line token.arguments 0).map _

@[simp] theorem isSteady_statsEnd : (statsEnd field).IsSteady := by
  apply isSteady_ofToken
  intro token
  exact (statsInterval_onlyOverlong token.line token.arguments).map _

@[simp] theorem isSteady_history : (history field).IsSteady := by
  apply isSteady_ofToken
  intro token
  exact (bandwidthHistory_onlyOverlong token.line token.arguments).map _

@[simp] theorem isSteady_mark : (mark field).IsSteady := isSteady_ofToken fun _ => .ok _

@[simp] theorem isSteady_bare : (bare field).IsSteady := by
  apply isSteady_ofToken
  intro token
  apply OnlyOverlong.bind (expectExactly_onlyOverlong 0 token)
  intro _ _
  exact .ok _

@[simp] theorem isSteady_nothing : nothing.IsSteady := by
  intro token
  apply OnlyOverlong.bind (expectExactly_onlyOverlong 0 token)
  intro _ _
  exact .ok _

end Decoder

/-- Rules whose decoders are all steady. -/
def AreSteady (rules : List FieldRule) : Prop := ∀ rule ∈ rules, rule.decoder.IsSteady

@[simp] theorem areSteady_nil : AreSteady [] := by
  intro rule member
  cases member

@[simp] theorem areSteady_once_cons {keyword : String} {decoder : Decoder}
    {rules : List FieldRule} :
    AreSteady (.once keyword decoder :: rules) ↔ decoder.IsSteady ∧ AreSteady rules :=
  List.forall_mem_cons

@[simp] theorem areSteady_each_cons {keyword : String} {decoder : Decoder}
    {rules : List FieldRule} :
    AreSteady (.each keyword decoder :: rules) ↔ decoder.IsSteady ∧ AreSteady rules :=
  List.forall_mem_cons

theorem AreSteady.append {rules others : List FieldRule} (first : AreSteady rules)
    (second : AreSteady others) : AreSteady (rules ++ others) := by
  intro rule member
  rcases List.mem_append.mp member with here | there
  · exact first rule here
  · exact second rule there

namespace Server

@[simp] theorem isSteady_router : router.IsSteady := by
  intro token
  apply OnlyOverlong.bind (expectExactly_onlyOverlong 5 token)
  intro _ _
  apply OnlyOverlong.bind (nickname_onlyOverlong token.line _)
  intro nickname _
  apply OnlyOverlong.bind (address_onlyOverlong token.line _)
  intro address _
  apply OnlyOverlong.bind (integerArgument_onlyOverlong _ token.line token 2)
  intro orPort _
  apply OnlyOverlong.bind (integerArgument_onlyOverlong _ token.line token 3)
  intro socksPort _
  apply OnlyOverlong.bind (integerArgument_onlyOverlong _ token.line token 4)
  intro dirPort _
  exact .ok _

@[simp] theorem isSteady_bandwidth : bandwidth.IsSteady := by
  intro token
  apply OnlyOverlong.bind (expectAtLeast_onlyOverlong 3 token)
  intro _ _
  apply OnlyOverlong.bind (integerArgument_onlyOverlong _ token.line token 0)
  intro rate _
  apply OnlyOverlong.bind (integerArgument_onlyOverlong _ token.line token 1)
  intro burst _
  apply OnlyOverlong.bind (integerArgument_onlyOverlong _ token.line token 2)
  intro observed _
  exact .ok _

@[simp] theorem isSteady_fingerprint : fingerprint.IsSteady := by
  apply Decoder.isSteady_ofToken
  intro token
  apply OnlyOverlong.bind (expectExactly_onlyOverlong 10 token)
  intro _ _
  apply OnlyOverlong.bind
  · apply OnlyOverlong.forM
    intro group _
    exact (hexDigest_onlyOverlong 4 token.line group).map _
  · intro _ _
    apply OnlyOverlong.bind (hexDigest_onlyOverlong _ token.line _)
    intro digest _
    exact .ok _

@[simp] theorem isSteady_zeroOrOne (field : String) : (zeroOrOne field).IsSteady := by
  apply Decoder.isSteady_ofArgument
  intro line argument
  exact (integer_onlyOverlong _ line argument).map _

@[simp] theorem isSteady_policyLine : policyLine.IsSteady := by
  apply Decoder.isSteady_ofToken
  intro token
  apply OnlyOverlong.bind (expectExactly_onlyOverlong 1 token)
  intro _ _
  exact .ok _

@[simp] theorem isSteady_extraInfoDigest : extraInfoDigest.IsSteady := by
  apply Decoder.isSteady_ofToken
  intro token
  apply OnlyOverlong.bind (expectAtLeast_onlyOverlong 1 token)
  intro _ _
  apply OnlyOverlong.bind (hexDigest_onlyOverlong _ token.line _)
  intro digest _
  exact .ok _

theorem areSteady_rules : AreSteady rules := by
  simp [rules]

end Server

namespace ExtraInfo

@[simp] theorem isSteady_relay : relay.IsSteady := by
  intro token
  apply OnlyOverlong.bind (expectExactly_onlyOverlong 2 token)
  intro _ _
  apply OnlyOverlong.bind (nickname_onlyOverlong token.line _)
  intro nickname _
  apply OnlyOverlong.bind (hexDigest_onlyOverlong _ token.line _)
  intro fingerprint _
  exact .ok _

@[simp] theorem isSteady_connections : connections.IsSteady := by
  intro token
  apply OnlyOverlong.bind (expectExactly_onlyOverlong 5 token)
  intro _ _
  apply OnlyOverlong.bind
  · apply OnlyOverlong.mono (statsInterval_onlyOverlong token.line _)
    intro argument member count _ run
    exact ⟨argument, List.mem_of_mem_take member, run⟩
  · intro statsEnd _
    apply OnlyOverlong.bind (integerList_onlyOverlong token.line token.arguments 4)
    intro counts _
    split
    · exact .ok _
    · exact .value token.line _ _

theorem areSteady_rules : AreSteady rules := by
  simp [rules]

end ExtraInfo

namespace KeyCertificate

@[simp] theorem isSteady_version : version.IsSteady := by
  apply Decoder.isSteady_ofArgument
  intro line argument
  apply OnlyOverlong.bind (integer_onlyOverlong _ line argument)
  intro n _
  split
  · exact .ok _
  · exact .value line argument _

@[simp] theorem isSteady_dirAddress : dirAddress.IsSteady := by
  intro token
  apply OnlyOverlong.bind (expectExactly_onlyOverlong 1 token)
  intro _ _
  split
  next => exact .value token.line _ _
  next host number cut =>
    apply OnlyOverlong.bind (address_onlyOverlong token.line host)
    intro host _
    apply OnlyOverlong.bind
    · have within : number <:+: token.argument 0 := by
        rw [Text.cutLast?_eq_some cut, ← List.singleton_append, ← List.append_assoc]
        exact (List.suffix_append _ number).isInfix
      apply OnlyOverlong.ofArgument
      exact (integer_onlyOverlong _ token.line number).of_within List.mem_cons_self within
    · intro number _
      exact .ok _

theorem areSteady_rules : AreSteady rules := by
  simp [rules]

end KeyCertificate

namespace Microdescriptor

@[simp] theorem isSteady_policySummary (policyField portsField : String) :
    (policySummary policyField portsField).IsSteady := by
  intro token
  apply OnlyOverlong.bind (expectExactly_onlyOverlong 2 token)
  intro _ _
  dsimp only
  split
  · exact .ok _
  · exact .value token.line _ _

@[simp] theorem isSteady_identity : identity.IsSteady := by
  apply Decoder.isSteady_ofToken
  intro token
  apply OnlyOverlong.bind (expectExactly_onlyOverlong 2 token)
  intro _ _
  exact .ok _

theorem areSteady_rules : AreSteady rules := by
  simp [rules]

end Microdescriptor

namespace NetworkStatus

@[simp] theorem isSteady_version : version.IsSteady := by
  intro token
  have number : OnlyOverlong token.arguments (do
      let n ← integer .none token.line (token.argument 0)
      if n = 3 then return [Value.integer n, Value.ofText? token.arguments[1]?]
      else
        Except.error
          (Fault.value token.line (token.argument 0) "network status version 3")) := by
    apply OnlyOverlong.bind (integerArgument_onlyOverlong _ token.line token 0)
    intro n _
    split
    · exact .ok _
    · exact .value token.line _ _
  apply OnlyOverlong.bind (expectAtLeast_onlyOverlong 1 token)
  intro _ _
  dsimp only
  split
  · apply OnlyOverlong.bind (expectExactly_onlyOverlong 2 token)
    intro _ _
    exact number
  · exact number

@[simp] theorem isSteady_voteStatus (status : String) : (voteStatus status).IsSteady := by
  apply Decoder.isSteady_ofArgument
  intro line argument
  split
  · exact .ok _
  · exact .value line argument _

@[simp] theorem isSteady_consensusMethods : consensusMethods.IsSteady := by
  apply Decoder.isSteady_ofToken
  intro token
  apply OnlyOverlong.bind (expectAtLeast_onlyOverlong 1 token)
  intro _ _
  apply OnlyOverlong.bind
  · apply OnlyOverlong.mapM
    intro argument member
    exact (integer_onlyOverlong _ token.line argument).of_mem member
  · intro methods _
    exact .ok _

@[simp] theorem isSteady_votingDelay : votingDelay.IsSteady := by
  intro token
  apply OnlyOverlong.bind (expectExactly_onlyOverlong 2 token)
  intro _ _
  apply OnlyOverlong.bind (integerArgument_onlyOverlong _ token.line token 0)
  intro vote _
  apply OnlyOverlong.bind (integerArgument_onlyOverlong _ token.line token 1)
  intro dist _
  exact .ok _

@[simp] theorem isSteady_versions (field : String) : (versions field).IsSteady := by
  apply Decoder.isSteady_ofToken
  intro token
  split
  · exact .ok _
  · apply OnlyOverlong.bind (expectExactly_onlyOverlong 1 token)
    intro _ _
    exact .ok _

@[simp] theorem isSteady_dirSource : dirSource.IsSteady := by
  apply Decoder.isSteady_ofToken
  intro token
  apply OnlyOverlong.bind (expectExactly_onlyOverlong 6 token)
  intro _ _
  apply OnlyOverlong.bind (hexDigest_onlyOverlong _ token.line _)
  intro identity _
  apply OnlyOverlong.bind (address_onlyOverlong token.line _)
  intro address _
  apply OnlyOverlong.bind (integerArgument_onlyOverlong _ token.line token 4)
  intro dirPort _
  apply OnlyOverlong.bind (integerArgument_onlyOverlong _ token.line token 5)
  intro orPort _
  exact .ok _

@[simp] theorem isSteady_contact : contact.IsSteady := Decoder.isSteady_ofToken fun _ => .ok _

@[simp] theorem isSteady_voteDigest : voteDigest.IsSteady := by
  apply Decoder.isSteady_ofToken
  intro token
  apply OnlyOverlong.bind (expectExactly_onlyOverlong 1 token)
  intro _ _
  apply OnlyOverlong.bind (hexDigest_onlyOverlong _ token.line _)
  intro digest _
  exact .ok _

theorem statusEntry_onlyOverlong (token : Token) :
    OnlyOverlong token.arguments (statusEntry token) := by
  have values : ∀ (others : List Text) (descriptor : Option Text),
      (∀ other ∈ others, other ∈ token.arguments) → OnlyOverlong token.arguments (do
        let nickname ← nickname token.line (token.argument 0)
        let published ← timestamp token.line others 0 1
        let address ← address token.line (others[2]?.getD [])
        let orPort ← portNumber token.line (others[3]?.getD [])
        let dirPort ← portNumber token.line (others[4]?.getD [])
        return (⟨nickname, token.argument 1, descriptor, published, address, orPort, dirPort⟩ :
          StatusEntry)) := by
    intro others descriptor among
    have port : ∀ index : Nat, OnlyOverlong token.arguments
        (portNumber token.line (others[index]?.getD [])) := by
      intro index
      apply OnlyOverlong.mono (integer_onlyOverlong _ token.line _).argument
      intro other member count _ run
      exact ⟨other, among other member, run⟩
    apply OnlyOverlong.bind (nickname_onlyOverlong token.line _)
    intro nickname _
    apply OnlyOverlong.bind (timestamp_onlyOverlong token.line others 0 1)
    intro published _
    apply OnlyOverlong.bind (address_onlyOverlong token.line _)
    intro address _
    apply OnlyOverlong.bind (port 3)
    intro orPort _
    apply OnlyOverlong.bind (port 4)
    intro dirPort _
    exact .ok _
  rw [statusEntry]
  dsimp only
  split
  · apply OnlyOverlong.bind (expectExactly_onlyOverlong 7 token)
    intro _ _
    exact values _ _ fun other member => List.mem_of_mem_drop member
  · exact values _ _ fun other member => List.mem_of_mem_drop member

@[simp] theorem isSteady_entry : entry.IsSteady :=
  Decoder.isSteady_ofToken fun token => (statusEntry_onlyOverlong token).map _

@[simp] theorem isSteady_signature : signature.IsSteady := by
  apply Decoder.isSteady_ofToken
  intro token
  split
  · apply OnlyOverlong.bind (hexDigest_onlyOverlong _ token.line _)
    intro digest _
    exact .ok _
  · apply OnlyOverlong.bind (expectExactly_onlyOverlong 2 token)
    intro _ _
    apply OnlyOverlong.bind (hexDigest_onlyOverlong _ token.line _)
    intro digest _
    exact .ok _

theorem areSteady_commonRules (status : String) : AreSteady (commonRules status) := by
  simp [commonRules]

theorem areSteady_consensusRules : AreSteady consensusRules := by
  apply (areSteady_commonRules "consensus").append
  simp

theorem areSteady_voteRules : AreSteady voteRules := by
  apply (areSteady_commonRules "vote").append
  simp

end NetworkStatus

/-- All decoders of the library are steady. -/
theorem areSteady_of_mem_standard {grammar : Grammar} (member : grammar ∈ Registry.standard) :
    AreSteady grammar.rules := by
  have all : ∀ grammar ∈ Registry.standard, AreSteady grammar.rules := by
    simp [Registry.standard, NetworkStatus.grammars, Server.grammars, ExtraInfo.grammars,
      Microdescriptor.grammars, KeyCertificate.grammars, NetworkStatus.consensusGrammar,
      NetworkStatus.voteGrammar, Server.grammar, ExtraInfo.grammar,
      NetworkStatus.areSteady_consensusRules, NetworkStatus.areSteady_voteRules,
      Server.areSteady_rules, ExtraInfo.areSteady_rules, Microdescriptor.areSteady_rules,
      KeyCertificate.areSteady_rules]
  exact all grammar member

end RelayDescriptor
