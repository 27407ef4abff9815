import RelayDescriptor.Grammar.Registry
import RelayDescriptor.Proofs.Reading.Steps

/-!
# Faults of one line

A decoder refuses nothing but the line that it is given: its fault quotes that line, as
one with an illegal value or with a wrong number of arguments.  The rules on the lines
of a document as a whole are not its business.
-/

namespace RelayDescriptor

variable {α : Type} {line : Text} {arguments : List Text} {index : Nat} {expected field : String}
  {token : Token}

/-- A fault that quotes a line, or an interruption. -/
def Fault.IsAbout (line : Text) : Fault → Prop
  | .rejected (.illegalValue other _ _) => other = line
  | .rejected (.malformed (.argumentCount _ other _ _ _)) => other = line
  | .rejected _ => False
  | .interrupted _ => True

/-- Whatever goes wrong, the fault is about a line. -/
abbrev IsOwn (line : Text) (result : Except Fault α) : Prop :=
  FailsOnly (Fault.IsAbout line) result

@[simp] theorem Fault.isAbout_value (argument : Text) :
    Fault.IsAbout line (.value line argument expected) := rfl

@[simp] theorem Fault.isAbout_line : Fault.IsAbout line (.line line expected) := rfl

@[simp] theorem Fault.isAbout_argumentCount (keyword : Text) (atLeast : Bool)
    (count found : Nat) :
    Fault.IsAbout line (.violation (.argumentCount keyword line atLeast count found)) := rfl

/-! ## Readers -/

@[simp] theorem isOwn_readInteger (text : Text) : IsOwn line (readInteger text) := by
  intro fault failed
  rw [readInteger] at failed
  cases read : Numeral.readInt text with
  | ok n =>
      rw [read] at failed
      cases failed
  | error count =>
      rw [read] at failed
      cases failed
      exact trivial

@[simp] theorem isOwn_integer (bounds : Bounds) (value : Text) :
    IsOwn line (integer bounds line value) := by
  rw [integer]
  split
  · split
    next fault failed => exact failed ▸ isOwn_readInteger value
    next n _ =>
      split
      · simp
      · simp
  · simp

@[simp] theorem isOwn_portNumber (value : Text) : IsOwn line (portNumber line value) :=
  isOwn_integer _ value

@[simp] theorem isOwn_hexDigest (length : Int) (value : Text) :
    IsOwn line (hexDigest length line value) := by
  simp [hexDigest]

@[simp] theorem isOwn_nickname (value : Text) : IsOwn line (nickname line value) := by
  simp [nickname]

@[simp] theorem isOwn_address (value : Text) : IsOwn line (address line value) := by
  simp [address]

@[simp] theorem isOwn_seconds (value : Text) : IsOwn line (seconds line value) := by
  simp [seconds]

@[simp] theorem isOwn_argumentAt : IsOwn line (argumentAt line arguments index expected) := by
  rw [argumentAt]
  split
  · simp
  · simp

@[simp] theorem isOwn_timestamp (dateIndex timeIndex : Nat) :
    IsOwn line (timestamp line arguments dateIndex timeIndex) := by
  have read : ∀ date time, IsOwn line (Timestamp.read line date time) := by
    intro date time
    rw [Timestamp.read]
    split
    · simp
    · split
      · simp
      · simp
  simp [timestamp, read]

@[simp] theorem isOwn_interval : IsOwn line (interval line arguments index) := by
  rw [interval]
  simp only [failsOnly_bind, isOwn_argumentAt, true_and]
  intro opening _ closing _
  split
  · simp
  · simp

@[simp] theorem isOwn_statsInterval : IsOwn line (statsInterval line arguments) := by
  simp [statsInterval]

@[simp] theorem isOwn_bandwidthHistory : IsOwn line (bandwidthHistory line arguments) := by
  have counts : ∀ elements : List Text,
      IsOwn line (elements.mapM (History.byteCount line)) :=
    fun elements => failsOnly_mapM fun element _ => by simp [History.byteCount]
  simp [bandwidthHistory, counts]

@[simp] theorem isOwn_listArgument : IsOwn line (listArgument line arguments index expected) := by
  have join : ∀ (joined : Text) (pieces : List Text),
      IsOwn line (joinListFrom line expected joined pieces) := by
    intro joined pieces
    induction pieces generalizing joined with
    | nil => exact failsOnly_ok joined
    | cons piece pieces induction =>
        rw [joinListFrom]
        simp [induction]
  rw [listArgument]
  split
  next => exact failsOnly_ok []
  next first pieces _ => exact join first pieces

@[simp] theorem isOwn_keyCounts (keyLength : Int) (elements : List Text) :
    IsOwn line (keyCounts keyLength line expected elements) := by
  refine failsOnly_map.mpr (failsOnly_mapM ?_)
  intro element _
  rw [keyCount]
  split
  · simp
  · simp

@[simp] theorem isOwn_keyValueList (keyLength : Int) :
    IsOwn line (keyValueList line arguments index keyLength) := by
  simp [keyValueList]

@[simp] theorem isOwn_spacedKeyValues : IsOwn line (spacedKeyValues line arguments index) := by
  simp [spacedKeyValues]

theorem isOwn_elementsAt {read : Text → Except Fault α}
    (each : ∀ element, IsOwn line (read element)) :
    IsOwn line (elementsAt read expected line arguments index) := by
  rw [elementsAt]
  split
  · simp
  · exact failsOnly_mapM fun element _ => each element
  · simp

@[simp] theorem isOwn_integerList : IsOwn line (integerList line arguments index) :=
  isOwn_elementsAt fun element => by simp

@[simp] theorem isOwn_decimalList : IsOwn line (decimalList line arguments index) := by
  apply isOwn_elementsAt
  intro element
  split
  · simp
  · simp

@[simp] theorem isOwn_share : IsOwn line (share line arguments) := by
  rw [share.eq_def]
  dsimp only
  split
  · split
    · simp
    · simp
  · simp

@[simp] theorem isOwn_expectExactly (count : Nat) :
    IsOwn token.line (token.expectExactly count) := by
  simp [Token.expectExactly]

@[simp] theorem isOwn_expectAtLeast (count : Nat) :
    IsOwn token.line (token.expectAtLeast count) := by
  simp [Token.expectAtLeast]

/-! ## Decoders -/

/-- A decoder that refuses only the line that it is given. -/
def Decoder.KeepsToLine (decoder : Decoder) : Prop :=
  ∀ token, IsOwn token.line (decoder.values token)

namespace Decoder

@[simp] theorem keepsToLine_ofToken {read : Token → Except Fault Value} :
    (ofToken field read).KeepsToLine ↔ ∀ token, IsOwn token.line (read token) := by
  simp [KeepsToLine, ofToken]

@[simp] theorem keepsToLine_ofArgument {read : Text → Text → Except Fault Value}
    (each : ∀ line argument, IsOwn line (read line argument)) :
    (ofArgument field read).KeepsToLine := by
  simp [ofArgument, each]

@[simp] theorem keepsToLine_timestamp : (timestamp field).KeepsToLine := by simp [timestamp]

@[simp] theorem keepsToLine_hexDigest (length : Int) : (hexDigest field length).KeepsToLine := by
  simp [hexDigest]

@[simp] theorem keepsToLine_integer (bounds : Bounds) : (integer field bounds).KeepsToLine := by
  simp [integer]

@[simp] theorem keepsToLine_single : (single field).KeepsToLine := by simp [single]

@[simp] theorem keepsToLine_text : (text field).KeepsToLine := by simp [text]

@[simp] theorem keepsToLine_arguments : (Decoder.arguments field).KeepsToLine := by
  simp [Decoder.arguments]

@[simp] theorem keepsToLine_share : (share field).KeepsToLine := by simp [share]

@[simp] theorem keepsToLine_keyValues (keyLength : Int) :
    (keyValues field keyLength).KeepsToLine := by
  simp [keyValues]

@[simp] theorem keepsToLine_spacedKeyValues : (spacedKeyValues field).KeepsToLine := by
  simp [spacedKeyValues]

@[simp] theorem keepsToLine_integers : (integers field).KeepsToLine := by simp [integers]

@[simp] theorem keepsToLine_decimals : (decimals field).KeepsToLine := by simp [decimals]

@[simp] theorem keepsToLine_statsEnd : (statsEnd field).KeepsToLine := by simp [statsEnd]

@[simp] theorem keepsToLine_history : (history field).KeepsToLine := by simp [history]

@[simp] theorem keepsToLine_mark : (mark field).KeepsToLine := by simp [mark]

@[simp] theorem keepsToLine_bare : (bare field).KeepsToLine := by simp [bare]

@[simp] theorem keepsToLine_nothing : nothing.KeepsToLine := by simp [nothing, KeepsToLine]

end Decoder

/-- Rules whose decoders keep to their lines. -/
def KeepToLines (rules : List FieldRule) : Prop := ∀ rule ∈ rules, rule.decoder.KeepsToLine

@[simp] theorem keepToLines_nil : KeepToLines [] := by simp [KeepToLines]

@[simp] theorem keepToLines_once_cons {keyword : String} {decoder : Decoder}
    {rules : List FieldRule} :
    KeepToLines (.once keyword decoder :: rules) ↔ decoder.KeepsToLine ∧ KeepToLines rules :=
  List.forall_mem_cons

@[simp] theorem keepToLines_each_cons {keyword : String} {decoder : Decoder}
    {rules : List FieldRule} :
    KeepToLines (.each keyword decoder :: rules) ↔ decoder.KeepsToLine ∧ KeepToLines rules :=
  List.forall_mem_cons

@[simp] theorem keepToLines_append {rules others : List FieldRule} :
    KeepToLines (rules ++ others) ↔ KeepToLines rules ∧ KeepToLines others :=
  List.forall_mem_append

namespace Server

theorem keepToLines_rules : KeepToLines rules := by
  have router : router.KeepsToLine := by simp [router, Decoder.KeepsToLine]
  have bandwidth : bandwidth.KeepsToLine := by simp [bandwidth, Decoder.KeepsToLine]
  have fingerprint : fingerprint.KeepsToLine := by simp [fingerprint]
  have zeroOrOne : ∀ field, (zeroOrOne field).KeepsToLine := by simp [zeroOrOne]
  have policyLine : policyLine.KeepsToLine := by simp [policyLine]
  have digest : extraInfoDigest.KeepsToLine := by simp [extraInfoDigest]
  simp [rules, router, bandwidth, fingerprint, zeroOrOne, policyLine, digest]

end Server

namespace ExtraInfo

theorem keepToLines_rules : KeepToLines rules := by
  have relay : relay.KeepsToLine := by simp [relay, Decoder.KeepsToLine]
  have connections : connections.KeepsToLine := by
    intro token
    simp only [connections, Decoder.values_ofFields, failsOnly_bind, isOwn_expectExactly, isOwn_statsInterval,
      isOwn_integerList, true_and]
    intro _ _ statsEnd _ counts _
    split
    · simp
    · simp
  simp [rules, relay, connections]

end ExtraInfo

namespace KeyCertificate

theorem keepToLines_rules : KeepToLines rules := by
  have version : version.KeepsToLine := by simp [version]
  have dirAddress : dirAddress.KeepsToLine := by
    intro token
    simp only [dirAddress, Decoder.values_ofFields, failsOnly_bind, isOwn_expectExactly, true_and]
    intro _ _
    split
    · simp
    · simp
  simp [rules, version, dirAddress]

end KeyCertificate

namespace Microdescriptor

theorem keepToLines_rules : KeepToLines rules := by
  have policySummary : ∀ policyField portsField,
      (policySummary policyField portsField).KeepsToLine := by
    intro policyField portsField token
    simp only [policySummary, Decoder.values_ofFields, failsOnly_bind, isOwn_expectExactly, true_and]
    intro _ _
    split
    · simp
    · simp
  have identity : identity.KeepsToLine := by simp [identity]
  simp [rules, policySummary, identity]

end Microdescriptor

namespace NetworkStatus

@[simp] theorem isOwn_statusEntry (token : Token) : IsOwn token.line (statusEntry token) := by
  simp [statusEntry]

theorem keepToLines_commonRules (status : String) : KeepToLines (commonRules status) := by
  have version : version.KeepsToLine := by simp [version, Decoder.KeepsToLine]
  have voteStatus : (voteStatus status).KeepsToLine := by simp [voteStatus]
  have votingDelay : votingDelay.KeepsToLine := by simp [votingDelay, Decoder.KeepsToLine]
  have versions : ∀ field, (versions field).KeepsToLine := by
    intro field
    rw [versions, Decoder.keepsToLine_ofToken]
    intro token
    split
    · simp
    · simp
  have dirSource : dirSource.KeepsToLine := by simp [dirSource]
  have contact : contact.KeepsToLine := by simp [contact]
  have entry : entry.KeepsToLine := by simp [entry]
  have signature : signature.KeepsToLine := by simp [signature]
  simp [commonRules, version, voteStatus, votingDelay, versions, dirSource, contact, entry,
    signature]

theorem keepToLines_consensusRules : KeepToLines consensusRules := by
  have voteDigest : voteDigest.KeepsToLine := by simp [voteDigest]
  simp [consensusRules, keepToLines_commonRules, voteDigest]

theorem keepToLines_voteRules : KeepToLines voteRules := by
  have methods : consensusMethods.KeepsToLine := by simp [consensusMethods]
  simp [voteRules, keepToLines_commonRules, methods]

end NetworkStatus

namespace Registry

variable {grammar : Grammar}

/-- The decoders of the library refuse only the lines that they are given. -/
theorem keepToLines_of_mem_standard (member : grammar ∈ standard) :
    KeepToLines grammar.rules := by
  have all : ∀ grammar ∈ standard, KeepToLines grammar.rules := by
    simp [standard, NetworkStatus.grammars, Server.grammars, ExtraInfo.grammars,
      Microdescriptor.grammars, KeyCertificate.grammars, NetworkStatus.consensusGrammar,
      NetworkStatus.voteGrammar, Server.grammar, ExtraInfo.grammar,
      NetworkStatus.keepToLines_consensusRules, NetworkStatus.keepToLines_voteRules,
      Server.keepToLines_rules, ExtraInfo.keepToLines_rules, Microdescriptor.keepToLines_rules,
      KeyCertificate.keepToLines_rules]
  exact all grammar member

end Registry

end RelayDescriptor
