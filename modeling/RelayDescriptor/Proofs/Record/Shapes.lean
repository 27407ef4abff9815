import RelayDescriptor.Proofs.Field.Readers
import RelayDescriptor.Proofs.Field.Sections
import RelayDescriptor.Proofs.Record.Writes

/-!
# Shapes of field values

Every field is declared to have values of some shape.  A decoder of the library gives a
value to each of its fields, and each value has the declared shape.
-/

namespace RelayDescriptor

namespace Token

variable {token : Token} {count : Nat}

theorem length_of_expectExactly (counted : token.expectExactly count = .ok ()) :
    token.arguments.length = count := by
  rw [expectExactly] at counted
  split at counted
  next same => exact same
  next => cases counted

theorem le_length_of_expectAtLeast (counted : token.expectAtLeast count = .ok ()) :
    count ≤ token.arguments.length := by
  rw [expectAtLeast] at counted
  split at counted
  next enough => exact enough
  next => cases counted

end Token

/-- What the values of a field look like. -/
inductive Shape where
  /-- Set, in a field that is only ever set. -/
  | mark
  | flag
  | integer (bounds : Bounds)
  | real
  | text
  /-- A text that is prescribed. -/
  | word (value : Text)
  | optionalText
  | nickname
  | address
  | digest (length : Int)
  | counts
  | interval
  | history
  | entry
  /-- A line of an authority section, which may give the digest of a vote. -/
  | authorityLine (voteDigests : Bool)
  /-- A list with a least number of elements. -/
  | list (least : Nat) (element : Shape)
  deriving Repr, DecidableEq

namespace Shape

/-- A value has a shape. -/
inductive Holds : Shape → Value → Prop
  | mark : Holds .mark (.flag true)
  | flag (value : Bool) : Holds .flag (.flag value)
  | integer {bounds : Bounds} {value : Int} (admitted : bounds.Admits value) :
      Holds (.integer bounds) (.integer value)
  | real (value : Binary64) : Holds .real (.real value)
  | text (value : Text) : Holds .text (.text value)
  | word (value : Text) : Holds (.word value) (.text value)
  | noText : Holds .optionalText .absent
  | someText (value : Text) : Holds .optionalText (.text value)
  | nickname {value : Text} (shape : IsNickname value) : Holds .nickname (.text value)
  | address {value : Text} (shape : IsDottedQuad value) : Holds .address (.text value)
  | digest {length : Int} {value : Text} (shape : IsUpperHex length value) :
      Holds (.digest length) (.text value)
  | counts (value : OrderedMap Text Int) : Holds .counts (.counts value)
  | interval (value : StatsInterval) : Holds .interval (.interval value)
  | history (value : BandwidthHistory) : Holds .history (.history value)
  | entry (value : StatusEntry) : Holds .entry (.entry value)
  | authorityLine {voteDigests : Bool} {line : AuthorityLine}
      (bare : line.IsBare) (plain : voteDigests = false → line.voteDigest? = none) :
      Holds (.authorityLine voteDigests) (.authorityLine line)
  | row {least : Nat} {element : Shape} {values : List Value} (enough : least ≤ values.length)
      (elements : ∀ value ∈ values, Holds element value) :
      Holds (.list least element) (.row values)
  | list {least : Nat} {element : Shape} {values : List Value} (enough : least ≤ values.length)
      (elements : ∀ value ∈ values, Holds element value) :
      Holds (.list least element) (.list values)

theorem holds_texts {least : Nat} {texts : List Text} (enough : least ≤ texts.length) :
    (list least text).Holds (Value.texts texts) := by
  apply Holds.row
  · rw [List.length_map]
    exact enough
  · intro value member
    obtain ⟨text, _, rfl⟩ := List.mem_map.mp member
    exact .text text

theorem holds_of_mem_map_integer {bounds : Bounds} {numbers : List Int}
    (admitted : ∀ n ∈ numbers, bounds.Admits n) :
    ∀ value ∈ numbers.map Value.integer, (integer bounds).Holds value := by
  intro value member
  obtain ⟨n, inside, rfl⟩ := List.mem_map.mp member
  exact .integer (admitted n inside)

theorem holds_reals (reals : List Binary64) : (list 0 real).Holds (Value.reals reals) := by
  apply Holds.list (Nat.zero_le _)
  intro value member
  obtain ⟨real, _, rfl⟩ := List.mem_map.mp member
  exact .real real

theorem holds_ofText? (text : Option Text) : optionalText.Holds (Value.ofText? text) := by
  cases text with
  | none => exact .noText
  | some text => exact .someText text

theorem holds_unbounded (n : Int) : (integer .none).Holds (.integer n) :=
  .integer (Bounds.none_admits n)

end Shape

/-- The shapes that fields are declared to have. -/
abbrev Shapes := OrderedMap String Shape

/-- A value has the shape that a field is declared to have. -/
def Shapes.Permit (shapes : Shapes) (field : String) (value : Value) : Prop :=
  ∃ shape, OrderedMap.find? field shapes = some shape ∧ shape.Holds value

namespace Decoder

variable {shapes : Shapes} {field : String} {shape : Shape} {decoder : Decoder}

/-- A line that is read gives each field a value of its shape. -/
def Fits (shapes : Shapes) (decoder : Decoder) : Prop :=
  ∀ token values, decoder.values token = .ok values →
    List.Forall₂ shapes.Permit decoder.fields values

theorem Fits.isComplete (fits : decoder.Fits shapes) (uniform : decoder.IsUniform) :
    decoder.IsComplete :=
  ⟨uniform, fun token values read => (fits token values read).length_eq.symm⟩

theorem fits_ofToken {read : Token → Except Fault Value}
    (declared : OrderedMap.find? field shapes = some shape)
    (each : ∀ token value, read token = .ok value → shape.Holds value) :
    (ofToken field read).Fits shapes := by
  intro token values decoded
  obtain ⟨value, found, rfl⟩ := map_eq_ok_iff.mp decoded
  exact .cons ⟨shape, declared, each token value found⟩ .nil

theorem fits_ofArgument {read : Text → Text → Except Fault Value}
    (declared : OrderedMap.find? field shapes = some shape)
    (each : ∀ line argument value, read line argument = .ok value → shape.Holds value) :
    (ofArgument field read).Fits shapes := by
  apply fits_ofToken declared
  intro token value decoded
  obtain ⟨_, _, found⟩ := bind_eq_ok_iff.mp decoded
  exact each token.line (token.argument 0) value found

@[simp] theorem fits_timestamp
    (declared : OrderedMap.find? field shapes = some (.integer .none)) :
    (timestamp field).Fits shapes := by
  apply fits_ofToken declared
  intro token value decoded
  obtain ⟨_, _, decoded⟩ := bind_eq_ok_iff.mp decoded
  obtain ⟨moment, _, decoded⟩ := bind_eq_ok_iff.mp decoded
  cases decoded
  exact Shape.holds_unbounded moment

@[simp] theorem fits_hexDigest {length : Int}
    (declared : OrderedMap.find? field shapes = some (.digest length)) :
    (hexDigest field length).Fits shapes := by
  apply fits_ofArgument declared
  intro line argument value decoded
  obtain ⟨digest, read, rfl⟩ := map_eq_ok_iff.mp decoded
  exact .digest (isUpperHex_of_hexDigest read)

@[simp] theorem fits_integer {bounds : Bounds}
    (declared : OrderedMap.find? field shapes = some (.integer bounds)) :
    (integer field bounds).Fits shapes := by
  apply fits_ofArgument declared
  intro line argument value decoded
  obtain ⟨n, read, rfl⟩ := map_eq_ok_iff.mp decoded
  exact .integer (admits_of_integer read)

@[simp] theorem fits_single (declared : OrderedMap.find? field shapes = some .text) :
    (single field).Fits shapes := by
  apply fits_ofArgument declared
  intro line argument value decoded
  cases decoded
  exact .text argument

@[simp] theorem fits_text (declared : OrderedMap.find? field shapes = some .text) :
    (text field).Fits shapes := by
  apply fits_ofToken declared
  intro token value decoded
  cases decoded
  exact .text token.rest

@[simp] theorem fits_arguments
    (declared : OrderedMap.find? field shapes = some (.list 0 .text)) :
    (arguments field).Fits shapes := by
  apply fits_ofToken declared
  intro token value decoded
  cases decoded
  exact Shape.holds_texts (Nat.zero_le _)

@[simp] theorem fits_share (declared : OrderedMap.find? field shapes = some .real) :
    (share field).Fits shapes := by
  apply fits_ofToken declared
  intro token value decoded
  obtain ⟨number, _, rfl⟩ := map_eq_ok_iff.mp decoded
  exact .real number

@[simp] theorem fits_keyValues {keyLength : Int}
    (declared : OrderedMap.find? field shapes = some .counts) :
    (keyValues field keyLength).Fits shapes := by
  apply fits_ofToken declared
  intro token value decoded
  obtain ⟨counts, _, rfl⟩ := map_eq_ok_iff.mp decoded
  exact .counts counts

@[simp] theorem fits_spacedKeyValues
    (declared : OrderedMap.find? field shapes = some .counts) :
    (spacedKeyValues field).Fits shapes := by
  apply fits_ofToken declared
  intro token value decoded
  obtain ⟨counts, _, rfl⟩ := map_eq_ok_iff.mp decoded
  exact .counts counts

@[simp] theorem fits_integers
    (declared : OrderedMap.find? field shapes = some (.list 0 (.integer .none))) :
    (integers field).Fits shapes := by
  apply fits_ofToken declared
  intro token value decoded
  obtain ⟨numbers, _, rfl⟩ := map_eq_ok_iff.mp decoded
  exact .list (Nat.zero_le _) (Shape.holds_of_mem_map_integer fun n _ => Bounds.none_admits n)

@[simp] theorem fits_decimals
    (declared : OrderedMap.find? field shapes = some (.list 0 .real)) :
    (decimals field).Fits shapes := by
  apply fits_ofToken declared
  intro token value decoded
  obtain ⟨reals, _, rfl⟩ := map_eq_ok_iff.mp decoded
  exact Shape.holds_reals reals

@[simp] theorem fits_statsEnd (declared : OrderedMap.find? field shapes = some .interval) :
    (statsEnd field).Fits shapes := by
  apply fits_ofToken declared
  intro token value decoded
  obtain ⟨interval, _, rfl⟩ := map_eq_ok_iff.mp decoded
  exact .interval interval

@[simp] theorem fits_history (declared : OrderedMap.find? field shapes = some .history) :
    (history field).Fits shapes := by
  apply fits_ofToken declared
  intro token value decoded
  obtain ⟨history, _, rfl⟩ := map_eq_ok_iff.mp decoded
  exact .history history

@[simp] theorem fits_mark (declared : OrderedMap.find? field shapes = some .mark) :
    (mark field).Fits shapes := by
  apply fits_ofToken declared
  intro token value decoded
  cases decoded
  exact .mark

@[simp] theorem fits_bare (declared : OrderedMap.find? field shapes = some .mark) :
    (bare field).Fits shapes := by
  apply fits_ofToken declared
  intro token value decoded
  obtain ⟨_, _, decoded⟩ := bind_eq_ok_iff.mp decoded
  cases decoded
  exact .mark

@[simp] theorem fits_nothing : nothing.Fits shapes := by
  intro token values decoded
  obtain ⟨_, _, decoded⟩ := bind_eq_ok_iff.mp decoded
  cases decoded
  exact .nil

end Decoder

end RelayDescriptor
