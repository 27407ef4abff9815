import RelayDescriptor.Field.Scalar
import RelayDescriptor.Proofs.Reading.Steps

/-!
# What the readers of single values let through

A value that is read has the shape that its reader asks for.  An address is then the
decimal form of four numbers, and a digest is spelled in capitals.
-/

namespace RelayDescriptor

variable {line argument text : Text} {c : Char}

/-- A capital hexadecimal digit. -/
def IsUpperHexDigit (c : Char) : Prop := c.isDigit = true ∨ 'A' ≤ c ∧ c ≤ 'F'

instance (c : Char) : Decidable (IsUpperHexDigit c) :=
  inferInstanceAs (Decidable (c.isDigit = true ∨ 'A' ≤ c ∧ c ≤ 'F'))

/-- A digest with a number of capital hexadecimal digits. -/
structure IsUpperHex (length : Int) (text : Text) : Prop where
  length : (text.length : Int) = length
  digits : ∀ c ∈ text, IsUpperHexDigit c

/-- One to nineteen ASCII letters and digits. -/
structure IsNickname (text : Text) : Prop where
  least : 1 ≤ text.length
  most : text.length ≤ 19
  letters : ∀ c ∈ text, c.isAlphanum = true

/-- The decimal forms of four numbers up to 255 with points between them. -/
def IsDottedQuad (text : Text) : Prop :=
  ∃ octets : List Nat, octets.length = 4 ∧ (∀ octet ∈ octets, octet ≤ 255) ∧
    text = Text.joinWith ['.'] (octets.map (Nat.toDigits 10))

theorem isUpperHexDigit_toUpper (hex : isHexDigit c = true) : IsUpperHexDigit c.toUpper := by
  have table : ∀ code < 103, isHexDigit (Char.ofNat code) = true →
      IsUpperHexDigit (Char.ofNat code).toUpper := by decide
  have small : c.toNat < 103 := by
    simp only [isHexDigit, Char.isDigit_iff_toNat, Bool.or_eq_true, Bool.and_eq_true,
      decide_eq_true_eq, Char.le_def, UInt32.le_iff_toNat_le] at hex
    change (48 ≤ c.toNat ∧ c.toNat ≤ 57 ∨ 97 ≤ c.toNat ∧ c.toNat ≤ 102) ∨
      65 ≤ c.toNat ∧ c.toNat ≤ 70 at hex
    omega
  have here := table c.toNat small
  rw [Char.ofNat_toNat] at here
  exact here hex

theorem eq_of_hexDigest {length : Int} (read : hexDigest length line argument = .ok text) :
    text = argument.map Char.toUpper := by
  rw [hexDigest] at read
  split at read
  next =>
    cases read
    rfl
  next => cases read

theorem isUpperHex_of_hexDigest {length : Int} (read : hexDigest length line argument = .ok text) :
    IsUpperHex length text := by
  rw [hexDigest] at read
  split at read
  next accepted =>
    obtain ⟨long, _, hex⟩ := accepted
    cases read
    constructor
    · rw [List.length_map]
      exact long
    · intro c member
      obtain ⟨digit, inside, rfl⟩ := List.mem_map.mp member
      exact isUpperHexDigit_toUpper (List.all_eq_true.mp hex digit inside)
  next => cases read

theorem isNickname_of_nickname (read : nickname line argument = .ok text) : IsNickname text := by
  rw [nickname] at read
  split at read
  next accepted =>
    cases read
    simp only [isNickname, Bool.and_eq_true, decide_eq_true_eq, List.all_eq_true] at accepted
    exact ⟨accepted.1.1, accepted.1.2, accepted.2⟩
  next => cases read

namespace Numeral

variable {digits : Text}

theorem digitValue_lt (digit : c.isDigit = true) : digitValue c < 10 := by
  have bounds : 48 ≤ c.toNat ∧ c.toNat ≤ 57 := Char.isDigit_iff_toNat.mp digit
  rw [digitValue]
  omega

theorem digitValue_eq_zero (digit : c.isDigit = true) (zero : digitValue c = 0) : c = '0' := by
  have bounds : 48 ≤ c.toNat ∧ c.toNat ≤ 57 := Char.isDigit_iff_toNat.mp digit
  rw [digitValue] at zero
  apply Char.toNat_inj.mp
  show c.toNat = 48
  omega

theorem toDigits_digitValue (digit : c.isDigit = true) :
    Nat.toDigits 10 (digitValue c) = [c] := by
  have bounds : 48 ≤ c.toNat ∧ c.toNat ≤ 57 := Char.isDigit_iff_toNat.mp digit
  rw [Nat.toDigits_of_lt_base (digitValue_lt digit)]
  congr 1
  apply Char.toNat_inj.mp
  rw [Nat.toNat_digitChar_of_lt_ten (digitValue_lt digit), digitValue]
  omega

/-- Digits that are read after a positive number stand behind it. -/
theorem toDigits_valueFrom {n : Nat} (positive : 0 < n)
    (all : ∀ c ∈ digits, c.isDigit = true) :
    Nat.toDigits 10 (valueFrom n digits) = Nat.toDigits 10 n ++ digits := by
  induction digits generalizing n with
  | nil => simp [valueFrom]
  | cons c digits induction =>
      have here : c.isDigit = true := all c List.mem_cons_self
      have step : Nat.toDigits 10 (n * 10 + digitValue c) = Nat.toDigits 10 n ++ [c] := by
        rw [← toDigits_digitValue here, Nat.toDigits_append_toDigits (by omega) positive
          (digitValue_lt here), Nat.mul_comm]
      have later := induction (n := n * 10 + digitValue c) (by omega)
        fun d member => all d (List.mem_cons_of_mem c member)
      rw [show valueFrom n (c :: digits) = valueFrom (n * 10 + digitValue c) digits from rfl, later,
        step, List.append_assoc, List.singleton_append]

/-- A numeral without a leading zero is the decimal form of its value. -/
theorem toDigits_value (unsigned : isUnsigned digits = true)
    (leading : digits = ['0'] ∨ digits.head? ≠ some '0') :
    Nat.toDigits 10 (value digits) = digits := by
  simp only [isUnsigned, Bool.and_eq_true, Bool.not_eq_true', List.isEmpty_eq_false_iff,
    List.all_eq_true] at unsigned
  obtain ⟨nonempty, all⟩ := unsigned
  rcases leading with rfl | leading
  · rfl
  · obtain ⟨c, digits, rfl⟩ := List.exists_cons_of_ne_nil nonempty
    have here : c.isDigit = true := all c List.mem_cons_self
    have positive : 0 < digitValue c := by
      apply Nat.pos_of_ne_zero
      intro zero
      exact leading (congrArg some (digitValue_eq_zero here zero))
    have step : value (c :: digits) = valueFrom (digitValue c) digits := by
      simp [value, valueFrom]
    rw [step, toDigits_valueFrom positive fun d member => all d (List.mem_cons_of_mem c member),
      toDigits_digitValue here, List.singleton_append]

end Numeral

theorem isDottedQuad_of_address (read : address line argument = .ok text) : IsDottedQuad text := by
  rw [address] at read
  split at read
  next accepted =>
    cases read
    simp only [isAddress, Bool.and_eq_true, beq_iff_eq, List.all_eq_true] at accepted
    obtain ⟨four, octets⟩ := accepted
    refine ⟨(Text.pieces '.' argument).map Numeral.value, ?_, ?_, ?_⟩
    · rw [List.length_map]
      exact four
    · intro octet member
      obtain ⟨piece, inside, rfl⟩ := List.mem_map.mp member
      have isOctet := octets piece inside
      simp only [RelayDescriptor.isOctet, Bool.and_eq_true, decide_eq_true_eq] at isOctet
      exact isOctet.2
    · -- No piece has a leading zero, so each is the decimal form of its value.
      have decimal : ∀ piece ∈ Text.pieces '.' argument,
          Nat.toDigits 10 (Numeral.value piece) = piece := by
        intro piece inside
        have isOctet := octets piece inside
        simp only [RelayDescriptor.isOctet, Bool.and_eq_true, Bool.or_eq_true, beq_iff_eq,
          bne_iff_ne] at isOctet
        exact Numeral.toDigits_value isOctet.1.1.1 isOctet.1.2
      have same : ((Text.pieces '.' argument).map Numeral.value).map (Nat.toDigits 10) =
          Text.pieces '.' argument := by
        rw [List.map_map]
        exact (List.map_congr_left decimal).trans (List.map_id _)
      rw [same, Text.joinWith_pieces]
  next => cases read

namespace Bounds

/-- A number lies within bounds. -/
structure Admits (bounds : Bounds) (n : Int) : Prop where
  least : ∀ minimum, bounds.minimum = some minimum → minimum ≤ n
  most : ∀ maximum, bounds.maximum = some maximum → n ≤ maximum

theorem none_admits (n : Int) : none.Admits n := by
  constructor <;> simp [none]

theorem between_admits {minimum maximum n : Int} (least : minimum ≤ n) (most : n ≤ maximum) :
    (between minimum maximum).Admits n := by
  constructor
  · rintro _ ⟨⟩
    exact least
  · rintro _ ⟨⟩
    exact most

theorem admits_of_refusal? {bounds : Bounds} {n : Int} (accepted : bounds.refusal? n = .none) :
    bounds.Admits n := by
  obtain ⟨minimum, maximum⟩ := bounds
  have most : refusal?.above? n maximum = .none → ∀ m, maximum = some m → n ≤ m := by
    rintro accepted m rfl
    rw [refusal?.above?] at accepted
    split at accepted
    next => cases accepted
    next notAbove => exact Int.not_lt.mp notAbove
  cases minimum with
  | none => exact ⟨by simp, most accepted⟩
  | some least =>
      rw [refusal?] at accepted
      split at accepted
      next => cases accepted
      next notBelow => exact ⟨by simpa using notBelow, most accepted⟩

end Bounds

theorem admits_of_integer {bounds : Bounds} {n : Int}
    (read : integer bounds line argument = .ok n) : bounds.Admits n := by
  rw [integer] at read
  split at read
  next =>
    split at read
    next => cases read
    next =>
      split at read
      next => cases read
      next accepted =>
        cases read
        exact Bounds.admits_of_refusal? accepted
  next => cases read

end RelayDescriptor
