import RelayDescriptor.Number.Shortest
import RelayDescriptor.Proofs.Field.KeyCounts
import RelayDescriptor.Proofs.Json.Notation

/-!
# Written numbers

Whole numbers and finite floating-point numbers are written as JSON has it, wherever the point is
laid out.  Shortest digits do not begin with a zero, because no decimal number that is zero reads
back as a number that is not.
-/

namespace RelayDescriptor

/-- The number is neither infinite nor something that is no number. -/
def Binary64.IsFinite (number : Binary64) : Prop :=
  match number with
  | .finite .. => True
  | .infinite _ | .notANumber => False

namespace Numeral

theorem eq_zero_of_digitChar {n : Nat} (small : n < 10) (same : n.digitChar = '0') : n = 0 := by
  have code := Nat.toNat_digitChar_of_lt_ten small
  rw [same] at code
  change 48 = 48 + n at code
  omega

theorem head?_toDigits_ne {n : Nat} (positive : 0 < n) : (Nat.toDigits 10 n).head? ≠ some '0' := by
  induction n using Nat.strong_induction_on with
  | _ n induction =>
      by_cases small : n < 10
      · rw [Nat.toDigits_of_lt_base small, List.head?_cons, Ne, Option.some.injEq]
        intro same
        exact positive.ne' (eq_zero_of_digitChar small same)
      · have digits : Nat.toDigits 10 n = Nat.toDigits 10 (n / 10) ++ Nat.toDigits 10 (n % 10) := by
          rw [Nat.toDigits_append_toDigits (by omega) (by omega) (by omega), Nat.div_add_mod]
        rw [digits, List.head?_append_of_ne_nil _ Nat.toDigits_ne_nil]
        exact induction (n / 10) (by omega) (by omega)

theorem toList_toString (n : Int) : (toString n).toList = written n := by
  cases n with
  | ofNat n =>
      change (Nat.repr n).toList = _
      rw [Nat.repr, String.toList_ofList]
      rfl
  | negSucc n =>
      change ("-" ++ Nat.repr (n + 1)).toList = _
      rw [Nat.repr, String.toList_append, String.toList_ofList (l := Nat.toDigits 10 (n + 1))]
      rfl

theorem isUnsigned_iff {text : Text} :
    isUnsigned text = true ↔ text ≠ [] ∧ ∀ c ∈ text, c.isDigit = true := by
  rw [isUnsigned, Bool.and_eq_true, Bool.not_eq_true', List.isEmpty_eq_false_iff, List.all_eq_true]

end Numeral

namespace Json

variable {digits : Text} {point : Int} {style : NumberStyle}

theorem isWhole_zero : IsWhole ['0'] := ⟨rfl, .inl rfl⟩

theorem isFraction_zero : IsFraction ['.', '0'] := .present rfl

theorem isWhole_toDigits (n : Nat) : IsWhole (Nat.toDigits 10 n) := by
  refine ⟨Numeral.isUnsigned_toDigits n, ?_⟩
  rcases Nat.eq_zero_or_pos n with rfl | positive
  · exact .inl rfl
  · exact .inr (Numeral.head?_toDigits_ne positive)

/-- A whole number is written as a number. -/
theorem isNumber_toString (n : Int) : IsNumber (toString n).toList := by
  have isMagnitude (n : Nat) : IsMagnitude (Nat.toDigits 10 n) := by
    have alone := IsMagnitude.parts (isWhole_toDigits n) .absent .absent
    rwa [List.append_nil, List.append_nil] at alone
  rw [Numeral.toList_toString]
  cases n with
  | ofNat n => exact .unsigned (isMagnitude n)
  | negSucc n => exact .negative (isMagnitude (n + 1))

/-! ## Shortest digits -/

/-- Digits that can be laid out: without a zero in front, or a zero that the point follows. -/
structure IsSignificant (digits : Text) (point : Int) : Prop where
  unsigned : Numeral.isUnsigned digits = true
  leading : digits = ['0'] ∧ point = 1 ∨ digits.head? ≠ some '0'

theorem search_ne_zero {number : Binary64} (nonzero : number ≠ Binary64.zero false)
    {f : Shortest.Fraction} {leading power : Int} {counts : List Nat} {n : Nat}
    (found : Shortest.search number f leading counts = some (n, power)) : n ≠ 0 := by
  induction counts with
  | nil => cases found
  | cons count counts induction =>
      rw [Shortest.search] at found
      split at found
      next first others candidates =>
        cases found
        have among : n ∈ Shortest.candidates number f (leading - (count - 1 : Nat)) := by
          rw [candidates]
          exact List.mem_cons_self
        have reads := of_decide_eq_true (List.mem_filter.mp among).2
        rintro rfl
        exact nonzero reads.symm
      next => exact induction found

theorem exists_stripped {c : Char} (other : c ≠ '0') (rest : Text) :
    ∃ kept, ((c :: rest).reverse.dropWhile (· == '0')).reverse = c :: kept ∧ kept ⊆ rest := by
  have last : ([c] : Text).dropWhile (· == '0') = [c] := by simp [other]
  rw [List.reverse_cons, List.dropWhile_append, last]
  split
  · exact ⟨[], rfl, List.nil_subset rest⟩
  · refine ⟨(rest.reverse.dropWhile (· == '0')).reverse, by simp, ?_⟩
    intro d member
    exact List.mem_reverse.mp
      ((List.dropWhile_sublist _).subset (List.mem_reverse.mp member))

theorem isSignificant_digits {mantissa : Nat} (positive : mantissa ≠ 0) (exponent : Int) :
    IsSignificant (Shortest.digits mantissa exponent).1 (Shortest.digits mantissa exponent).2 := by
  rw [Shortest.digits]
  dsimp only
  split
  next => exact ⟨rfl, .inl ⟨rfl, rfl⟩⟩
  next n power found =>
    have nonzero : Binary64.finite false mantissa exponent ≠ Binary64.zero false := by
      intro same
      exact positive (by injection same)
    have leading := Numeral.head?_toDigits_ne (Nat.pos_of_ne_zero (search_ne_zero nonzero found))
    obtain ⟨nonempty, all⟩ := Numeral.isUnsigned_iff.mp (Numeral.isUnsigned_toDigits n)
    obtain ⟨c, rest, written⟩ := List.exists_cons_of_ne_nil nonempty
    rw [written, List.head?_cons, Ne, Option.some.injEq] at leading
    obtain ⟨kept, same, among⟩ := exists_stripped leading rest
    rw [written] at all ⊢
    rw [same]
    refine ⟨Numeral.isUnsigned_iff.mpr ⟨List.cons_ne_nil c kept, ?_⟩, .inr (by simpa using leading)⟩
    intro d member
    exact all d (List.cons_subset_cons c among member)

/-! ## Layout -/

theorem isDigit_of_mem_zeros {n : Nat} : ∀ c ∈ List.replicate n '0', c.isDigit = true := by
  intro c member
  rw [List.eq_of_mem_replicate member]
  rfl

theorem isUnsigned_zeros_append (n : Nat) (unsigned : Numeral.isUnsigned digits = true) :
    Numeral.isUnsigned (List.replicate n '0' ++ digits) = true := by
  rw [Numeral.isUnsigned_iff] at unsigned ⊢
  exact ⟨List.append_ne_nil_of_right_ne_nil _ unsigned.1,
    List.forall_mem_append.mpr ⟨isDigit_of_mem_zeros, unsigned.2⟩⟩

theorem isExponent_exponent (style : NumberStyle) (power : Int) :
    IsExponent ('e' :: style.exponent power) := by
  have digits := isUnsigned_zeros_append
    (style.exponentWidth - (Nat.toDigits 10 power.natAbs).length)
    (Numeral.isUnsigned_toDigits power.natAbs)
  rw [NumberStyle.exponent]
  split
  · exact @IsExponent.present 'e' ['-'] _ (by decide) (by decide) digits
  · exact @IsExponent.present 'e' ['+'] _ (by decide) (by decide) digits

namespace IsSignificant

variable (significant : IsSignificant digits point)

include significant

theorem isUnsigned_of_subset {piece : Text} (nonempty : piece ≠ []) (among : piece ⊆ digits) :
    Numeral.isUnsigned piece = true :=
  Numeral.isUnsigned_iff.mpr ⟨nonempty, fun c member =>
    (Numeral.isUnsigned_iff.mp significant.unsigned).2 c (among member)⟩

/-- The first digits are the whole part of a number. -/
theorem isWhole_take {count : Nat} (positive : count ≠ 0) : IsWhole (digits.take count) := by
  have nonempty := (Numeral.isUnsigned_iff.mp significant.unsigned).1
  refine ⟨significant.isUnsigned_of_subset ?_ (List.take_subset count digits), ?_⟩
  · simp [positive, nonempty]
  · rcases significant.leading with ⟨rfl, _⟩ | leading
    · exact .inl (List.take_of_length_le (Nat.one_le_iff_ne_zero.mpr positive))
    · right
      rwa [List.head?_take, if_neg positive]

/-- All digits with zeros behind them up to the point are the whole part of a number. -/
theorem isWhole_append_zeros :
    IsWhole (digits ++ List.replicate (point.toNat - digits.length) '0') := by
  obtain ⟨nonempty, all⟩ := Numeral.isUnsigned_iff.mp significant.unsigned
  refine ⟨Numeral.isUnsigned_iff.mpr ⟨List.append_ne_nil_of_left_ne_nil nonempty _,
    List.forall_mem_append.mpr ⟨all, isDigit_of_mem_zeros⟩⟩, ?_⟩
  rcases significant.leading with ⟨rfl, rfl⟩ | leading
  · exact .inl rfl
  · right
    rwa [List.head?_append_of_ne_nil _ nonempty]

/-- Wherever the point is, digits are laid out as a number. -/
theorem isMagnitude_layout (style : NumberStyle) : IsMagnitude (style.layout digits point) := by
  rw [NumberStyle.layout]
  split
  · split
    next =>
      have fraction := isUnsigned_zeros_append (-point).toNat significant.unsigned
      simpa using IsMagnitude.parts isWhole_zero (.present fraction) .absent
    next positive =>
      split
      next =>
        simpa using IsMagnitude.parts significant.isWhole_append_zeros isFraction_zero .absent
      next within =>
        have whole := significant.isWhole_take (by omega : point.toNat ≠ 0)
        have rest : Numeral.isUnsigned (digits.drop point.toNat) = true :=
          significant.isUnsigned_of_subset (by simpa using within) (List.drop_subset _ digits)
        simpa using IsMagnitude.parts whole (.present rest) .absent
  · rw [List.append_assoc]
    refine .parts (significant.isWhole_take Nat.one_ne_zero) ?_ (isExponent_exponent style _)
    split
    next => exact .absent
    next nonempty =>
      exact .present (significant.isUnsigned_of_subset nonempty (List.drop_subset 1 digits))

end IsSignificant

/-! ## Floating-point numbers -/

/-- A finite number is written as a number. -/
theorem isNumber_text (style : NumberStyle) {number : Binary64} (isFinite : number.IsFinite) :
    IsNumber (style.text number) := by
  obtain ⟨negative, mantissa, exponent⟩ | _ | _ := number
  · have unsigned : IsMagnitude (if mantissa = 0 then ['0', '.', '0'] else
        style.layout (Shortest.digits mantissa exponent).1
          (Shortest.digits mantissa exponent).2) := by
      split
      next => exact .parts isWhole_zero isFraction_zero .absent
      next positive => exact (isSignificant_digits positive exponent).isMagnitude_layout style
    rw [NumberStyle.text]
    split
    · exact .negative unsigned
    · exact .unsigned unsigned
  · cases isFinite
  · cases isFinite

end Json

end RelayDescriptor
