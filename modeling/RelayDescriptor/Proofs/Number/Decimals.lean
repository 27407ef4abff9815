import RelayDescriptor.Proofs.Json.Numbers
import RelayDescriptor.Proofs.Number.Underflow

/-!
# Written decimal numbers

Which texts write a decimal number, and which rational number each of them writes, told apart from
how texts are read.  Just these texts are read, and each as the exact number that it writes, however
many digits it has and whatever the size of its exponent.
-/

namespace RelayDescriptor

namespace Decimal

variable {text digits whole fraction suffix rest : Text} {number : ℚ} {power : Int}
  {negative : Bool} {d : Decimal}

/-- Digits, perhaps with a point before, among or behind them, and the number that they write. -/
inductive WritesMantissa : Text → ℚ → Prop
  | whole {digits : Text} (unsigned : Numeral.isUnsigned digits = true) :
      WritesMantissa digits (Numeral.value digits)
  | pointed {whole fraction : Text} (unsigned : Numeral.isUnsigned (whole ++ fraction) = true) :
      WritesMantissa (whole ++ '.' :: fraction)
        (Numeral.value whole + Numeral.value fraction / 10 ^ fraction.length)

/-- An exponent of ten, which may be absent and may have a sign. -/
inductive WritesExponent : Text → Int → Prop
  | absent : WritesExponent [] 0
  | plain {letter : Char} {digits : Text} (letter_mem : letter = 'e' ∨ letter = 'E')
      (unsigned : Numeral.isUnsigned digits = true) :
      WritesExponent (letter :: digits) (Numeral.value digits)
  | plus {letter : Char} {digits : Text} (letter_mem : letter = 'e' ∨ letter = 'E')
      (unsigned : Numeral.isUnsigned digits = true) :
      WritesExponent (letter :: '+' :: digits) (Numeral.value digits)
  | minus {letter : Char} {digits : Text} (letter_mem : letter = 'e' ∨ letter = 'E')
      (unsigned : Numeral.isUnsigned digits = true) :
      WritesExponent (letter :: '-' :: digits) (-Numeral.value digits)

/-- A decimal number without a sign. -/
inductive WritesMagnitude : Text → ℚ → Prop
  | parts {mantissa suffix : Text} {number : ℚ} {power : Int}
      (writesMantissa : WritesMantissa mantissa number)
      (writesExponent : WritesExponent suffix power) :
      WritesMagnitude (mantissa ++ suffix) (number * 10 ^ power)

/-- A decimal number, perhaps with a minus sign. -/
inductive Writes : Text → ℚ → Prop
  | unsigned {text : Text} {number : ℚ} (magnitude : WritesMagnitude text number) :
      Writes text number
  | negative {text : Text} {number : ℚ} (magnitude : WritesMagnitude text number) :
      Writes ('-' :: text) (-number)

/-! ## Exponents -/

theorem exponent?_of_isUnsigned (unsigned : Numeral.isUnsigned digits = true) :
    exponent? digits = some (Numeral.value digits : Int) := by
  rw [exponent?.eq_def]
  split
  next => cases unsigned
  next => cases unsigned
  next => exact if_pos unsigned

theorem writesExponent_of_exponent? {letter : Char} (letter_mem : letter = 'e' ∨ letter = 'E')
    (read : exponent? text = some power) : WritesExponent (letter :: text) power := by
  rw [exponent?.eq_def] at read
  split at read
  next digits =>
    split at read
    next unsigned =>
      cases read
      exact .minus letter_mem unsigned
    next => cases read
  next digits =>
    split at read
    next unsigned =>
      cases read
      exact .plus letter_mem unsigned
    next => cases read
  next =>
    split at read
    next unsigned =>
      cases read
      exact .plain letter_mem unsigned
    next => cases read

theorem suffix?_eq_some_iff : suffix? suffix = some power ↔ WritesExponent suffix power := by
  constructor
  · intro read
    rw [suffix?.eq_def] at read
    split at read
    next =>
      cases read
      exact .absent
    next letter text =>
      split at read
      next letter_mem => exact writesExponent_of_exponent? letter_mem read
      next => cases read
  · intro written
    cases written with
    | absent => rfl
    | plain letter_mem unsigned =>
        exact (if_pos letter_mem).trans (exponent?_of_isUnsigned unsigned)
    | plus letter_mem unsigned => exact (if_pos letter_mem).trans (if_pos unsigned)
    | minus letter_mem unsigned => exact (if_pos letter_mem).trans (if_pos unsigned)

/-- What begins an exponent is neither a digit nor a point. -/
theorem WritesExponent.head? (written : WritesExponent suffix power) :
    suffix.head? = none ∨ suffix.head? = some 'e' ∨ suffix.head? = some 'E' := by
  cases written with
  | absent => exact .inl rfl
  | plain letter_mem | plus letter_mem | minus letter_mem =>
      exact .inr (letter_mem.imp (congrArg some) (congrArg some))

/-! ## Mantissas -/

theorem span_digits (all : ∀ c ∈ digits, c.isDigit = true)
    (stops : rest.head?.all (!·.isDigit) = true) :
    (digits ++ rest).takeWhile Char.isDigit = digits ∧
      (digits ++ rest).dropWhile Char.isDigit = rest := by
  rw [List.takeWhile_append_of_pos all, List.dropWhile_append_of_pos all]
  cases rest with
  | nil => simp
  | cons c rest =>
      have noDigit : c.isDigit = false := by simpa using stops
      simp [noDigit]

theorem WritesExponent.stops (written : WritesExponent suffix power) :
    suffix.head?.all (!·.isDigit) = true := by
  rcases written.head? with none | small | capital
  · rw [none]
    rfl
  · rw [small]
    rfl
  · rw [capital]
    rfl

theorem magnitude?_whole (unsigned : Numeral.isUnsigned digits = true)
    (written : WritesExponent suffix power) :
    magnitude? negative (digits ++ suffix) = some ⟨negative, Numeral.value digits, power⟩ := by
  obtain ⟨nonempty, all⟩ := Numeral.isUnsigned_iff.mp unsigned
  obtain ⟨taken, left⟩ := span_digits all written.stops
  rw [magnitude?, taken, left]
  dsimp only
  split
  next =>
    have first := written.head?
    simp at first
  next =>
    rw [List.isEmpty_eq_false_iff.mpr nonempty, suffix?_eq_some_iff.mpr written]
    rfl

theorem magnitude?_pointed (unsigned : Numeral.isUnsigned (whole ++ fraction) = true)
    (written : WritesExponent suffix power) :
    magnitude? negative (whole ++ '.' :: (fraction ++ suffix)) =
      some ⟨negative, Numeral.value (whole ++ fraction), power - fraction.length⟩ := by
  obtain ⟨nonempty, all⟩ := Numeral.isUnsigned_iff.mp unsigned
  obtain ⟨wholes, fractions⟩ := List.forall_mem_append.mp all
  have point : ('.' :: (fraction ++ suffix)).head?.all (!·.isDigit) = true := rfl
  obtain ⟨taken, left⟩ := span_digits wholes point
  obtain ⟨others, ending⟩ := span_digits fractions written.stops
  have either : (whole.isEmpty && fraction.isEmpty) = false := by
    cases whole with
    | nil => exact List.isEmpty_eq_false_iff.mpr nonempty
    | cons c whole => rfl
  rw [magnitude?, taken, left]
  dsimp only
  split
  next tail same =>
    obtain rfl := List.tail_eq_of_cons_eq same
    rw [others, ending, either, suffix?_eq_some_iff.mpr written]
    rfl
  next other => exact absurd rfl (other _)

theorem value_append (whole fraction : Text) :
    Numeral.value (whole ++ fraction) =
      Numeral.value whole * 10 ^ fraction.length + Numeral.value fraction := by
  rw [Numeral.value, Numeral.valueFrom_append, Numeral.valueFrom_eq]
  rfl

theorem magnitude_pointed (whole fraction : Text) (power : Int) :
    magnitude ⟨negative, Numeral.value (whole ++ fraction), power - fraction.length⟩ =
      (Numeral.value whole + Numeral.value fraction / 10 ^ fraction.length) * 10 ^ power := by
  have size : (10 : ℚ) ^ fraction.length ≠ 0 := by positivity
  rw [magnitude, value_append, zpow_sub₀ (by norm_num), zpow_natCast]
  push_cast
  field_simp

/-! ## Numbers -/

theorem exists_magnitude? (negative : Bool) (written : WritesMagnitude text number) :
    ∃ d, magnitude? negative text = some d ∧ d.negative = negative ∧ d.magnitude = number := by
  cases written with
  | parts writesMantissa writesExponent =>
      cases writesMantissa with
      | whole unsigned => exact ⟨_, magnitude?_whole unsigned writesExponent, rfl, rfl⟩
      | pointed unsigned =>
          rw [List.append_assoc]
          exact ⟨_, magnitude?_pointed unsigned writesExponent, rfl, magnitude_pointed _ _ _⟩

theorem writesMagnitude_of_magnitude? (read : magnitude? negative text = some d) :
    WritesMagnitude text d.magnitude ∧ d.negative = negative := by
  have split := List.takeWhile_append_dropWhile (p := Char.isDigit) (l := text)
  have wholes : ∀ c ∈ text.takeWhile Char.isDigit, c.isDigit = true :=
    fun c member => List.mem_takeWhile_imp member
  rw [magnitude?] at read
  dsimp only at read
  split at read
  next rest left =>
    split at read
    next => cases read
    next nonempty =>
      obtain ⟨power, written, rfl⟩ := Option.map_eq_some_iff.mp read
      refine ⟨?_, rfl⟩
      have fractions : ∀ c ∈ rest.takeWhile Char.isDigit, c.isDigit = true :=
        fun c member => List.mem_takeWhile_imp member
      have unsigned : Numeral.isUnsigned
          (text.takeWhile Char.isDigit ++ rest.takeWhile Char.isDigit) = true := by
        apply Numeral.isUnsigned_iff.mpr
        exact ⟨by simpa using nonempty, List.forall_mem_append.mpr ⟨wholes, fractions⟩⟩
      have parts := WritesMagnitude.parts (.pointed unsigned) (suffix?_eq_some_iff.mp written)
      rw [magnitude_pointed]
      rwa [List.append_assoc, List.cons_append, List.takeWhile_append_dropWhile, ← left,
        split] at parts
  next =>
    split at read
    next => cases read
    next nonempty =>
      obtain ⟨power, written, rfl⟩ := Option.map_eq_some_iff.mp read
      refine ⟨?_, rfl⟩
      have unsigned : Numeral.isUnsigned (text.takeWhile Char.isDigit) = true := by
        apply Numeral.isUnsigned_iff.mpr
        exact ⟨by simpa using nonempty, wholes⟩
      have parts := WritesMagnitude.parts (.whole unsigned) (suffix?_eq_some_iff.mp written)
      rwa [split] at parts

/-- A text is read exactly if it writes a number, and it is read as that number. -/
theorem writes_iff : Writes text number ↔ ∃ d, ofText? text = some d ∧ d.value = number := by
  constructor
  · intro written
    cases written with
    | unsigned magnitude =>
        obtain ⟨d, read, sign, same⟩ := exists_magnitude? false magnitude
        refine ⟨d, ?_, by rw [value, sign, ← same]; rfl⟩
        rw [ofText?.eq_def]
        split
        next => cases read
        next => exact read
    | negative magnitude =>
        obtain ⟨d, read, sign, same⟩ := exists_magnitude? true magnitude
        exact ⟨d, read, by rw [value, sign, ← same]; rfl⟩
  · intro found
    obtain ⟨d, read, rfl⟩ := found
    rw [ofText?.eq_def] at read
    split at read
    next =>
      obtain ⟨magnitude, sign⟩ := writesMagnitude_of_magnitude? read
      rw [value, sign]
      exact .negative magnitude
    next =>
      obtain ⟨magnitude, sign⟩ := writesMagnitude_of_magnitude? read
      rw [value, sign]
      exact .unsigned magnitude

end Decimal

end RelayDescriptor
