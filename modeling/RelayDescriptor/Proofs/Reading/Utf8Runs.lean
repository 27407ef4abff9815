import RelayDescriptor.Proofs.Reading.Runs

/-!
# Digits of decoded bytes

The digits of a decoded text are the bytes of the same digits: a sequence of several
bytes never stands for an ASCII character, nor does the replacement character.  A run
of digits in the text is therefore a run of as many digits in the bytes.
-/

namespace RelayDescriptor

namespace Utf8

/-- Whether a byte is an ASCII digit. -/
def isDigitByte (b : UInt8) : Bool := 0x30 ≤ b && b ≤ 0x39

variable {b : UInt8} {bytes : List UInt8} {pending next : Pending} {code count : Nat}
  {run : Text}

theorem bounds_of_isDigit_ofNat (digit : (Char.ofNat code).isDigit = true) :
    0x30 ≤ code ∧ code ≤ 0x39 := by
  simp only [Char.isDigit, Bool.and_eq_true, decide_eq_true_eq, ge_iff_le,
    UInt32.le_iff_toNat_le] at digit
  by_cases valid : code.isValidChar
  · have size : (Char.ofNat code).val.toNat = code := by
      rw [Char.ofNat, dif_pos valid]
      rfl
    rw [size] at digit
    exact digit
  · have zero : Char.ofNat code = Char.ofNat 0 := by
      rw [Char.ofNat, dif_neg valid]
      rfl
    rw [zero] at digit
    exact absurd digit (by decide)

/-- The sequence cannot stand for an ASCII character, whichever of the awaited bytes follow. -/
def Pending.IsBeyondAscii (pending : Pending) : Prop :=
  0x80 ≤ pending.low.toNat ∧
    if pending.missing ≤ 1 then 0x80 ≤ pending.code * 64 + (pending.low.toNat - 0x80)
    else 2 ≤ pending.code * 64 + (pending.low.toNat - 0x80)

theorem isBeyondAscii_of_lead? (found : lead? b = some pending) : pending.IsBeyondAscii := by
  simp only [lead?, UInt8.le_iff_toNat_le, UInt8.reduceToNat] at found
  repeat' split at found
  all_goals try
    obtain rfl := Option.some.inj found
    simp only [Pending.IsBeyondAscii, UInt8.reduceToNat]
    simp
    try omega
  · cases found

/-- The states that reading from the beginning can reach. -/
def IsReached (state : Option Pending) : Prop := ∀ pending, state = some pending →
  pending.IsBeyondAscii

theorem isReached_start (b : UInt8) : IsReached (start b).2 := by
  intro pending same
  rw [start] at same
  split at same
  · cases same
  · split at same
    next found =>
      cases same
      exact isBeyondAscii_of_lead? found
    next => cases same

theorem isReached_step {state : Option Pending} (reached : IsReached state) (b : UInt8) :
    IsReached (step state b).2 := by
  cases state with
  | none => exact isReached_start b
  | some pending =>
      obtain ⟨low, beyond⟩ := reached pending rfl
      rw [step]
      split
      next within =>
        dsimp only
        split
        · intro next same
          cases same
        next more =>
          intro next same
          obtain rfl := Option.some.inj same
          rw [if_neg more] at beyond
          have least : pending.low.toNat ≤ b.toNat := within.1
          have grown : 2 ≤ pending.code * 64 + (b.toNat - 0x80) := by omega
          generalize pending.code * 64 + (b.toNat - 0x80) = code at grown
          simp only [Pending.IsBeyondAscii, UInt8.reduceToNat]
          constructor
          · omega
          split
          · omega
          · omega
      next => exact isReached_start b

/-- What a byte does between characters. -/
theorem start_cases (b : UInt8) :
    start b = ([Char.ofNat b.toNat], none) ∨ start b = ([replacement], none) ∨
      ∃ pending, start b = ([], some pending) := by
  rw [start]
  split
  · exact .inl rfl
  · cases lead? b with
    | none => exact .inr (.inl rfl)
    | some pending => exact .inr (.inr ⟨pending, rfl⟩)

/-- What a byte does within a sequence: it goes on, ends it with a character that is no digit, or
breaks it off. -/
theorem step_cases (beyond : pending.IsBeyondAscii) (b : UInt8) :
    (∃ next, step (some pending) b = ([], some next)) ∨
      (∃ c : Char, c.isDigit = false ∧ step (some pending) b = ([c], none)) ∨
      step (some pending) b = (replacement :: (start b).1, (start b).2) := by
  obtain ⟨low, beyond⟩ := beyond
  rw [step]
  split
  next within =>
    dsimp only
    split
    next last =>
      refine .inr (.inl ⟨_, ?_, rfl⟩)
      rw [if_pos last] at beyond
      have least : pending.low.toNat ≤ b.toNat := within.1
      rw [Bool.eq_false_iff]
      intro digit
      have bounds := bounds_of_isDigit_ofNat digit
      omega
    next => exact .inl ⟨_, rfl⟩
  next => exact .inr (.inr rfl)

/-- Within a sequence the next character is no digit. -/
theorem not_digit_of_decodeFrom_some (beyond : pending.IsBeyondAscii) {c : Char}
    (first : (decodeFrom (some pending) bytes).head? = some c) : c.isDigit = false := by
  have other : replacement.isDigit = false := by decide
  induction bytes generalizing pending with
  | nil =>
      cases first
      exact other
  | cons b bytes induction =>
      have reached : IsReached (some pending) := fun _ same => Option.some.inj same ▸ beyond
      rw [decodeFrom] at first
      rcases step_cases beyond b with ⟨next, same⟩ | ⟨c', digit, same⟩ | same
      · have goesOn := isReached_step reached b
        rw [same] at first goesOn
        exact induction (goesOn next rfl) first
      · rw [same] at first
        cases first
        exact digit
      · rw [same] at first
        cases first
        exact other

/-- Digits with which decoded bytes begin are bytes with which the bytes begin. -/
theorem digits_of_decodeFrom_none (digits : ∀ c ∈ run, c.isDigit = true)
    (begins : run <+: decodeFrom none bytes) :
    ∃ front, front.length = run.length ∧ (∀ b ∈ front, isDigitByte b = true) ∧
      front <+: bytes := by
  induction run generalizing bytes with
  | nil => exact ⟨[], rfl, by simp, List.nil_prefix⟩
  | cons c run induction =>
      have digit : c.isDigit = true := digits c List.mem_cons_self
      have others : ∀ c ∈ run, c.isDigit = true :=
        fun c member => digits c (List.mem_cons_of_mem _ member)
      cases bytes with
      | nil => simp [decodeFrom, finish] at begins
      | cons b bytes =>
          rw [decodeFrom, step] at begins
          rcases start_cases b with same | same | ⟨pending, same⟩
          · rw [same] at begins
            obtain ⟨rfl, later⟩ := List.cons_prefix_cons.mp begins
            obtain ⟨front, length, bytesDigits, place⟩ := induction others later
            refine ⟨b :: front, by simp [length], ?_, List.cons_prefix_cons.mpr ⟨rfl, place⟩⟩
            intro d member
            rcases List.mem_cons.mp member with rfl | member
            · have bounds := bounds_of_isDigit_ofNat digit
              simp only [isDigitByte, Bool.and_eq_true, decide_eq_true_eq, UInt8.le_iff_toNat_le,
                UInt8.reduceToNat]
              omega
            · exact bytesDigits d member
          · rw [same] at begins
            obtain ⟨rfl, _⟩ := List.cons_prefix_cons.mp begins
            exact absurd digit (by decide)
          · rw [same] at begins
            have reached := isReached_start b
            rw [same] at reached
            obtain ⟨tail, equal⟩ := begins
            have first : (decodeFrom (some pending) bytes).head? = some c := by
              rw [← List.nil_append (decodeFrom (some pending) bytes), ← equal]
              rfl
            rw [not_digit_of_decodeFrom_some (reached pending rfl) first] at digit
            cases digit

/-- A character that is no digit is not part of a run of digits. -/
theorem hasRun_of_cons {c : Char} {text : Text} (other : c.isDigit = false) (positive : 0 < count)
    (found : HasRun Char.isDigit count (c :: text)) : HasRun Char.isDigit count text := by
  obtain ⟨run, length, digits, place⟩ := found
  rcases List.infix_cons_iff.mp place with begins | later
  · cases run with
    | nil => exact absurd positive (by simp [← length])
    | cons d run =>
        obtain ⟨rfl, _⟩ := List.cons_prefix_cons.mp begins
        rw [digits d List.mem_cons_self] at other
        cases other
  · exact ⟨run, length, digits, later⟩

/-- A run in what is decoded from between characters begins with the first byte or stands behind
it. -/
theorem hasRun_of_decodeFrom_none (positive : 0 < count)
    (behind : ∀ {state : Option Pending}, IsReached state →
      HasRun Char.isDigit count (decodeFrom state bytes) → HasRun isDigitByte count (b :: bytes))
    (found : HasRun Char.isDigit count (decodeFrom none (b :: bytes))) :
    HasRun isDigitByte count (b :: bytes) := by
  have other : replacement.isDigit = false := by decide
  have reached := isReached_start b
  rcases start_cases b with same | same | ⟨pending, same⟩
  · obtain ⟨run, length, digits, place⟩ := found
    rw [decodeFrom, step, same] at place
    rw [same] at reached
    rcases List.infix_cons_iff.mp place with begins | later
    · have here : run <+: decodeFrom none (b :: bytes) := by
        rw [decodeFrom, step, same]
        exact begins
      obtain ⟨front, size, bytesDigits, place⟩ := digits_of_decodeFrom_none digits here
      exact ⟨front, size.trans length, bytesDigits, place.isInfix⟩
    · exact behind reached ⟨run, length, digits, later⟩
  · rw [decodeFrom, step, same] at found
    rw [same] at reached
    exact behind reached (hasRun_of_cons other positive found)
  · rw [decodeFrom, step, same] at found
    rw [same] at reached
    exact behind reached found

theorem hasRun_of_decodeFrom {state : Option Pending} (reached : IsReached state)
    (positive : 0 < count) (found : HasRun Char.isDigit count (decodeFrom state bytes)) :
    HasRun isDigitByte count bytes := by
  have other : replacement.isDigit = false := by decide
  induction bytes generalizing state with
  | nil =>
      have short : HasRun Char.isDigit count [] := by
        cases state with
        | none => exact found
        | some pending => exact hasRun_of_cons other positive found
      exact absurd short.length_le (Nat.not_le.mpr positive)
  | cons b bytes induction =>
      have behind : ∀ {state : Option Pending}, IsReached state →
          HasRun Char.isDigit count (decodeFrom state bytes) →
            HasRun isDigitByte count (b :: bytes) :=
        fun reached found => (induction reached found).of_within (List.suffix_cons b bytes).isInfix
      cases state with
      | none => exact hasRun_of_decodeFrom_none positive behind found
      | some pending =>
          have goesOn := isReached_step reached b
          rcases step_cases (reached pending rfl) b with ⟨next, same⟩ | ⟨c, digit, same⟩ | same
          · rw [decodeFrom, same] at found
            rw [same] at goesOn
            exact behind goesOn found
          · rw [decodeFrom, same] at found
            rw [same] at goesOn
            exact behind goesOn (hasRun_of_cons digit positive found)
          · rw [decodeFrom, same] at found
            exact hasRun_of_decodeFrom_none positive behind (hasRun_of_cons other positive found)

/-- A run of digits in decoded bytes is a run of as many digits in the bytes. -/
theorem hasRun_of_decode (positive : 0 < count)
    (found : HasRun Char.isDigit count (decode bytes)) : HasRun isDigitByte count bytes := by
  refine hasRun_of_decodeFrom ?_ positive found
  intro pending same
  cases same

end Utf8

end RelayDescriptor
