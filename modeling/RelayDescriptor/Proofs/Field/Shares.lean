import RelayDescriptor.Field.Lists
import RelayDescriptor.Proofs.Number.Decimals

/-!
# Accepted shares

Whether a share is below zero is looked at after it has been rounded to a floating-point number.
So a share is accepted if the number that it writes is not below zero, and also if it is below zero
by no more than half of the least positive floating-point number.
-/

namespace RelayDescriptor

variable {line text : Text} {arguments : List Text} {number : ℚ} {d : Decimal}
  {percent : Binary64}

/-- What is said about a share that is refused. -/
def shareExpectation : String := "a non-negative percentage like '0.37%'"

theorem share_of_ofText? (read : Decimal.ofText? text = some d) :
    share line [text ++ ['%']] =
      if (Binary64.ofDecimal d).isNegative then
        .error (.value line (text ++ ['%']) shareExpectation)
      else .ok (Binary64.ofDecimal d) := by
  simp only [share, List.getLast?_concat, List.dropLast_concat, read]
  rfl

theorem share_of_halfLeast_le (read : Decimal.ofText? text = some d)
    (near : -Binary64.halfLeast ≤ d.value) :
    share line [text ++ ['%']] = .ok (Binary64.ofDecimal d) := by
  have notNegative : ¬(Binary64.ofDecimal d).isNegative = true :=
    mt (Binary64.isNegative_ofDecimal_iff d).mp (not_lt_of_ge near)
  rw [share_of_ofText? read, if_neg notNegative]

theorem share_of_lt_halfLeast (read : Decimal.ofText? text = some d)
    (below : d.value < -Binary64.halfLeast) :
    share line [text ++ ['%']] = .error (.value line (text ++ ['%']) shareExpectation) := by
  rw [share_of_ofText? read, if_pos ((Binary64.isNegative_ofDecimal_iff d).mpr below)]

/-- What is accepted is a single decimal number with a percent sign behind it. -/
theorem exists_of_share (read : share line arguments = .ok percent) :
    ∃ text d, arguments = [text ++ ['%']] ∧ Decimal.ofText? text = some d := by
  rw [share.eq_def] at read
  dsimp only at read
  split at read
  next value =>
    split at read
    next decimal last found =>
      obtain ⟨text, rfl⟩ := List.getLast?_eq_some_iff.mp last
      rw [List.dropLast_concat] at found
      exact ⟨text, decimal, rfl, found⟩
    next => cases read
  next => cases read

theorem exists_share_iff :
    (∃ percent, share line arguments = .ok percent) ↔
      ∃ text number, arguments = [text ++ ['%']] ∧ Decimal.Writes text number ∧
        -Binary64.halfLeast ≤ number := by
  constructor
  · intro accepted
    obtain ⟨percent, read⟩ := accepted
    obtain ⟨text, d, rfl, found⟩ := exists_of_share read
    refine ⟨text, d.value, rfl, Decimal.writes_iff.mpr ⟨d, found, rfl⟩, ?_⟩
    by_contra below
    rw [share_of_lt_halfLeast found (lt_of_not_ge below)] at read
    cases read
  · intro written
    obtain ⟨text, number, rfl, writes, near⟩ := written
    obtain ⟨d, found, rfl⟩ := Decimal.writes_iff.mp writes
    exact ⟨_, share_of_halfLeast_le found near⟩

/-- A share is accepted exactly if it is a decimal number with a percent sign, and the number is not
further below zero than half of the least positive floating-point number; a number that is, is
refused as a value.  So the numbers that are accepted although they are below zero are just those
that are rounded to zero. -/
theorem share_nonnegative_iff (line : Text) :
    (∀ arguments, (∃ percent, share line arguments = .ok percent) ↔
      ∃ text number, arguments = [text ++ ['%']] ∧ Decimal.Writes text number ∧
        -Binary64.halfLeast ≤ number) ∧
    ∀ text number, Decimal.Writes text number →
      (share line [text ++ ['%']] = .error (.value line (text ++ ['%']) shareExpectation) ↔
        number < -Binary64.halfLeast) ∧
      (((∃ percent, share line [text ++ ['%']] = .ok percent) ↔ 0 ≤ number) ↔
        ¬(-Binary64.halfLeast ≤ number ∧ number < 0)) := by
  refine ⟨fun arguments => exists_share_iff, ?_⟩
  intro text number writes
  obtain ⟨d, found, rfl⟩ := Decimal.writes_iff.mp writes
  by_cases near : -Binary64.halfLeast ≤ d.value
  · rw [share_of_halfLeast_le found near]
    simp [near]
  · have below : d.value < -Binary64.halfLeast := lt_of_not_ge near
    have negative : d.value < 0 := below.trans (neg_neg_of_pos Binary64.halfLeast_pos)
    rw [share_of_lt_halfLeast found below]
    simp [near, below, negative]

/-- A number that is refused although it is less than the least positive floating-point number away
from zero. -/
theorem share_nonnegative_iff_refused :
    let line := "dirreq-v3-share -2.5e-324%".toList
    let text := "-2.5e-324".toList
    let number : ℚ := -(25 * 10 ^ (-325 : Int))
    Decimal.Writes text number ∧ number < -Binary64.halfLeast ∧
      share line [text ++ ['%']] = .error (.value line (text ++ ['%']) shareExpectation) := by
  intro line text number
  have writes : Decimal.Writes text number :=
    Decimal.writes_iff.mpr ⟨⟨true, 25, -325⟩, by decide, rfl⟩
  have below : number < -Binary64.halfLeast := by
    have sizes : (10 : ℚ) ^ 325 < 25 * 2 ^ 1075 := by
      exact_mod_cast (by decide +kernel : 10 ^ 325 < 25 * 2 ^ 1075)
    have half : Binary64.halfLeast = 1 / 2 ^ 1075 := (one_div _).symm
    have size : (25 * 10 ^ (-325 : Int) : ℚ) = 25 / 10 ^ 325 := rfl
    apply neg_lt_neg
    rw [half, size, div_lt_div_iff₀ (by positivity) (by positivity), one_mul]
    exact sizes
  exact ⟨writes, below, ((share_nonnegative_iff line).2 text number writes).1.mpr below⟩

/-- A number below zero that is accepted, because it is rounded to zero. -/
theorem not_share_nonnegative_tiny :
    let line := "dirreq-v3-share -1e-400%".toList
    let text := "-1e-400".toList
    let number : ℚ := -(1 * 10 ^ (-400 : Int))
    Decimal.Writes text number ∧ number < 0 ∧
      share line [text ++ ['%']] = .ok (.zero true) ∧
        ¬((∃ percent, share line [text ++ ['%']] = .ok percent) ↔ 0 ≤ number) := by
  intro line text number
  have writes : Decimal.Writes text number :=
    Decimal.writes_iff.mpr ⟨⟨true, 1, -400⟩, by decide, rfl⟩
  have negative : number < 0 := neg_neg_of_pos (by positivity)
  have accepted : share line [text ++ ['%']] = .ok (.zero true) := by decide
  refine ⟨writes, negative, accepted, ?_⟩
  intro claimed
  exact not_le_of_gt negative (claimed.mp ⟨_, accepted⟩)

end RelayDescriptor
