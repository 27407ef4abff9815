import RelayDescriptor.Tools.Standard

/-!
# What the tools of the program keep

A text without the character that begins control sequences has none of them to be taken out.
-/

namespace RelayDescriptor

namespace ControlSequence

theorem length?_eq_none {c : Char} (other : c ≠ Style.escape) (text : Text) :
    length? (c :: text) = none := by
  rw [length?.eq_def]
  split
  next same =>
    cases same
    rw [if_neg other]
  next => rfl

/-- A text without escapes has no control sequences. -/
theorem strip_of_not_mem {text : Text} (plain : Style.escape ∉ text) : strip text = text := by
  induction text with
  | nil => rfl
  | cons c text induction =>
      rw [List.mem_cons, not_or] at plain
      rw [strip, stripFrom, length?_eq_none (Ne.symm plain.1)]
      exact congrArg (c :: ·) (induction plain.2)

end ControlSequence

namespace Toolkit

theorem keepsPlain_standard : standard.KeepsPlain := fun _ plain =>
  ControlSequence.strip_of_not_mem plain

theorem request_standard {environment : Environment} {line : List Text} {request : Request}
    (read : Invocation.read environment line = .ok request) :
    standard.request environment line = .ok request := by
  rw [standard]
  dsimp only
  rw [read]
  rfl

end Toolkit

end RelayDescriptor
