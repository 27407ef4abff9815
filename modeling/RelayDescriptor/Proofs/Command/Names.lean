import RelayDescriptor.Command.Configuration
import RelayDescriptor.Proofs.Reading.Steps

/-!
# Names that are looked up

Names that pass a test are selected one after the other.  The first one that cannot be looked up for
the test ends the selection.
-/

namespace RelayDescriptor

namespace FileEntry

variable {entry : FileEntry}

theorem isThere_eq_error_iff {error : SystemError} :
    entry.isThere = .error error ↔ entry = .hidden error ∧ error.isAbsence = false := by
  rw [isThere]
  cases entry with
  | hidden other =>
      rw [test, hidden.injEq]
      split
      next absent =>
        refine ⟨nofun, ?_⟩
        rintro ⟨rfl, present⟩
        rw [absent] at present
        cases present
      next present =>
        rw [Except.error.injEq]
        exact ⟨fun same => ⟨same, same ▸ Bool.eq_false_iff.mpr present⟩, And.left⟩
  | _ => simp [test]

theorem isThere_eq_false_iff :
    entry.isThere = .ok false ↔ ∃ error, entry = .hidden error ∧ error.isAbsence = true := by
  rw [isThere]
  cases entry with
  | hidden error =>
      rw [test]
      split
      next absent => simp [absent]
      next present => simp [present]
  | _ => simp [test]

end FileEntry

namespace FileName

variable {test other : Text → Except SystemError Bool} {names kept : List Text}

theorem select_congr (same : ∀ name ∈ names, other name = test name) :
    select other names = select test names := by
  induction names with
  | nil => rfl
  | cons name names induction =>
      obtain ⟨here, later⟩ := List.forall_mem_cons.mp same
      simp only [select, here, induction later]

/-- The names that are selected are those that pass the test, and all names can be looked up. -/
theorem of_select (selected : select test names = .ok kept) :
    (∀ name ∈ names, ∃ passes, test name = .ok passes) ∧
      ∀ name, name ∈ kept ↔ name ∈ names ∧ test name = .ok true := by
  induction names generalizing kept with
  | nil =>
      cases selected
      simp
  | cons name names induction =>
      rw [select] at selected
      split at selected
      next => cases selected
      next fails =>
        obtain ⟨known, passing⟩ := induction selected
        refine ⟨List.forall_mem_cons.mpr ⟨⟨_, fails⟩, known⟩, ?_⟩
        intro found
        rw [passing, List.mem_cons]
        constructor
        · exact fun ⟨among, passes⟩ => ⟨.inr among, passes⟩
        · rintro ⟨rfl | among, passes⟩
          · rw [fails] at passes
            cases passes
          · exact ⟨among, passes⟩
      next passes =>
        obtain ⟨rest, others, rfl⟩ := map_eq_ok_iff.mp selected
        obtain ⟨known, passing⟩ := induction others
        refine ⟨List.forall_mem_cons.mpr ⟨⟨_, passes⟩, known⟩, ?_⟩
        intro found
        rw [List.mem_cons, passing, List.mem_cons]
        constructor
        · rintro (rfl | ⟨among, too⟩)
          · exact ⟨.inl rfl, passes⟩
          · exact ⟨.inr among, too⟩
        · rintro ⟨rfl | among, too⟩
          · exact .inl rfl
          · exact .inr ⟨among, too⟩

/-- The selection ends with the first name that cannot be looked up. -/
theorem select_eq_error_iff {failure : Unreachable} : select test names = .error failure ↔
    ∃ before name after error, names = before ++ name :: after ∧
      (∀ earlier ∈ before, ∃ passes, test earlier = .ok passes) ∧ test name = .error error ∧
        failure = ⟨name, error⟩ := by
  constructor
  · intro failed
    induction names with
    | nil => cases failed
    | cons name names induction =>
        have further (passes : Bool) (known : test name = .ok passes)
            (failed : select test names = .error failure) :
            ∃ before found after error, name :: names = before ++ found :: after ∧
              (∀ earlier ∈ before, ∃ passes, test earlier = .ok passes) ∧
                test found = .error error ∧ failure = ⟨found, error⟩ := by
          obtain ⟨before, found, after, error, rfl, each, last, same⟩ := induction failed
          exact ⟨name :: before, found, after, error, rfl,
            List.forall_mem_cons.mpr ⟨⟨passes, known⟩, each⟩, last, same⟩
        rw [select] at failed
        split at failed
        next error last =>
          cases failed
          exact ⟨[], name, names, error, rfl, by simp, last, rfl⟩
        next known => exact further false known failed
        next known => exact further true known (map_eq_error_iff.mp failed)
  · rintro ⟨before, name, after, error, rfl, each, last, rfl⟩
    induction before with
    | nil => rw [List.nil_append, select, last]
    | cons first before induction =>
        obtain ⟨⟨passes, known⟩, later⟩ := List.forall_mem_cons.mp each
        rw [List.cons_append, select, known]
        cases passes with
        | false => exact induction later
        | true =>
            dsimp only
            rw [induction later]
            rfl

end FileName

end RelayDescriptor
