import Mathlib.Data.List.Forall2

/-!
# Steps that may fail

Steps that are taken one after the other succeed if each of them does, and fail as
the first one that fails.
-/

namespace RelayDescriptor

variable {ε α β : Type} {error : ε}

theorem exists_of_isOk {result : Except ε α} (accepted : result.isOk = true) :
    ∃ a, result = .ok a := by
  cases result with
  | error error => cases accepted
  | ok a => exact ⟨a, rfl⟩

theorem bind_eq_ok_iff {first : Except ε α} {next : α → Except ε β} {b : β} :
    first >>= next = .ok b ↔ ∃ a, first = .ok a ∧ next a = .ok b := by
  cases first with
  | error other => simp [bind, Except.bind]
  | ok a => simp [bind, Except.bind]

theorem bind_eq_error_iff {first : Except ε α} {next : α → Except ε β} :
    first >>= next = .error error ↔
      first = .error error ∨ ∃ a, first = .ok a ∧ next a = .error error := by
  cases first with
  | error other => simp [bind, Except.bind]
  | ok a => simp [bind, Except.bind]

theorem map_eq_ok_iff {result : Except ε α} {f : α → β} {b : β} :
    result.map f = .ok b ↔ ∃ a, result = .ok a ∧ f a = b := by
  cases result with
  | error other => simp [Except.map]
  | ok a => simp [Except.map]

theorem map_eq_error_iff {result : Except ε α} {f : α → β} :
    result.map f = .error error ↔ result = .error error := by
  cases result with
  | error other => simp [Except.map]
  | ok a => simp [Except.map]

theorem mapError_eq_ok_iff {result : Except ε α} {f : ε → β} {a : α} :
    result.mapError f = .ok a ↔ result = .ok a := by
  cases result <;> simp [Except.mapError]

theorem mapError_eq_error_iff {result : Except ε α} {f : ε → β} {error : β} :
    result.mapError f = .error error ↔ ∃ first, result = .error first ∧ f first = error := by
  cases result <;> simp [Except.mapError]

/-- Results that agree under a function are the same error, or both no error. -/
theorem map_eq_map_cases {left right : Except ε α} {f : α → β} (same : left.map f = right.map f) :
    (∃ error, left = .error error ∧ right = .error error) ∨
      ∃ a b, left = .ok a ∧ right = .ok b ∧ f a = f b := by
  cases right with
  | error error => exact .inl ⟨error, map_eq_error_iff.mp same, rfl⟩
  | ok b =>
      obtain ⟨a, result, equal⟩ := map_eq_ok_iff.mp same
      exact .inr ⟨a, b, result, rfl, equal⟩

theorem foldlM_eq_error_iff {step : β → α → Except ε β} {start : β} {items : List α} :
    items.foldlM step start = .error error ↔
      ∃ above item below reached, items = above ++ item :: below ∧
        above.foldlM step start = .ok reached ∧ step reached item = .error error := by
  induction items generalizing start with
  | nil =>
      constructor
      · intro failed
        cases failed
      · rintro ⟨above, item, below, reached, split, _⟩
        exact absurd split.symm (by simp)
  | cons first items induction =>
      rw [List.foldlM_cons, bind_eq_error_iff]
      constructor
      · rintro (failed | ⟨next, here, failed⟩)
        · exact ⟨[], first, items, start, rfl, rfl, failed⟩
        · obtain ⟨above, item, below, reached, rfl, before, failed⟩ := induction.mp failed
          refine ⟨first :: above, item, below, reached, rfl, ?_, failed⟩
          rw [List.foldlM_cons, bind_eq_ok_iff]
          exact ⟨next, here, before⟩
      · rintro ⟨above, item, below, reached, split, before, failed⟩
        cases above with
        | nil =>
            obtain ⟨rfl, rfl⟩ := List.cons.inj split
            cases before
            exact .inl failed
        | cons head above =>
            obtain ⟨rfl, rfl⟩ := List.cons.inj split
            rw [List.foldlM_cons, bind_eq_ok_iff] at before
            obtain ⟨next, here, before⟩ := before
            exact .inr
              ⟨next, here, induction.mpr ⟨above, item, below, reached, rfl, before, failed⟩⟩

theorem mapM_eq_ok_iff {read : α → Except ε β} {items : List α} {results : List β} :
    items.mapM read = .ok results ↔
      List.Forall₂ (fun item result => read item = .ok result) items results := by
  induction items generalizing results with
  | nil =>
      constructor
      · intro same
        cases same
        exact .nil
      · intro none
        cases none
        rfl
  | cons item items induction =>
      rw [List.mapM_cons, bind_eq_ok_iff]
      constructor
      · rintro ⟨result, first, same⟩
        obtain ⟨others, rest, same⟩ := bind_eq_ok_iff.mp same
        cases same
        exact .cons first (induction.mp rest)
      · intro each
        cases each with
        | cons first rest =>
            exact ⟨_, first, bind_eq_ok_iff.mpr ⟨_, induction.mpr rest, rfl⟩⟩

theorem exists_of_mapM_eq_ok {read : α → Except ε β} {items : List α} {results : List β}
    (complete : items.mapM read = .ok results) {item : α} (member : item ∈ items) :
    ∃ result, read item = .ok result := by
  have each := mapM_eq_ok_iff.mp complete
  induction each with
  | nil => cases member
  | cons first rest induction =>
      rcases List.mem_cons.mp member with rfl | member
      · exact ⟨_, first⟩
      · exact induction (mapM_eq_ok_iff.mpr rest) member

theorem exists_source_of_mapM_eq_ok {read : α → Except ε β} {items : List α} {results : List β}
    (complete : items.mapM read = .ok results) {result : β} (member : result ∈ results) :
    ∃ item ∈ items, read item = .ok result := by
  have each := mapM_eq_ok_iff.mp complete
  induction each with
  | nil => cases member
  | @cons item _ items _ first rest induction =>
      rcases List.mem_cons.mp member with rfl | member
      · exact ⟨item, List.mem_cons_self, first⟩
      · obtain ⟨source, inside, read⟩ := induction (mapM_eq_ok_iff.mpr rest) member
        exact ⟨source, List.mem_cons_of_mem item inside, read⟩

theorem exists_of_mapM_eq_error {read : α → Except ε β} {items : List α}
    (failed : items.mapM read = .error error) : ∃ item ∈ items, read item = .error error := by
  induction items with
  | nil => cases failed
  | cons item items induction =>
      rw [List.mapM_cons] at failed
      rcases bind_eq_error_iff.mp failed with here | ⟨result, _, failed⟩
      · exact ⟨item, List.mem_cons_self, here⟩
      · rcases bind_eq_error_iff.mp failed with later | ⟨others, _, same⟩
        · obtain ⟨later, member, failed⟩ := induction later
          exact ⟨later, List.mem_cons_of_mem item member, failed⟩
        · cases same

/-- Every error of a step satisfies a condition. -/
def FailsOnly (allowed : ε → Prop) (result : Except ε α) : Prop :=
  ∀ error, result = .error error → allowed error

section FailsOnly

variable {allowed : ε → Prop}

@[simp] theorem failsOnly_ok (a : α) : FailsOnly allowed (.ok a) := by
  intro error same
  cases same

@[simp] theorem failsOnly_pure (a : α) : FailsOnly allowed (pure a) := failsOnly_ok a

@[simp] theorem failsOnly_error :
    FailsOnly allowed (.error error : Except ε α) ↔ allowed error := by
  simp [FailsOnly]

@[simp] theorem failsOnly_bind {first : Except ε α} {next : α → Except ε β} :
    FailsOnly allowed (first >>= next) ↔
      FailsOnly allowed first ∧ ∀ a, first = .ok a → FailsOnly allowed (next a) := by
  cases first with
  | error other => simp [FailsOnly, bind, Except.bind]
  | ok a => simp [FailsOnly, bind, Except.bind]

@[simp] theorem failsOnly_map {result : Except ε α} {f : α → β} :
    FailsOnly allowed (result.map f) ↔ FailsOnly allowed result := by
  simp only [FailsOnly, map_eq_error_iff]

@[simp] theorem failsOnly_functorMap {result : Except ε α} {f : α → β} :
    FailsOnly allowed (f <$> result) ↔ FailsOnly allowed result :=
  failsOnly_map

@[simp] theorem failsOnly_discard {result : Except ε α} :
    FailsOnly allowed (discard result) ↔ FailsOnly allowed result :=
  failsOnly_map

@[simp] theorem failsOnly_ite {condition : Prop} [Decidable condition]
    {result other : Except ε α} :
    FailsOnly allowed (if condition then result else other) ↔
      (condition → FailsOnly allowed result) ∧ (¬condition → FailsOnly allowed other) := by
  split
  next holds => simp [holds]
  next fails => simp [fails]

@[simp] theorem failsOnly_mapM {read : α → Except ε β} {items : List α}
    (each : ∀ item ∈ items, FailsOnly allowed (read item)) :
    FailsOnly allowed (items.mapM read) := by
  intro error failed
  obtain ⟨item, member, failed⟩ := exists_of_mapM_eq_error failed
  exact each item member error failed

@[simp] theorem failsOnly_forM {read : α → Except ε PUnit} {items : List α}
    (each : ∀ item ∈ items, FailsOnly allowed (read item)) :
    FailsOnly allowed (forM items read) := by
  induction items with
  | nil => exact failsOnly_ok PUnit.unit
  | cons item items induction =>
      refine failsOnly_bind.mpr ⟨each item List.mem_cons_self, fun _ _ => ?_⟩
      exact induction fun later member => each later (List.mem_cons_of_mem item member)

end FailsOnly

end RelayDescriptor
