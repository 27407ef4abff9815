import Mathlib.Data.List.Induction

/-!
# The last one prevails

Where one thing after the other may overwrite what is set, the last one that sets something
decides.  Folding steps of which each overwrites what is set, or leaves it alone, computes that.
-/

namespace RelayDescriptor

variable {α δ σ : Type} {sets : δ → α → Prop} {items : List δ} {item : δ} {result : α}
  {left right : Option α}

/-- Of a sequence of things the last one that sets something decides what is set. -/
inductive Prevails (sets : δ → α → Prop) (items : List δ) : Option α → Prop
  | last {above below : List δ} {item : δ} {result : α} (split : items = above ++ item :: below)
      (here : sets item result) (silent : ∀ other ∈ below, ∀ result, ¬sets other result) :
      Prevails sets items (some result)
  | none (silent : ∀ item ∈ items, ∀ result, ¬sets item result) : Prevails sets items none

namespace Prevails

theorem exists_mem (prevails : Prevails sets items (some result)) :
    ∃ item ∈ items, sets item result := by
  cases prevails with
  | last split here => exact ⟨_, by rw [split]; simp, here⟩

/-- One more thing prevails if it sets something, and else changes nothing. -/
theorem concat_iff : Prevails sets (items ++ [item]) left ↔
    (∃ result, left = some result ∧ sets item result) ∨
      (∀ result, ¬sets item result) ∧ Prevails sets items left := by
  constructor
  · intro prevails
    cases prevails with
    | none silent =>
        rw [List.forall_mem_append, List.forall_mem_singleton] at silent
        exact .inr ⟨silent.2, .none silent.1⟩
    | @last above below chosen result split here silent =>
        -- The added thing is the one that prevails, or the last of those behind that.
        rcases List.eq_nil_or_concat below with rfl | ⟨front, final, rfl⟩
        · obtain rfl : item = chosen := List.singleton_inj.mp (List.append_inj_right' split rfl)
          exact .inl ⟨result, rfl, here⟩
        · rw [List.concat_eq_append, List.forall_mem_append, List.forall_mem_singleton] at silent
          rw [List.concat_eq_append, ← List.cons_append, ← List.append_assoc] at split
          obtain ⟨rfl, same⟩ := List.append_inj' split rfl
          obtain rfl : item = final := List.singleton_inj.mp same
          exact .inr ⟨silent.2, .last rfl here silent.1⟩
  · rintro (⟨result, rfl, here⟩ | ⟨silentHere, prevails⟩)
    · exact .last rfl here (by simp)
    · cases prevails with
      | none silent =>
          apply Prevails.none
          rw [List.forall_mem_append, List.forall_mem_singleton]
          exact ⟨silent, silentHere⟩
      | @last above below chosen result split here silent =>
          have whole : items ++ [item] = above ++ chosen :: (below ++ [item]) := by
            rw [split, List.append_assoc, List.cons_append]
          refine .last whole here ?_
          rw [List.forall_mem_append, List.forall_mem_singleton]
          exact ⟨silent, silentHere⟩

/-- Of things that set at most one value each, one value prevails. -/
theorem unique (functional : ∀ item a b, sets item a → sets item b → a = b)
    (first : Prevails sets items left) (second : Prevails sets items right) : left = right := by
  induction items using List.reverseRecOn with
  | nil =>
      have nothing : ∀ {value}, Prevails sets [] value → value = Option.none := by
        intro value prevails
        cases prevails with
        | last split => simp at split
        | none => rfl
      rw [nothing first, nothing second]
  | append_singleton items item induction =>
      rcases concat_iff.mp first with ⟨a, rfl, here⟩ | ⟨silent, first⟩
      · rcases concat_iff.mp second with ⟨b, rfl, alsoHere⟩ | ⟨silent, _⟩
        · rw [functional item a b here alsoHere]
        · exact absurd here (silent a)
      · rcases concat_iff.mp second with ⟨b, rfl, here⟩ | ⟨_, second⟩
        · exact absurd here (silent b)
        · exact induction first second

/-- What is found after steps that overwrite what is set, or leave it alone, is what prevails. -/
theorem foldl {step : σ → δ → σ} {found : σ → Option α} {start : σ}
    (unset : found start = Option.none)
    (overwrites : ∀ state item,
      (∃ result, found (step state item) = some result ∧ sets item result) ∨
        (∀ result, ¬sets item result) ∧ found (step state item) = found state)
    (items : List δ) : Prevails sets items (found (items.foldl step start)) := by
  induction items using List.reverseRecOn with
  | nil =>
      rw [List.foldl_nil, unset]
      exact .none fun _ member => absurd member List.not_mem_nil
  | append_singleton items item induction =>
      rw [List.foldl_append, List.foldl_cons, List.foldl_nil, concat_iff]
      rcases overwrites (items.foldl step start) item with overwritten | ⟨silent, same⟩
      · exact .inl overwritten
      · rw [same]
        exact .inr ⟨silent, induction⟩

end Prevails

end RelayDescriptor
