import Mathlib.Data.List.Forall2
import Mathlib.Data.List.Zip

/-!
Lists whose items are related one by one, and results that may be failures.
-/

namespace AnimationGrammar

/-! ### Results -/

theorem bind_eq_ok_iff {ε α β : Type} {x : Except ε α} {f : α → Except ε β} {b : β} :
    (x >>= f) = .ok b ↔ ∃ a, x = .ok a ∧ f a = .ok b := by
  cases x <;> simp [bind, Except.bind]

theorem map_eq_ok_iff {ε α β : Type} {x : Except ε α} {f : α → β} {b : β} :
    x.map f = .ok b ↔ ∃ a, x = .ok a ∧ f a = b := by
  cases x <;> simp [Except.map]

/-! ### Lists -/

/-- Two lists are mapped alike when they are item by item. -/
theorem map_eq_map_iff_zip {α β γ : Type} {f : α → γ} {g : β → γ} {xs : List α} {ys : List β} :
    xs.map f = ys.map g ↔ xs.length = ys.length ∧ ∀ pair ∈ xs.zip ys, f pair.1 = g pair.2 := by
  rw [← List.forall₂_eq_eq_eq, List.forall₂_map_left_iff, List.forall₂_map_right_iff,
    List.forall₂_iff_zip]
  exact and_congr_right fun _ => ⟨fun each pair => each (a := pair.1) (b := pair.2), fun each _ _ => each _⟩

theorem exists_map_eq {α β : Type} {build : β → α} {property : β → Prop} {parts : List α}
    (each : ∀ part ∈ parts, ∃ piece, property piece ∧ build piece = part) :
    ∃ pieces : List β, pieces.map build = parts ∧ ∀ piece ∈ pieces, property piece := by
  induction parts with
  | nil => exact ⟨[], rfl, by simp⟩
  | cons part parts inductionHypothesis =>
      rw [List.forall_mem_cons] at each
      obtain ⟨⟨piece, holds, rfl⟩, each⟩ := each
      obtain ⟨pieces, rfl, others⟩ := inductionHypothesis each
      refine ⟨piece :: pieces, rfl, ?_⟩
      rw [List.forall_mem_cons]
      exact ⟨holds, others⟩

section
variable {α β : Type} {r : α → β → Prop} {xs : List α} {ys : List β}

theorem forall₂_of_mem {s : α → β → Prop} (each : ∀ x ∈ xs, ∀ y, r x y → s x y)
    (related : List.Forall₂ r xs ys) : List.Forall₂ s xs ys := by
  induction related with
  | nil => exact .nil
  | cons first _ inductionHypothesis =>
      rw [List.forall_mem_cons] at each
      exact .cons (each.1 _ first) (inductionHypothesis each.2)

theorem forall₂_exists_iff : (∃ ys, List.Forall₂ r xs ys) ↔ ∀ x ∈ xs, ∃ y, r x y := by
  induction xs with
  | nil => simp
  | cons x xs inductionHypothesis =>
      rw [List.forall_mem_cons, ← inductionHypothesis]
      constructor
      · rintro ⟨_, _ | ⟨first, later⟩⟩
        exact ⟨⟨_, first⟩, _, later⟩
      · rintro ⟨⟨y, first⟩, ys, later⟩
        exact ⟨y :: ys, .cons first later⟩

theorem forall₂_getElem? (related : List.Forall₂ r xs ys) {index : Nat} {x : α}
    (found : xs[index]? = some x) : ∃ y, ys[index]? = some y ∧ r x y := by
  induction related generalizing index with
  | nil => simp at found
  | @cons a b _ _ first _ inductionHypothesis =>
      cases index with
      | zero =>
          rw [List.getElem?_cons_zero, Option.some.injEq] at found
          exact ⟨b, rfl, found ▸ first⟩
      | succ index =>
          rw [List.getElem?_cons_succ] at found ⊢
          exact inductionHypothesis found

theorem forall₂_exists_of_mem (related : List.Forall₂ r xs ys) {x : α} (membership : x ∈ xs) :
    ∃ y ∈ ys, r x y := by
  obtain ⟨index, found⟩ := List.getElem?_of_mem membership
  obtain ⟨y, inYs, holds⟩ := forall₂_getElem? related found
  exact ⟨y, List.mem_of_getElem? inYs, holds⟩

/-- What every item is related to is related to itself. -/
theorem forall₂_self_of_mem {s : β → β → Prop} (each : ∀ x ∈ xs, ∀ y, r x y → s y y)
    (related : List.Forall₂ r xs ys) : List.Forall₂ s ys ys := by
  induction related with
  | nil => exact .nil
  | cons first _ inductionHypothesis =>
      rw [List.forall_mem_cons] at each
      exact .cons (each.1 _ first) (inductionHypothesis each.2)

end

end AnimationGrammar
