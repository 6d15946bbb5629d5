import Mathlib.Data.List.Induction

/-!
# What lasts since some step

Catalogs and sessions change step by step, and much of what holds of them has begun with one step
and lasts since. `Since` says so of the sequence of steps alone, and is taken apart from its end,
where the next step stands.
-/

namespace CrossModel

universe u v

variable {α : Type u} {σ : Type v}

/-- Something began with a step, given the steps before it, and lasts since. -/
def Since (begins : List α → α → Prop) (lasts : α → Prop) (history : List α) : Prop :=
  ∃ before step after, history = before ++ step :: after ∧ begins before step ∧
    ∀ later ∈ after, lasts later

variable {begins : List α → α → Prop} {lasts : α → Prop}

theorem not_since_nil : ¬ Since begins lasts [] := by
  rintro ⟨before, step, after, hsplit, -⟩
  simp at hsplit

/-- It begins with the last step, or it began before and the last step lets it last. -/
theorem since_concat {history : List α} {last : α} :
    Since begins lasts (history ++ [last]) ↔
      begins history last ∨ Since begins lasts history ∧ lasts last := by
  constructor
  · rintro ⟨before, step, after, hsplit, hbegins, hlasts⟩
    cases after using List.reverseRecOn with
    | nil =>
      obtain ⟨rfl, hlast⟩ := List.append_inj' hsplit rfl
      cases hlast
      exact .inl hbegins
    | append_singleton rest final =>
      rw [← List.cons_append, ← List.append_assoc] at hsplit
      obtain ⟨rfl, hlast⟩ := List.append_inj' hsplit rfl
      cases hlast
      rw [List.forall_mem_append, List.forall_mem_singleton] at hlasts
      exact .inr ⟨⟨before, step, rest, rfl, hbegins, hlasts.1⟩, hlasts.2⟩
  · rintro (hbegins | ⟨⟨before, step, after, rfl, hbegins, hlasts⟩, hlast⟩)
    · exact ⟨history, last, [], rfl, hbegins, nofun⟩
    · refine ⟨before, step, after ++ [last], by simp, hbegins, ?_⟩
      rw [List.forall_mem_append, List.forall_mem_singleton]
      exact ⟨hlasts, hlast⟩

/-- What one step at a time begins and lets last holds, after all steps, if it has begun with one of
them and lasts since. -/
theorem foldl_iff_since {step : σ → α → σ} {start : σ} {begins : α → Prop} (holds : σ → Prop)
    (hstep : ∀ state next, holds (step state next) ↔ begins next ∨ holds state ∧ lasts next)
    (hstart : ¬ holds start) (history : List α) :
    holds (history.foldl step start) ↔ Since (fun _ => begins) lasts history := by
  induction history using List.reverseRecOn with
  | nil => exact iff_of_false hstart not_since_nil
  | append_singleton history last ih =>
    rw [List.foldl_append, List.foldl_cons, List.foldl_nil, hstep, since_concat, ih]

end CrossModel
