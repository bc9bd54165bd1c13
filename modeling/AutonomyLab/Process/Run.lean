import Mathlib.Data.List.Induction

/-!
# Runs of a machine, with their history

A machine is a function that answers an action with the next state, or with nothing where
the action cannot happen.  A run carries the list of its transitions, so that one can speak
of what happened before and after a certain moment.

* `Run` — the transitions that lead from one state to another.
* `exec` — the run of a list of actions.
* `Run.invariant` — what every step keeps holds at the end of a run.
* `Run.split` — a run taken apart at one of its transitions.
* `Run.later` — what every step keeps, seen from a moment of the run.
-/

namespace Process

variable {σ α : Type}

/-- One step, with the states it leads from and to. -/
structure Transition (σ α : Type) where
  before : σ
  action : α
  after : σ

variable (step : σ → α → Option σ)

/-- The transitions `h` lead from the state `s` to the last argument. -/
inductive Run (s : σ) : List (Transition σ α) → σ → Prop
  | nil : Run s [] s
  | snoc {h t a t'} : Run s h t → step t a = some t' → Run s (h ++ [⟨t, a, t'⟩]) t'

variable {step} {s t : σ} {h : List (Transition σ α)}

variable (step) in
/-- The run of a list of actions. -/
def exec (s : σ) : List α → Option (List (Transition σ α) × σ)
  | [] => some ([], s)
  | a :: as => do
      let t ← step s a
      let (h, u) ← exec t as
      return (⟨s, a, t⟩ :: h, u)

theorem Run.cons {a : α} {u : σ} (ht : step s a = some t) (hrun : Run step t h u) :
    Run step s (⟨s, a, t⟩ :: h) u := by
  induction hrun with
  | nil => exact .snoc .nil ht
  | snoc _ ht' ih => exact ih.snoc ht'

theorem run_of_exec {as : List α} (he : exec step s as = some (h, t)) : Run step s h t := by
  induction as generalizing s h with
  | nil =>
      cases he
      exact .nil
  | cons a as ih =>
      obtain ⟨t', ht', he⟩ := Option.bind_eq_some_iff.1 he
      obtain ⟨⟨h', u⟩, he', heq⟩ := Option.bind_eq_some_iff.1 he
      cases heq
      exact (ih he').cons ht'

theorem Run.invariant {P : σ → Prop} (hstep : ∀ t a t', P t → step t a = some t' → P t')
    (hrun : Run step s h t) (hs : P s) : P t := by
  induction hrun with
  | nil => exact hs
  | snoc _ ht ih => exact hstep _ _ _ ih ht

theorem Run.append {h' : List (Transition σ α)} {u : σ} (hrun : Run step s h t)
    (hrun' : Run step t h' u) : Run step s (h ++ h') u := by
  induction hrun' with
  | nil => rw [List.append_nil]; exact hrun
  | snoc _ ht ih => rw [← List.append_assoc]; exact ih.snoc ht

/-- **A run taken apart at one of its transitions.** -/
theorem Run.split {h₁ h₂ : List (Transition σ α)} {τ : Transition σ α}
    (hrun : Run step s (h₁ ++ τ :: h₂) t) :
    Run step s h₁ τ.before ∧ step τ.before τ.action = some τ.after ∧ Run step τ.after h₂ t := by
  induction h₂ using List.reverseRecOn generalizing t with
  | nil =>
      generalize hl : h₁ ++ [τ] = l at hrun
      cases hrun with
      | nil => exact absurd hl (by simp)
      | snoc hrun ht =>
          obtain ⟨rfl, hτ⟩ := List.append_inj' hl rfl
          cases hτ
          exact ⟨hrun, ht, .nil⟩
  | append_singleton h₂ τ' ih =>
      generalize hl : h₁ ++ τ :: (h₂ ++ [τ']) = l at hrun
      rw [← List.cons_append, ← List.append_assoc] at hl
      cases hrun with
      | nil => exact absurd hl (by simp)
      | snoc hrun ht =>
          obtain ⟨rfl, hτ⟩ := List.append_inj' hl rfl
          cases hτ
          obtain ⟨hbefore, hstep, hafter⟩ := ih hrun
          exact ⟨hbefore, hstep, hafter.snoc ht⟩

/-- A transition of a run is a step. -/
theorem Run.step_of_mem {τ : Transition σ α} (hrun : Run step s h t) (hτ : τ ∈ h) :
    step τ.before τ.action = some τ.after := by
  obtain ⟨h₁, h₂, rfl⟩ := List.append_of_mem hτ
  exact hrun.split.2.1

/-- What every step keeps holds at each later transition, before and after it. -/
theorem Run.later {P : σ → Prop} (hstep : ∀ t a t', P t → step t a = some t' → P t')
    (hrun : Run step s h t) (hs : P s) {τ : Transition σ α} (hτ : τ ∈ h) :
    P τ.before ∧ P τ.after := by
  obtain ⟨h₁, h₂, rfl⟩ := List.append_of_mem hτ
  obtain ⟨hbefore, ht, _⟩ := hrun.split
  have := hbefore.invariant hstep hs
  exact ⟨this, hstep _ _ _ this ht⟩

end Process
