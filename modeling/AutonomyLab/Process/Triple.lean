import AutonomyLab.Process.Sequential

/-!
# Triples

Pre- and postconditions of programs that run one at a time and may be killed.  A triple is about
a program that is started where its precondition holds: it passes only through points, and ends
so that its postcondition holds.

* `Triple` — triples; an exception is an outcome like any other.
* `Returns` — a postcondition that says nothing of exceptions.
* `Triple.bind`, `Triple.attempt`, … — a rule for each way to compose programs.
* `Triple.perform` — one act.
-/

namespace Process.Sequential

variable {σ Λ ι δ δ' ε α β : Type} {S : System σ Λ ι δ δ'} (L : Logic S) (t : ℕ) (i : ι)

/-- Where `A` holds process `t` may be started on `p`, and then `B` holds of the outcome. -/
def Triple (A : View σ Λ ι → Prop) (p : Proc σ Λ ε α) (B : Except ε α → View σ Λ ι → Prop) : Prop :=
  ∀ v, A v → keeps L t i p B v

/-- The outcome is an exception, or a value of which `G` holds. -/
def Returns (G : α → View σ Λ ι → Prop) : Except ε α → View σ Λ ι → Prop
  | .ok a, v => G a v
  | .error _, _ => True

variable {L t i} {A A' : View σ Λ ι → Prop} {p : Proc σ Λ ε α} {q : α → Proc σ Λ ε β}
  {F F' : Except ε α → View σ Λ ι → Prop} {B : Except ε β → View σ Λ ι → Prop}

namespace Triple

theorem mono (h : Triple L t i A p F) (hA : ∀ v, A' v → A v) (hF : ∀ r v, F r v → F' r v) :
    Triple L t i A' p F' := fun v hv => keeps_mono (h v (hA v hv)) hF

theorem done {a : α} (h : ∀ v, A v → F (.ok a) v) : Triple L t i A (.done a) F := h

theorem fail {e : ε} (h : ∀ v, A v → F (.error e) v) : Triple L t i A (.fail e) F := h

theorem ofExcept {r : Except ε α} (h : ∀ v, A v → F r v) : Triple L t i A (.ofExcept r) F := by
  cases r with
  | ok a => exact done h
  | error e => exact fail h

theorem choose {γ : Type} {k : γ → Proc σ Λ ε α} (h : ∀ c, Triple L t i A (k c) F) :
    Triple L t i A (.choose k) F := fun v hv c => h c v hv

/-- An answer from outside. -/
theorem ask {γ : Type} {k : γ → Proc σ Λ ε α} (h : ∀ c, Triple L t i A (k c) F) :
    Triple L t i A ((Proc.ask γ).bind k) F := choose h

/-- Sequencing. -/
theorem bind (hp : Triple L t i A p F) (hq : ∀ a, Triple L t i (F (.ok a)) (q a) B)
    (he : ∀ e v, F (.error e) v → B (.error e) v) : Triple L t i A (p.bind q) B := by
  refine fun v hv => keeps_bind (keeps_mono (hp v hv) ?_)
  rintro (e | a) u hu
  · exact he e u hu
  · exact hq a u hu

/-- A program that is run for its outcome does not raise. -/
theorem attempt {G : Except ε (Except ε α) → View σ Λ ι → Prop}
    (h : Triple L t i A p fun r v => G (.ok r) v) : Triple L t i A p.attempt G := by
  refine fun v hv => keeps_tryCatch (keeps_bind (keeps_mono (h v hv) ?_))
  rintro (e | a) u hu
  · exact hu
  · exact hu

/-- One act. -/
theorem perform {l : Λ} {f : ℕ → σ → Option (α × σ)}
    (h : ∀ v a w, A v → f t v.world = some (a, w) → Point L (v.log t i l w) ∧ F (.ok a) (v.log t i l w)) :
    Triple L t i A (.perform l f) F := fun v hv a w hf => h v a w hv hf

end Triple

end Process.Sequential
