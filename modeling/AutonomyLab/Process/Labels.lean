import AutonomyLab.Process.Sequential

/-!
# What a program may do at all

Some facts about a run hold of each act by itself, whatever the world is and whatever the
program is answered: they are read off the text of the program.

* `Proc.Labels`, `Prog.Labels` — every act that a program may come to has a property.
* `Sequential.Reachable.labels` — the acts of a system, from those of the programs it starts.
-/

namespace Process

variable {σ Λ ε α β ι : Type}

/-- Every act that `p` may come to is one of which `Q` holds. -/
def Proc.Labels (Q : Λ → Prop) : Proc σ Λ ε α → Prop
  | .done _ => True
  | .fail _ => True
  | .act l _ k => Q l ∧ ∀ b, (k b).Labels Q
  | .choose k => ∀ b, (k b).Labels Q

section
variable {Q : Λ → Prop}

theorem Proc.labels_bind {p : Proc σ Λ ε α} {q : α → Proc σ Λ ε β} (hp : p.Labels Q)
    (hq : ∀ a, (q a).Labels Q) : (p.bind q).Labels Q := by
  induction p with
  | done a => exact hq a
  | fail e => trivial
  | act l f k ih => exact ⟨hp.1, fun b => ih b (hp.2 b)⟩
  | choose k ih => exact fun b => ih b (hp b)

theorem Proc.labels_tryCatch {p : Proc σ Λ ε α} {q : ε → Proc σ Λ ε α} (hp : p.Labels Q)
    (hq : ∀ e, (q e).Labels Q) : (p.tryCatch q).Labels Q := by
  induction p with
  | done a => trivial
  | fail e => exact hq e
  | act l f k ih => exact ⟨hp.1, fun b => ih b (hp.2 b)⟩
  | choose k ih => exact fun b => ih b (hp b)

variable {μ : Type}

/-- Every act that `p` may come to, from any memory, is one of which `Q` holds. -/
def Prog.Labels (Q : Λ → Prop) (p : Prog μ σ Λ ε α) : Prop := ∀ m, (p m).Labels Q

namespace Prog

theorem labels_bind {p : Prog μ σ Λ ε α} {q : α → Prog μ σ Λ ε β} (hp : p.Labels Q)
    (hq : ∀ a, (q a).Labels Q) : (p >>= q).Labels Q :=
  fun m => Proc.labels_bind (hp m) fun a => hq a.1 a.2

theorem labels_pure (a : α) : (pure a : Prog μ σ Λ ε α).Labels Q := fun _ => trivial

theorem labels_throw (e : ε) : (throw e : Prog μ σ Λ ε α).Labels Q := fun _ => trivial

theorem labels_get : (get : Prog μ σ Λ ε μ).Labels Q := fun _ => trivial

theorem labels_set (m : μ) : (set m : Prog μ σ Λ ε PUnit).Labels Q := fun _ => trivial

theorem labels_modify (f : μ → μ) : (modify f : Prog μ σ Λ ε PUnit).Labels Q := fun _ => trivial

theorem labels_ask (β : Type) : (Prog.ask β : Prog μ σ Λ ε β).Labels Q := fun _ _ => trivial

theorem labels_perform {l : Λ} {f : ℕ → σ → Option (β × σ)} (h : Q l) :
    (Prog.perform l f : Prog μ σ Λ ε β).Labels Q := fun _ => ⟨h, fun _ => trivial⟩

theorem labels_ofExcept (r : Except ε α) : (Prog.ofExcept r : Prog μ σ Λ ε α).Labels Q := by
  cases r with
  | ok a => exact labels_pure a
  | error e => exact labels_throw e

theorem labels_attempt {p : Prog μ σ Λ ε α} (hp : p.Labels Q) : p.attempt.Labels Q := by
  intro m
  have hbind : (p >>= fun a => pure (.ok a) : Prog μ σ Λ ε (Except ε α)).Labels Q :=
    labels_bind hp fun a => labels_pure _
  exact Proc.labels_tryCatch (hbind m) fun _ => trivial

end Prog

end

namespace Sequential

variable {S : System σ Λ ι ε α} {Q : ι → Λ → Prop}

/-- **Every act of a run** is one that the program of its actor may come to. -/
theorem Reachable.labels (hS : ∀ i p, S.starts i p → p.Labels (Q i)) {c : Conf σ Λ ι ε α}
    (h : Reachable S c) : ∀ e ∈ c.view.hist, Q e.actor e.label := by
  have hinv : (∀ e ∈ c.view.hist, Q e.actor e.label) ∧
      ∀ i p, c.running = some (i, p) → p.Labels (Q i) := by
    induction h with
    | init hi => exact ⟨fun e he => absurd he List.not_mem_nil, nofun⟩
    | step hc hst ih =>
        obtain ⟨hhist, hrunning⟩ := ih
        cases hst with
        | start hn hp =>
            refine ⟨hhist, ?_⟩
            rintro _ _ ⟨⟩
            exact hS _ _ hp
        | act hr hf =>
            obtain ⟨hl, hk⟩ := hrunning _ _ hr
            refine ⟨fun e he => ?_, ?_⟩
            · rcases List.mem_cons.1 he with rfl | he
              · exact hl
              · exact hhist e he
            · rintro _ _ ⟨⟩
              exact hk _
        | choose b hr =>
            refine ⟨hhist, ?_⟩
            rintro _ _ ⟨⟩
            exact hrunning _ _ hr b
        | done hr => exact ⟨hhist, nofun⟩
        | fail hr => exact ⟨hhist, nofun⟩
        | die hd => exact ⟨hhist, nofun⟩
  exact hinv.1

end Sequential

end Process
