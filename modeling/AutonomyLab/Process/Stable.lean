import AutonomyLab.Process.Concurrent

/-!
# Assertions that the others leave alone

Pre- and postconditions of one of many programs.  Between two acts of a thread the others may
run, so what it knows has to be stable: true still after whatever they may do.

* `Logic.Stable` — stable assertions.
* `Logic.Triple` — a program that starts where `K` holds keeps its promise at every act; it
  returns where `F` holds of its value, or raises an exception where `E` holds.
* `Triple.bind`, `Triple.attempt`, … — a rule for each way to compose programs.
* `Triple.act`, `Triple.perform` — one act.
-/

namespace Process.Logic

variable {σ Λ ι ε α : Type} {S : System σ Λ ι ε α} (L : Logic S) (t : ℕ) (i : ι)

/-- What the others may do does not make `K` false. -/
def Stable (K : View σ Λ ι → Prop) : Prop := ∀ v v', L.rely t v v' → K v → K v'

variable {L t i}

theorem Stable.and {K K' : View σ Λ ι → Prop} (h : Stable L t K) (h' : Stable L t K') :
    Stable L t fun v => K v ∧ K' v :=
  fun v v' hr hk => ⟨h v v' hr hk.1, h' v v' hr hk.2⟩

theorem Stable.const {p : Prop} : Stable L t fun _ => p := fun _ _ _ h => h

theorem Stable.exists {γ : Type} {K : γ → View σ Λ ι → Prop} (h : ∀ c, Stable L t (K c)) :
    Stable L t fun v => ∃ c, K c v :=
  fun v v' hr hk => hk.imp fun c hc => h c v v' hr hc

variable {β γ : Type}

/-- What holds of an outcome: `E` after an exception, and `F` of a value. -/
def Ends (E : View σ Λ ι → Prop) (F : β → View σ Λ ι → Prop) : Except ε β → View σ Λ ι → Prop
  | .ok b => F b
  | .error _ => E

variable (L t i) in
/-- From where `K` holds the program may run, and it ends so that `E` or `F` holds. -/
def Triple (E K : View σ Λ ι → Prop) (p : Proc σ Λ ε β) (F : β → View σ Λ ι → Prop) : Prop :=
  ∀ v, K v → L.wp t i p (Ends E F) v

namespace Triple

variable {E E' K K' : View σ Λ ι → Prop} {p : Proc σ Λ ε β} {F F' : β → View σ Λ ι → Prop}

theorem mono (h : Triple L t i E K p F) (hE : ∀ v, E v → E' v) (hK : ∀ v, K' v → K v)
    (hF : ∀ b v, F b v → F' b v) : Triple L t i E' K' p F' := by
  refine fun v hv => wp_mono (h v (hK v hv)) ?_
  rintro (e | b) u _ hu
  · exact hE u hu
  · exact hF b u hu

theorem done {b : β} (hs : Stable L t K) (h : ∀ v, K v → F b v) : Triple L t i E K (.done b) F :=
  fun v hv => wp_done fun v' hr _ => h v' (hs v v' hr hv)

theorem fail {e : ε} (hs : Stable L t K) (h : ∀ v, K v → E v) : Triple L t i E K (.fail e) F :=
  fun v hv => wp_fail fun v' hr _ => h v' (hs v v' hr hv)

theorem ofExcept {r : Except ε β} (hs : Stable L t K) (he : ∀ v, K v → E v)
    (h : ∀ b v, r = .ok b → K v → F b v) : Triple L t i E K (.ofExcept r) F := by
  cases r with
  | ok b => exact done hs fun v => h b v rfl
  | error e => exact fail hs he

theorem choose {k : γ → Proc σ Λ ε β} (h : ∀ c, Triple L t i E K (k c) F) :
    Triple L t i E K (.choose k) F := fun v hv => wp_choose fun c => h c v hv

/-- An answer from outside. -/
theorem ask {k : γ → Proc σ Λ ε β} (h : ∀ c, Triple L t i E K (k c) F) :
    Triple L t i E K ((Proc.ask γ).bind k) F := choose h

/-- Sequencing. -/
theorem bind {q : β → Proc σ Λ ε γ} {G : γ → View σ Λ ι → Prop} (hp : Triple L t i E K p F)
    (hq : ∀ b, Triple L t i E (F b) (q b) G) : Triple L t i E K (p.bind q) G := by
  refine fun v hv => wp_bind (wp_mono (hp v hv) ?_)
  rintro (e | b) u _ hu
  · exact hu
  · exact hq b u hu

/-- A program that is run for its outcome does not raise. -/
theorem attempt {G : Except ε β → View σ Λ ι → Prop}
    (h : Triple L t i (fun v => ∀ e, G (.error e) v) K p fun b v => G (.ok b) v) :
    Triple L t i E' K p.attempt G := by
  refine fun v hv => wp_attempt (wp_mono (h v hv) ?_)
  rintro (e | b) u _ hu
  · exact hu e
  · exact hu

/-- Handling exceptions. -/
theorem tryCatch {q : ε → Proc σ Λ ε β} (h : Triple L t i E' K p F)
    (hq : ∀ e, Triple L t i E E' (q e) F) : Triple L t i E K (p.tryCatch q) F := by
  refine fun v hv => wp_tryCatch (wp_mono (h v hv) ?_)
  rintro (e | b) u _ hu
  · exact hq e u hu
  · exact hu

/-- One act, and what follows it. -/
theorem act {l : Λ} {f : ℕ → σ → Option (γ × σ)} {k : γ → Proc σ Λ ε β} {G : γ → View σ Λ ι → Prop}
    (hs : Stable L t K)
    (h : ∀ v c w, L.inv v → K v → f t v.world = some (c, w) →
      L.guar t i v (v.log t i l w) ∧ G c (v.log t i l w))
    (hk : ∀ c, Triple L t i E (G c) (k c) F) : Triple L t i E K (.act l f k) F := by
  refine fun v hv => wp_act fun v' hr hi c w hf => ?_
  have := h v' c w hi (hs v v' hr hv) hf
  exact ⟨this.1, hk c _ this.2⟩

/-- One act. -/
theorem perform {l : Λ} {f : ℕ → σ → Option (β × σ)} (hs : Stable L t K) (hF : ∀ b, Stable L t (F b))
    (h : ∀ v b w, L.inv v → K v → f t v.world = some (b, w) →
      L.guar t i v (v.log t i l w) ∧ F b (v.log t i l w)) :
    Triple L t i E K (.perform l f) F :=
  act hs h fun b => done (hF b) fun _ hv => hv

end Triple

end Process.Logic
