import Mathlib.Logic.Relation
import AutonomyLab.Process.Basic

/-!
# One process at a time, with crashes

A process has a memory of its own and works on a world that outlives it: files,
and whatever other parties have been sent.  It runs alone, and may be killed
between any two of its acts; its memory is gone then, and another process starts
from what the world has become.

* `Prog` — a program with a memory, as a monad with a state and with exceptions.
  An exception does not undo what was done to the memory.
* `Sequential.Step`, `Sequential.Reachable` — the runs of a system: processes are
  started one after another, in any number, and each may be killed wherever the
  system says it may (`dies`).
* `Sequential.keeps` — a program keeps an invariant at every point it passes
  through, and what must hold for a successor wherever it may be killed.
  `keeps_bind`, `keeps_tryCatch` and `keeps_mono` compose it along the program.
* `Sequential.sound` — if every program that can be started keeps the invariant,
  it holds of every reachable configuration, over any number of crashes.
* `Sequential.Stands.steps` — the same of a run that goes on from a configuration.
* `Sequential.visits` — the converse tool: a point a program may get to, and from
  there a reachable configuration (`Reachable.visits`).
-/

namespace Process

/-! ## Programs with a memory -/

/-- A program over worlds `σ` with a memory of type `μ`. -/
def Prog (μ σ Λ ε α : Type) : Type 1 := μ → Proc σ Λ (ε × μ) (α × μ)

namespace Prog

variable {μ σ Λ ε α β : Type}

/-- Run `p`, then go on with what it returned and the memory it left. -/
def bind (p : Prog μ σ Λ ε α) (q : α → Prog μ σ Λ ε β) : Prog μ σ Λ ε β :=
  fun m => (p m).bind fun r => q r.1 r.2

/-- Run `p`, and `h` on the exception it ends with, in the memory it left. -/
def tryCatch (p : Prog μ σ Λ ε α) (h : ε → Prog μ σ Λ ε α) : Prog μ σ Λ ε α :=
  fun m => (p m).tryCatch fun r => h r.1 r.2

instance : Monad (Prog μ σ Λ ε) where
  pure a := fun m => .done (a, m)
  bind := bind

instance : MonadExceptOf ε (Prog μ σ Λ ε) where
  throw e := fun m => .fail (e, m)
  tryCatch := tryCatch

instance : MonadStateOf μ (Prog μ σ Λ ε) where
  get := fun m => .done (m, m)
  set m := fun _ => .done ((), m)
  modifyGet f := fun m => .done (f m)

/-- One act. -/
def perform (l : Λ) (f : ℕ → σ → Option (β × σ)) : Prog μ σ Λ ε β :=
  fun m => .act l f fun b => .done (b, m)

/-- Ask the environment for a `β`. -/
def ask (β : Type) : Prog μ σ Λ ε β := fun m => .choose fun b : β => .done (b, m)

/-- Log `l` and leave the world as it is. -/
def emit (l : Λ) : Prog μ σ Λ ε Unit := perform l fun _ w => some ((), w)

/-- Go on with the value of `r`, or raise its exception. -/
def ofExcept : Except ε α → Prog μ σ Λ ε α
  | .ok a => pure a
  | .error e => throw e

/-- Run `p` for its result, exception included. -/
def attempt (p : Prog μ σ Λ ε α) : Prog μ σ Λ ε (Except ε α) :=
  tryCatch (bind p fun a => pure (.ok a)) fun e => pure (.error e)

end Prog

/-- Undisturbed, a program can run to its end, whatever it starts with. -/
def Prog.Ends {μ σ Λ ε β : Type} (ι : Type) (p : Prog μ σ Λ ε β) : Prop :=
  ∀ m t (i : ι) v, may t i (p m) (fun _ _ => True) v

theorem Prog.ends_bind {μ σ Λ ε β γ ι : Type} {p : Prog μ σ Λ ε β} {q : β → Prog μ σ Λ ε γ}
    (hp : p.Ends ι) (hq : ∀ b, (q b).Ends ι) : (p >>= q).Ends ι := by
  intro m t i v
  refine may_bind (may_mono (hp m t i v) ?_)
  rintro (e | b) u -
  · trivial
  · exact hq b.1 b.2 t i u

namespace Sequential

variable {σ Λ ι ε α β γ : Type}

/-! ## Runs -/

/-- A system of processes that run one at a time. -/
structure System (σ Λ ι ε α : Type) where
  /-- The worlds it may start from. -/
  init : σ → Prop
  /-- The programs that may be started. -/
  starts : ι → Proc σ Λ ε α → Prop
  /-- Where the running process may be killed. -/
  dies : View σ Λ ι → Prop

/-- A configuration: the view, the process that runs, and how many have been started. -/
structure Conf (σ Λ ι ε α : Type) where
  view : View σ Λ ι
  running : Option (ι × Proc σ Λ ε α)
  count : ℕ

variable (S : System σ Λ ι ε α)

/-- One step of the system. -/
inductive Step : Conf σ Λ ι ε α → Conf σ Λ ι ε α → Prop
  | start {c i p} : c.running = none → S.starts i p → Step c ⟨c.view, some (i, p), c.count + 1⟩
  | act {c i β l f} {k : β → Proc σ Λ ε α} {b w} : c.running = some (i, .act l f k) →
      f c.count c.view.world = some (b, w) →
      Step c ⟨c.view.log c.count i l w, some (i, k b), c.count⟩
  | choose {c i β} {k : β → Proc σ Λ ε α} (b : β) : c.running = some (i, .choose k) →
      Step c ⟨c.view, some (i, k b), c.count⟩
  | done {c i a} : c.running = some (i, .done a) → Step c ⟨c.view, none, c.count⟩
  | fail {c i e} : c.running = some (i, .fail e) → Step c ⟨c.view, none, c.count⟩
  | die {c} : S.dies c.view → Step c ⟨c.view, none, c.count⟩

/-- The configurations the system can reach. -/
inductive Reachable : Conf σ Λ ι ε α → Prop
  | init {w} : S.init w → Reachable ⟨⟨w, []⟩, none, 0⟩
  | step {c c'} : Reachable c → Step S c c' → Reachable c'

variable {S}

/-- Any number of steps. -/
abbrev Steps (S : System σ Λ ι ε α) : Conf σ Λ ι ε α → Conf σ Λ ι ε α → Prop := Relation.ReflTransGen (Step S)

/-- No act is attributed to a process that has not been started. -/
theorem Step.tid_le {c c' : Conf σ Λ ι ε α} (h : Step S c c') (hc : ∀ e ∈ c.view.hist, e.tid ≤ c.count) :
    ∀ e ∈ c'.view.hist, e.tid ≤ c'.count := by
  cases h with
  | start _ _ => exact fun e he => Nat.le_succ_of_le (hc e he)
  | act _ _ =>
      intro e he
      rcases List.mem_cons.1 he with rfl | he
      · exact Nat.le_refl _
      · exact hc e he
  | choose _ _ => exact hc
  | done _ => exact hc
  | fail _ => exact hc
  | die _ => exact hc

theorem Reachable.tid_le {c : Conf σ Λ ι ε α} (h : Reachable S c) :
    ∀ e ∈ c.view.hist, e.tid ≤ c.count := by
  induction h with
  | init hi => exact fun e he => by simp at he
  | step _ hst ih => exact hst.tid_le ih

theorem Reachable.steps {c c' : Conf σ Λ ι ε α} (h : Reachable S c) (hs : Steps S c c') : Reachable S c' := by
  induction hs with
  | refl => exact h
  | tail _ hst ih => exact ih.step hst

/-! ## Invariants over crashes -/

variable (S) in
/-- What a proof about the system is relative to. -/
structure Logic where
  /-- Holds of every reachable view. -/
  inv : View σ Λ ι → Prop
  /-- What a process finds when it starts. -/
  idle : View σ Λ ι → Prop
  inv_init : ∀ {w}, S.init w → inv ⟨w, []⟩
  idle_init : ∀ {w}, S.init w → idle ⟨w, []⟩

variable (L : Logic S)

/-- A point a process may pass through: the invariant holds, and where the process
may be killed a successor finds what it needs. -/
def Point (v : View σ Λ ι) : Prop := L.inv v ∧ (S.dies v → L.idle v)

/-- From the view `v`, process `t` on behalf of `i` passes only through points when it
runs `p`, and `P` holds of the outcome and the view it ends in. -/
def keeps {ε α : Type} (t : ℕ) (i : ι) : Proc σ Λ ε α → (Except ε α → View σ Λ ι → Prop) →
    View σ Λ ι → Prop
  | .done a, P, v => P (.ok a) v
  | .fail e, P, v => P (.error e) v
  | .act l f k, P, v => ∀ b w, f t v.world = some (b, w) →
      Point L (v.log t i l w) ∧ keeps t i (k b) P (v.log t i l w)
  | .choose k, P, v => ∀ b, keeps t i (k b) P v

variable {L} {t : ℕ} {i : ι}

theorem keeps_mono {ε : Type} {p : Proc σ Λ ε β} {P Q : Except ε β → View σ Λ ι → Prop}
    {v : View σ Λ ι} (h : keeps L t i p P v) (hPQ : ∀ r u, P r u → Q r u) :
    keeps L t i p Q v := by
  induction p generalizing v with
  | done a => exact hPQ _ _ h
  | fail e => exact hPQ _ _ h
  | act l f k ih => exact fun b w hf => ⟨(h b w hf).1, ih b (h b w hf).2⟩
  | choose k ih => exact fun b => ih b (h b)

/-- Sequencing. -/
theorem keeps_bind {ε : Type} {p : Proc σ Λ ε β} {q : β → Proc σ Λ ε γ}
    {P : Except ε γ → View σ Λ ι → Prop} {v : View σ Λ ι}
    (h : keeps L t i p (fun r u => match r with
      | .ok b => keeps L t i (q b) P u
      | .error e => P (.error e) u) v) : keeps L t i (p.bind q) P v := by
  induction p generalizing v with
  | done a => exact h
  | fail e => exact h
  | act l f k ih => exact fun b w hf => ⟨(h b w hf).1, ih b (h b w hf).2⟩
  | choose k ih => exact fun b => ih b (h b)

/-- Handling exceptions. -/
theorem keeps_tryCatch {ε : Type} {p : Proc σ Λ ε β} {q : ε → Proc σ Λ ε β}
    {P : Except ε β → View σ Λ ι → Prop} {v : View σ Λ ι}
    (h : keeps L t i p (fun r u => match r with
      | .ok b => P (.ok b) u
      | .error e => keeps L t i (q e) P u) v) : keeps L t i (p.tryCatch q) P v := by
  induction p generalizing v with
  | done a => exact h
  | fail e => exact h
  | act l f k ih => exact fun b w hf => ⟨(h b w hf).1, ih b (h b w hf).2⟩
  | choose k ih => exact fun b => ih b (h b)

/-- Sequencing of programs with a memory. -/
theorem keeps_andThen {μ ε : Type} {p : Prog μ σ Λ ε β} {q : β → Prog μ σ Λ ε γ} {m : μ}
    {P : Except (ε × μ) (γ × μ) → View σ Λ ι → Prop} {v : View σ Λ ι}
    (h : keeps L t i (p m) (fun r u => match r with
      | .ok b => keeps L t i (q b.1 b.2) P u
      | .error e => P (.error e) u) v) : keeps L t i ((p >>= q) m) P v := by
  refine keeps_bind (keeps_mono h ?_)
  rintro (e | b) u hu
  · exact hu
  · exact hu

section
variable {μ ε : Type} {m : μ} {P : Except (ε × μ) (γ × μ) → View σ Λ ι → Prop} {v : View σ Λ ι}

/-- Sequencing after a program whose result is known. -/
theorem keeps_then {p : Prog μ σ Λ ε β} {q : β → Prog μ σ Λ ε γ} {b : β} {m' : μ}
    {Q : View σ Λ ι → Prop} (hp : keeps L t i (p m) (fun r u => r = .ok (b, m') ∧ Q u) v)
    (hq : ∀ u, Q u → keeps L t i (q b m') P u) : keeps L t i ((p >>= q) m) P v := by
  refine keeps_andThen (keeps_mono hp ?_)
  rintro _ u ⟨rfl, hu⟩
  exact hq u hu

theorem keeps_pure {b : β} {q : β → Prog μ σ Λ ε γ} (h : keeps L t i (q b m) P v) :
    keeps L t i ((pure b >>= q) m) P v := h

/-- An answer from outside. -/
theorem keeps_ask {q : β → Prog μ σ Λ ε γ} (h : ∀ b, keeps L t i (q b m) P v) :
    keeps L t i ((Prog.ask β >>= q) m) P v := h

theorem keeps_get {q : μ → Prog μ σ Λ ε γ} (h : keeps L t i (q m m) P v) :
    keeps L t i ((get >>= q) m) P v := h

theorem keeps_set {m' : μ} {q : PUnit → Prog μ σ Λ ε γ} (h : keeps L t i (q ⟨⟩ m') P v) :
    keeps L t i ((set m' >>= q) m) P v := h

theorem keeps_modify {f : μ → μ} {q : PUnit → Prog μ σ Λ ε γ} (h : keeps L t i (q ⟨⟩ (f m)) P v) :
    keeps L t i ((modify f >>= q) m) P v := h

/-- A result that is there. -/
theorem keeps_ofExcept {b : β} {q : β → Prog μ σ Λ ε γ} (h : keeps L t i (q b m) P v) :
    keeps L t i ((Prog.ofExcept (.ok b) >>= q) m) P v := h

end

/-- A program that is run for its result does not raise. -/
theorem keeps_attempt {μ ε : Type} {p : Prog μ σ Λ ε β} {m : μ}
    {P : Except (ε × μ) (Except ε β × μ) → View σ Λ ι → Prop} {v : View σ Λ ι}
    (h : keeps L t i (p m) (fun r u => match r with
      | .ok b => P (.ok (.ok b.1, b.2)) u
      | .error e => P (.ok (.error e.1, e.2)) u) v) : keeps L t i (p.attempt m) P v := by
  refine keeps_tryCatch (keeps_andThen (keeps_mono h ?_))
  rintro (e | b) u hu
  · exact hu
  · exact hu

/-- Undisturbed, a program that keeps the invariant ends as it is known to. -/
theorem must_of_keeps {ε : Type} {p : Proc σ Λ ε β} {P : Except ε β → View σ Λ ι → Prop}
    {v : View σ Λ ι} (h : keeps L t i p P v) : must t i p P v := by
  induction p generalizing v with
  | done a => exact h
  | fail e => exact h
  | act l f k ih => exact fun b w hf => ih b (h b w hf).2
  | choose k ih => exact fun b => ih b (h b)

/-- Every program that can be started keeps the invariant and leaves what a successor
needs. -/
def Sound (L : Logic S) : Prop :=
  ∀ t i p v, L.inv v → L.idle v → (∀ e ∈ v.hist, e.tid < t) → S.starts i p →
    keeps L t i p (fun _ u => L.idle u) v

/-- Where a configuration stands in the proof. -/
structure Stands (L : Logic S) (c : Conf σ Λ ι ε α) : Prop where
  point : Point L c.view
  idle : c.running = none → L.idle c.view
  running : ∀ i p, c.running = some (i, p) → keeps L c.count i p (fun _ u => L.idle u) c.view

theorem Stands.step (hs : Sound L) {c c' : Conf σ Λ ι ε α} (hc : ∀ e ∈ c.view.hist, e.tid ≤ c.count)
    (h : Stands L c) (hst : Step S c c') : Stands L c' := by
  cases hst with
  | @start i p hn hp =>
      refine ⟨h.point, by rintro ⟨⟩, ?_⟩
      rintro _ _ ⟨⟩
      exact hs _ i p _ h.point.1 (h.idle hn) (fun e he => Nat.lt_succ_of_le (hc e he)) hp
  | act hr hf =>
      obtain ⟨hpt, hk⟩ := h.running _ _ hr _ _ hf
      refine ⟨hpt, by rintro ⟨⟩, ?_⟩
      rintro _ _ ⟨⟩
      exact hk
  | choose b hr =>
      refine ⟨h.point, by rintro ⟨⟩, ?_⟩
      rintro _ _ ⟨⟩
      exact h.running _ _ hr b
  | done hr => exact ⟨h.point, fun _ => h.running _ _ hr, by rintro _ _ ⟨⟩⟩
  | fail hr => exact ⟨h.point, fun _ => h.running _ _ hr, by rintro _ _ ⟨⟩⟩
  | die hd => exact ⟨h.point, fun _ => h.point.2 hd, by rintro _ _ ⟨⟩⟩

/-- **Soundness.**  If every program that can be started keeps the invariant, every
reachable configuration stands. -/
theorem sound (hs : Sound L) {c : Conf σ Λ ι ε α} (h : Reachable S c) : Stands L c := by
  induction h with
  | init hi => exact ⟨⟨L.inv_init hi, fun _ => L.idle_init hi⟩, fun _ => L.idle_init hi, by rintro _ _ ⟨⟩⟩
  | step hc hst ih => exact ih.step hs hc.tid_le hst

/-- The invariant holds of every reachable view. -/
theorem Reachable.inv (hs : Sound L) {c : Conf σ Λ ι ε α} (h : Reachable S c) : L.inv c.view :=
  (sound hs h).point.1

/-! ## From here on -/

/-- The system without a beginning: a proof about it is about its steps alone. -/
def System.onward (S : System σ Λ ι ε α) : System σ Λ ι ε α := { S with init := fun _ => False }

/-- **Soundness from here on.**  Where a configuration stands, every one that the system gets to
from it does. -/
theorem Stands.steps {L : Logic S.onward} (hs : Sound L) {c c' : Conf σ Λ ι ε α}
    (hc : ∀ e ∈ c.view.hist, e.tid ≤ c.count) (h : Stands L c) (hst : Steps S c c') : Stands L c' := by
  have hstep : ∀ {c c'}, Step S c c' → Step S.onward c c' := by
    intro c c' h
    cases h with
    | start hn hp => exact .start hn hp
    | act hr hf => exact .act hr hf
    | choose b hr => exact .choose b hr
    | done hr => exact .done hr
    | fail hr => exact .fail hr
    | die hd => exact .die hd
  have hboth : (∀ e ∈ c'.view.hist, e.tid ≤ c'.count) ∧ Stands L c' := by
    induction hst with
    | refl => exact ⟨hc, h⟩
    | tail _ hst ih => exact ⟨hst.tid_le ih.1, ih.2.step hs ih.1 (hstep hst)⟩
  exact hboth.2

/-! ## Points that are reached -/

/-- Process `t` on behalf of `i`, running `p` from the view `v`, may get to a view of
which `P` holds. -/
def visits {ε α : Type} (t : ℕ) (i : ι) : Proc σ Λ ε α → (View σ Λ ι → Prop) →
    View σ Λ ι → Prop
  | .done _, P, v => P v
  | .fail _, P, v => P v
  | .act l f k, P, v => P v ∨ ∃ b w, f t v.world = some (b, w) ∧ visits t i (k b) P (v.log t i l w)
  | .choose k, P, v => P v ∨ ∃ b, visits t i (k b) P v

theorem visits_here {ε : Type} {p : Proc σ Λ ε β} {P : View σ Λ ι → Prop} {v : View σ Λ ι}
    (h : P v) : visits t i p P v := by
  cases p with
  | done a => exact h
  | fail e => exact h
  | act l f k => exact .inl h
  | choose k => exact .inl h

theorem visits_mono {ε : Type} {p : Proc σ Λ ε β} {P Q : View σ Λ ι → Prop} {v : View σ Λ ι}
    (h : visits t i p P v) (hPQ : ∀ u, P u → Q u) : visits t i p Q v := by
  induction p generalizing v with
  | done a => exact hPQ _ h
  | fail e => exact hPQ _ h
  | act l f k ih => exact h.imp (hPQ _) fun ⟨b, w, hf, hk⟩ => ⟨b, w, hf, ih b hk⟩
  | choose k ih => exact h.imp (hPQ _) fun ⟨b, hk⟩ => ⟨b, ih b hk⟩

/-- A point of the second program, after the first. -/
theorem visits_bind {ε : Type} {p : Proc σ Λ ε β} {q : β → Proc σ Λ ε γ} {P : View σ Λ ι → Prop}
    {v : View σ Λ ι} (h : may t i p (fun r u => ∃ b, r = .ok b ∧ visits t i (q b) P u) v) :
    visits t i (p.bind q) P v := by
  induction p generalizing v with
  | done a =>
      obtain ⟨_, ⟨⟩, hq⟩ := h
      exact hq
  | fail e =>
      obtain ⟨_, he, _⟩ := h
      cases he
  | act l f k ih =>
      obtain ⟨b, w, hf, hk⟩ := h
      exact .inr ⟨b, w, hf, ih b hk⟩
  | choose k ih =>
      obtain ⟨b, hk⟩ := h
      exact .inr ⟨b, ih b hk⟩

/-- A point of the first program. -/
theorem visits_bind_left {ε : Type} {p : Proc σ Λ ε β} {q : β → Proc σ Λ ε γ}
    {P : View σ Λ ι → Prop} {v : View σ Λ ι} (h : visits t i p P v) :
    visits t i (p.bind q) P v := by
  induction p generalizing v with
  | done a => exact visits_here h
  | fail e => exact h
  | act l f k ih => exact h.imp_right fun ⟨b, w, hf, hk⟩ => ⟨b, w, hf, ih b hk⟩
  | choose k ih => exact h.imp_right fun ⟨b, hk⟩ => ⟨b, ih b hk⟩

/-- A point of a program whose exceptions are handled. -/
theorem visits_tryCatch {ε : Type} {p : Proc σ Λ ε β} {q : ε → Proc σ Λ ε β}
    {P : View σ Λ ι → Prop} {v : View σ Λ ι} (h : visits t i p P v) :
    visits t i (p.tryCatch q) P v := by
  induction p generalizing v with
  | done a => exact h
  | fail e => exact visits_here h
  | act l f k ih => exact h.imp_right fun ⟨b, w, hf, hk⟩ => ⟨b, w, hf, ih b hk⟩
  | choose k ih => exact h.imp_right fun ⟨b, hk⟩ => ⟨b, ih b hk⟩

section
variable {μ ε : Type} {p : Prog μ σ Λ ε β} {q : β → Prog μ σ Λ ε γ} {m m' : μ} {b : β}
  {P : View σ Λ ι → Prop} {v : View σ Λ ι}

theorem visits_andThen (h : may t i (p m) (fun r u => r = .ok (b, m') ∧ visits t i (q b m') P u) v) :
    visits t i ((p >>= q) m) P v := by
  refine visits_bind (may_mono h ?_)
  rintro _ u ⟨rfl, hu⟩
  exact ⟨_, rfl, hu⟩

theorem visits_left (h : visits t i (p m) P v) : visits t i ((p >>= q) m) P v := visits_bind_left h

theorem visits_attempt (h : visits t i (p m) P v) : visits t i (p.attempt m) P v :=
  visits_tryCatch (visits_bind_left h)

theorem visits_ask (b : β) (h : visits t i (q b m) P v) : visits t i ((Prog.ask β >>= q) m) P v :=
  .inr ⟨b, h⟩

end

/-- Where a program may get to, the system may. -/
theorem Reachable.running {c : Conf σ Λ ι ε α} (h : Reachable S c) {p : Proc σ Λ ε α}
    (hr : c.running = some (i, p)) {P : View σ Λ ι → Prop} (hv : visits c.count i p P c.view) :
    ∃ c', Reachable S c' ∧ c'.count = c.count ∧ P c'.view := by
  induction p generalizing c with
  | done a => exact ⟨c, h, rfl, hv⟩
  | fail e => exact ⟨c, h, rfl, hv⟩
  | act l f k ih =>
      rcases hv with hv | ⟨b, w, hf, hk⟩
      · exact ⟨c, h, rfl, hv⟩
      · exact ih b (c := ⟨c.view.log c.count i l w, some (i, k b), c.count⟩) (h.step (.act hr hf))
          rfl hk
  | choose k ih =>
      rcases hv with hv | ⟨b, hk⟩
      · exact ⟨c, h, rfl, hv⟩
      · exact ih b (c := ⟨c.view, some (i, k b), c.count⟩) (h.step (.choose b hr)) rfl hk

/-- A process that is started and killed leaves a configuration from which the next can
be started. -/
theorem Reachable.visits {c : Conf σ Λ ι ε α} (h : Reachable S c) (hn : c.running = none)
    {p : Proc σ Λ ε α} (hp : S.starts i p) {P : View σ Λ ι → Prop}
    (hv : visits (c.count + 1) i p (fun v => S.dies v ∧ P v) c.view) :
    ∃ c', Reachable S c' ∧ c'.running = none ∧ c'.count = c.count + 1 ∧ P c'.view := by
  obtain ⟨c', hc', hcount, hd, hP⟩ := (h.step (.start hn hp)).running rfl hv
  exact ⟨_, hc'.step (.die hd), rfl, hcount, hP⟩

end Sequential

end Process
