import Mathlib.Logic.Function.Basic
import Mathlib.Data.Nat.Notation

/-!
# Processes over a shared world

A small language for programs whose effects on the outside happen in atomic
steps.  `Proc σ Λ ε α` is a program over a world of type `σ`: it ends with a
value of type `α` or with an exception of type `ε`, and on the way it performs
**acts** — atomic, labelled transformations of the world, such as a committed
transaction, a file that is replaced, a request that leaves the process — and
**choices**, where the environment supplies an answer the program does not
control.

* `Proc` is a monad with exceptions (`Proc.bind`, `Proc.tryCatch`), so a program
  reads like the imperative code it models.
* An act may be disabled in the present world (a lock is taken); a process that
  reaches it waits.
* `Event` and `View` record what happened: a view is the present world together
  with every act so far, newest first, each with the world before and after it;
  `Always` says something of every act and what came before it.

The two ways of running processes, many at a time with a shared world
(`Process.Concurrent`) and one at a time with crashes (`Process.Sequential`),
are built on this file.
-/

namespace Process

/-- A program over worlds `σ` that logs acts labelled by `Λ`, may raise
exceptions of type `ε`, and returns an `α`. -/
inductive Proc (σ Λ ε : Type) (α : Type) : Type 1
  /-- The program has returned. -/
  | done (a : α)
  /-- The program has ended with an exception. -/
  | fail (e : ε)
  /-- One atomic act.  It is given the number of the thread that performs it;
  where it is `none` the act has to wait. -/
  | act {β : Type} (l : Λ) (f : ℕ → σ → Option (β × σ)) (k : β → Proc σ Λ ε α)
  /-- An answer from outside, about which nothing is known. -/
  | choose {β : Type} (k : β → Proc σ Λ ε α)

namespace Proc

variable {σ Λ ε α β γ : Type}

/-- Run `p`, then go on with what it returned. -/
def bind : Proc σ Λ ε α → (α → Proc σ Λ ε β) → Proc σ Λ ε β
  | .done a, q => q a
  | .fail e, _ => .fail e
  | .act l f k, q => .act l f fun b => (k b).bind q
  | .choose k, q => .choose fun b => (k b).bind q

/-- Run `p`, and `h` on the exception it ends with, if it does. -/
def tryCatch : Proc σ Λ ε α → (ε → Proc σ Λ ε α) → Proc σ Λ ε α
  | .done a, _ => .done a
  | .fail e, h => h e
  | .act l f k, h => .act l f fun b => (k b).tryCatch h
  | .choose k, h => .choose fun b => (k b).tryCatch h

instance : Monad (Proc σ Λ ε) where
  pure := .done
  bind := bind

instance : MonadExceptOf ε (Proc σ Λ ε) where
  throw := .fail
  tryCatch := tryCatch

/-- One act, as a program of its own. -/
def perform (l : Λ) (f : ℕ → σ → Option (β × σ)) : Proc σ Λ ε β := .act l f .done

/-- Ask the environment for a `β`. -/
def ask (β : Type) : Proc σ Λ ε β := .choose (β := β) .done

/-- Log `l` and leave the world as it is. -/
def emit (l : Λ) : Proc σ Λ ε Unit := perform l fun _ w => some ((), w)

/-- Read the world. -/
def read (l : Λ) (f : σ → β) : Proc σ Λ ε β := perform l fun _ w => some (f w, w)

/-- Go on with the value of `r`, or raise its exception. -/
def ofExcept : Except ε α → Proc σ Λ ε α
  | .ok a => .done a
  | .error e => .fail e

/-- Run `p` for its result, exception included. -/
def attempt (p : Proc σ Λ ε α) : Proc σ Λ ε (Except ε α) :=
  tryCatch (bind p fun a => .done (.ok a)) fun e => .done (.error e)

@[simp] theorem pure_eq (a : α) : (pure a : Proc σ Λ ε α) = .done a := rfl

@[simp] theorem throw_eq (e : ε) : (throw e : Proc σ Λ ε α) = .fail e := rfl

@[simp] theorem bind_eq (p : Proc σ Λ ε α) (q : α → Proc σ Λ ε β) : p >>= q = p.bind q := rfl

@[simp] theorem tryCatch_eq (p : Proc σ Λ ε α) (h : ε → Proc σ Λ ε α) :
    tryCatchThe ε p h = p.tryCatch h := rfl

@[simp] theorem done_bind (a : α) (q : α → Proc σ Λ ε β) : (done a).bind q = q a := rfl

@[simp] theorem fail_bind (e : ε) (q : α → Proc σ Λ ε β) : (fail e : Proc σ Λ ε α).bind q = .fail e :=
  rfl

@[simp] theorem ofExcept_ok (a : α) : (ofExcept (.ok a) : Proc σ Λ ε α) = .done a := rfl

@[simp] theorem ofExcept_error (e : ε) : (ofExcept (.error e) : Proc σ Λ ε α) = .fail e := rfl

end Proc

/-! ## What has happened -/

/-- One act that took place: who performed it, and the worlds around it. -/
structure Event (σ Λ ι : Type) where
  /-- The thread that performed the act. -/
  tid : ℕ
  /-- The process on whose behalf the thread runs. -/
  actor : ι
  label : Λ
  /-- The world the act found. -/
  pre : σ
  /-- The world the act left. -/
  post : σ

/-- The present world, and every act so far, newest first. -/
structure View (σ Λ ι : Type) where
  world : σ
  hist : List (Event σ Λ ι)

namespace View

variable {σ Λ ι : Type}

/-- The view after thread `t` of process `i` performed an act that left `w`. -/
def log (v : View σ Λ ι) (t : ℕ) (i : ι) (l : Λ) (w : σ) : View σ Λ ι :=
  ⟨w, ⟨t, i, l, v.world, w⟩ :: v.hist⟩

@[simp] theorem log_world (v : View σ Λ ι) (t : ℕ) (i : ι) (l : Λ) (w : σ) :
    (v.log t i l w).world = w := rfl

@[simp] theorem log_hist (v : View σ Λ ι) (t : ℕ) (i : ι) (l : Λ) (w : σ) :
    (v.log t i l w).hist = ⟨t, i, l, v.world, w⟩ :: v.hist := rfl

end View

/-- `P e before` holds of every act `e` of a history and the acts `before` it. -/
def Always {σ Λ ι : Type} (P : Event σ Λ ι → List (Event σ Λ ι) → Prop) :
    List (Event σ Λ ι) → Prop
  | [] => True
  | e :: h => P e h ∧ Always P h

theorem Always.of_append {σ Λ ι : Type} {P : Event σ Λ ι → List (Event σ Λ ι) → Prop}
    {after before : List (Event σ Λ ι)} {e : Event σ Λ ι} (h : Always P (after ++ e :: before)) :
    P e before := by
  induction after with
  | nil => exact h.1
  | cons d after ih => exact ih h.2

/-! ## Undisturbed runs -/

/-- Undisturbed, thread `t` of process `i` may run `p` to its end, with answers that suit
it, so that `P` holds of its outcome and the view it ends in. -/
def may {σ Λ ι ε α : Type} (t : ℕ) (i : ι) : Proc σ Λ ε α → (Except ε α → View σ Λ ι → Prop) →
    View σ Λ ι → Prop
  | .done a, P, v => P (.ok a) v
  | .fail e, P, v => P (.error e) v
  | .act l f k, P, v => ∃ b w, f t v.world = some (b, w) ∧ may t i (k b) P (v.log t i l w)
  | .choose k, P, v => ∃ b, may t i (k b) P v

/-- Undisturbed, thread `t` of process `i` can run `p` to its end only so that `P` holds of
its outcome and the view it ends in. -/
def must {σ Λ ι ε α : Type} (t : ℕ) (i : ι) : Proc σ Λ ε α → (Except ε α → View σ Λ ι → Prop) →
    View σ Λ ι → Prop
  | .done a, P, v => P (.ok a) v
  | .fail e, P, v => P (.error e) v
  | .act l f k, P, v => ∀ b w, f t v.world = some (b, w) → must t i (k b) P (v.log t i l w)
  | .choose k, P, v => ∀ b, must t i (k b) P v

section
variable {σ Λ ι ε β γ : Type} {t : ℕ} {i : ι}

theorem may_mono {p : Proc σ Λ ε β} {P Q : Except ε β → View σ Λ ι → Prop} {v : View σ Λ ι}
    (h : may t i p P v) (hPQ : ∀ r u, P r u → Q r u) : may t i p Q v := by
  induction p generalizing v with
  | done a => exact hPQ _ _ h
  | fail e => exact hPQ _ _ h
  | act l f k ih =>
      obtain ⟨b, w, hf, hk⟩ := h
      exact ⟨b, w, hf, ih b hk⟩
  | choose k ih =>
      obtain ⟨b, hk⟩ := h
      exact ⟨b, ih b hk⟩

theorem may_bind {p : Proc σ Λ ε β} {q : β → Proc σ Λ ε γ} {P : Except ε γ → View σ Λ ι → Prop}
    {v : View σ Λ ι} (h : may t i p (fun r u => match r with
      | .ok b => may t i (q b) P u
      | .error e => P (.error e) u) v) : may t i (p.bind q) P v := by
  induction p generalizing v with
  | done a => exact h
  | fail e => exact h
  | act l f k ih =>
      obtain ⟨b, w, hf, hk⟩ := h
      exact ⟨b, w, hf, ih b hk⟩
  | choose k ih =>
      obtain ⟨b, hk⟩ := h
      exact ⟨b, ih b hk⟩

theorem may_tryCatch {p : Proc σ Λ ε β} {q : ε → Proc σ Λ ε β}
    {P : Except ε β → View σ Λ ι → Prop} {v : View σ Λ ι}
    (h : may t i p (fun r u => match r with
      | .ok b => P (.ok b) u
      | .error e => may t i (q e) P u) v) : may t i (p.tryCatch q) P v := by
  induction p generalizing v with
  | done a => exact h
  | fail e => exact h
  | act l f k ih =>
      obtain ⟨b, w, hf, hk⟩ := h
      exact ⟨b, w, hf, ih b hk⟩
  | choose k ih =>
      obtain ⟨b, hk⟩ := h
      exact ⟨b, ih b hk⟩

theorem may_attempt {p : Proc σ Λ ε β} {P : Except ε (Except ε β) → View σ Λ ι → Prop}
    {v : View σ Λ ι} (h : may t i p (fun r u => P (.ok r) u) v) : may t i p.attempt P v := by
  refine may_tryCatch (may_bind (may_mono h ?_))
  rintro (e | b) u hu
  · exact hu
  · exact hu

theorem must_mono {p : Proc σ Λ ε β} {P Q : Except ε β → View σ Λ ι → Prop} {v : View σ Λ ι}
    (h : must t i p P v) (hPQ : ∀ r u, P r u → Q r u) : must t i p Q v := by
  induction p generalizing v with
  | done a => exact hPQ _ _ h
  | fail e => exact hPQ _ _ h
  | act l f k ih =>
      intro b w hf
      exact ih b (h b w hf)
  | choose k ih =>
      intro b
      exact ih b (h b)

theorem must_bind {p : Proc σ Λ ε β} {q : β → Proc σ Λ ε γ} {P : Except ε γ → View σ Λ ι → Prop}
    {v : View σ Λ ι} (h : must t i p (fun r u => match r with
      | .ok b => must t i (q b) P u
      | .error e => P (.error e) u) v) : must t i (p.bind q) P v := by
  induction p generalizing v with
  | done a => exact h
  | fail e => exact h
  | act l f k ih =>
      intro b w hf
      exact ih b (h b w hf)
  | choose k ih =>
      intro b
      exact ih b (h b)

/-- A run that may be is one with a certain outcome, in a certain view. -/
theorem exists_outcome {p : Proc σ Λ ε β} {P : Except ε β → View σ Λ ι → Prop} {v : View σ Λ ι}
    (h : may t i p P v) : ∃ r u, P r u ∧ may t i p (fun r' u' => r' = r ∧ u' = u) v := by
  induction p generalizing v with
  | done a => exact ⟨_, _, h, rfl, rfl⟩
  | fail e => exact ⟨_, _, h, rfl, rfl⟩
  | act l f k ih =>
      obtain ⟨b, w, hf, hk⟩ := h
      obtain ⟨r, u, hP, hmay⟩ := ih b hk
      exact ⟨r, u, hP, b, w, hf, hmay⟩
  | choose k ih =>
      obtain ⟨b, hk⟩ := h
      obtain ⟨r, u, hP, hmay⟩ := ih b hk
      exact ⟨r, u, hP, b, hmay⟩

/-- A run that may be, ends as every run must. -/
theorem exists_of_may {p : Proc σ Λ ε β} {P Q : Except ε β → View σ Λ ι → Prop} {v : View σ Λ ι}
    (h : may t i p P v) (hQ : must t i p Q v) : ∃ r u, P r u ∧ Q r u := by
  induction p generalizing v with
  | done a => exact ⟨_, _, h, hQ⟩
  | fail e => exact ⟨_, _, h, hQ⟩
  | act l f k ih =>
      obtain ⟨b, w, hf, hk⟩ := h
      exact ih b hk (hQ b w hf)
  | choose k ih =>
      obtain ⟨b, hk⟩ := h
      exact ih b hk (hQ b)

end

end Process
