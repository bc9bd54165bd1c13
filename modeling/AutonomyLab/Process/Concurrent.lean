import Mathlib.Logic.Relation
import AutonomyLab.Process.Basic

/-!
# Many processes at once, and rely–guarantee reasoning

Any number of threads run programs over one world.  A step of the system is one
atomic act of one thread, an answer the environment gives to one thread, the
start of a new call, the sudden end of a set of threads, or a change the
environment makes on its own (`Step`).  Nothing is assumed about the scheduler:
`Reachable` closes the start under all of them, in every order.

To prove something of every schedule one looks at one program at a time.

* `Logic` — what a proof is relative to: an invariant, what each thread promises
  of its acts (`guar`), and what a thread may count on between its own acts
  (`rely`), with the laws that make the promises of the others add up to it.
* `wp` — the program keeps its promise at every act, whatever the others do in
  between, and establishes a postcondition.  `wp_bind`, `wp_attempt` and
  `wp_mono` compose it along the program; `wp_of_rely` moves it to a later view.
* `sound` — if every call that can be made satisfies `wp`, then in every
  reachable configuration the invariant holds and every thread is where its `wp`
  says; `viewReach` draws the conclusion a user wants: every reachable view is
  reached by promised acts only, so an invariant of the promises is an invariant
  of the system.
* `Proc.Acts`, `Confined` — where no more is needed of a program than what each of its
  acts does to the world, whatever came before.
-/

namespace Process

variable {σ Λ ι ε α : Type}

/-- A configuration: the view, the threads that still exist with the process
each belongs to, and the number the next thread will get. -/
structure Conf (σ Λ ι ε α : Type) where
  view : View σ Λ ι
  threads : ℕ → Option (ι × Proc σ Λ ε α)
  next : ℕ

/-- What a system may do besides running its threads. -/
structure System (σ Λ ι ε α : Type) where
  /-- The worlds it may start from. -/
  init : σ → Prop
  /-- The calls that may be made in a configuration. -/
  calls : Conf σ Λ ι ε α → ι → Proc σ Λ ε α → Prop
  /-- The sets of threads that may end together, and the world they leave. -/
  stop : Conf σ Λ ι ε α → (ℕ → Bool) → σ → Prop
  /-- What may change in the world without any thread. -/
  env : σ → σ → Prop

variable (S : System σ Λ ι ε α)

/-- One step of the system. -/
inductive Step : Conf σ Λ ι ε α → Conf σ Λ ι ε α → Prop
  | act {c t i β l f} {k : β → Proc σ Λ ε α} {b w} : c.threads t = some (i, .act l f k) →
      f t c.view.world = some (b, w) →
      Step c ⟨c.view.log t i l w, Function.update c.threads t (some (i, k b)), c.next⟩
  | choose {c t i β} {k : β → Proc σ Λ ε α} (b : β) : c.threads t = some (i, .choose k) →
      Step c { c with threads := Function.update c.threads t (some (i, k b)) }
  | call {c i p} : S.calls c i p →
      Step c ⟨c.view, Function.update c.threads c.next (some (i, p)), c.next + 1⟩
  | stop {c D w} : S.stop c D w →
      Step c ⟨⟨w, c.view.hist⟩, fun t => if D t then none else c.threads t, c.next⟩
  | env {c w} : S.env c.view.world w → Step c { c with view := ⟨w, c.view.hist⟩ }

/-- A later configuration of the same run. -/
abbrev Steps : Conf σ Λ ι ε α → Conf σ Λ ι ε α → Prop := Relation.ReflTransGen (Step S)

/-- The configurations the system can reach. -/
inductive Reachable : Conf σ Λ ι ε α → Prop
  | init {w} : S.init w → Reachable ⟨⟨w, []⟩, fun _ => none, 0⟩
  | step {c c'} : Reachable c → Step S c c' → Reachable c'

variable {S}

theorem Reachable.steps {c c' : Conf σ Λ ι ε α} (h : Reachable S c) (hs : Steps S c c') :
    Reachable S c' := by
  induction hs with
  | refl => exact h
  | tail _ hst ih => exact ih.step hst

/-! ## What holds of any system -/

/-- Threads are numbered in the order in which their calls were made. -/
structure Numbered (c : Conf σ Λ ι ε α) : Prop where
  threads : ∀ t, c.threads t ≠ none → t < c.next
  hist : ∀ e ∈ c.view.hist, e.tid < c.next

theorem Numbered.step {c c' : Conf σ Λ ι ε α} (hn : Numbered c) (h : Step S c c') :
    Numbered c' := by
  cases h with
  | @act t i _ l f k b w ht hf =>
      have hlt : t < c.next := hn.threads t (by simp [ht])
      refine ⟨fun u hu => ?_, fun e he => ?_⟩
      · by_cases hut : u = t
        · exact hut ▸ hlt
        · exact hn.threads u (by simpa [Function.update_of_ne hut] using hu)
      · rcases List.mem_cons.1 he with rfl | he
        · exact hlt
        · exact hn.hist e he
  | @choose t i _ k b ht =>
      refine ⟨fun u hu => ?_, hn.hist⟩
      by_cases hut : u = t
      · exact hut ▸ hn.threads t (by simp [ht])
      · exact hn.threads u (by simpa [Function.update_of_ne hut] using hu)
  | @call i p hc =>
      refine ⟨fun u hu => ?_, fun e he => Nat.lt_succ_of_lt (hn.hist e he)⟩
      by_cases hut : u = c.next
      · exact hut ▸ Nat.lt_succ_self _
      · exact Nat.lt_succ_of_lt (hn.threads u (by simpa [Function.update_of_ne hut] using hu))
  | @stop D w hs =>
      refine ⟨fun u hu => hn.threads u ?_, hn.hist⟩
      intro hc
      simp [hc] at hu
  | env he => exact ⟨hn.threads, hn.hist⟩

theorem Reachable.numbered {c : Conf σ Λ ι ε α} (h : Reachable S c) : Numbered c := by
  induction h with
  | init hi => exact ⟨fun t ht => absurd rfl ht, fun e he => by simp at he⟩
  | step _ hst ih => exact ih.step hst

/-- A step never rewrites the past. -/
theorem Step.hist_suffix {c c' : Conf σ Λ ι ε α} (h : Step S c c') :
    c.view.hist <:+ c'.view.hist := by
  cases h with
  | act _ _ => exact List.suffix_cons _ _
  | choose _ _ => exact List.suffix_refl _
  | call _ => exact List.suffix_refl _
  | stop _ => exact List.suffix_refl _
  | env _ => exact List.suffix_refl _

theorem Steps.hist_suffix {c c' : Conf σ Λ ι ε α} (h : Steps S c c') :
    c.view.hist <:+ c'.view.hist := by
  induction h with
  | refl => exact List.suffix_refl _
  | tail _ hst ih => exact ih.trans hst.hist_suffix

/-! ## Rely and guarantee -/

variable (S) in
/-- What a rely–guarantee proof about the system is relative to. -/
structure Logic where
  /-- Holds of every reachable view. -/
  inv : View σ Λ ι → Prop
  /-- What may happen to the view of thread `t` between its own acts. -/
  rely : ℕ → View σ Λ ι → View σ Λ ι → Prop
  /-- What thread `t` of process `i` promises of each of its acts. -/
  guar : ℕ → ι → View σ Λ ι → View σ Λ ι → Prop
  inv_init : ∀ {w}, S.init w → inv ⟨w, []⟩
  rely_refl : ∀ t v, rely t v v
  rely_trans : ∀ {t v v' v''}, rely t v v' → rely t v' v'' → rely t v v''
  inv_guar : ∀ {t i v v'}, inv v → guar t i v v' → inv v'
  rely_guar : ∀ {t u i v v'}, t ≠ u → inv v → guar t i v v' → rely u v v'
  inv_env : ∀ {v w}, inv v → S.env v.world w → inv ⟨w, v.hist⟩
  rely_env : ∀ {u v w}, inv v → S.env v.world w → rely u v ⟨w, v.hist⟩
  inv_stop : ∀ {c D w}, inv c.view → S.stop c D w → inv ⟨w, c.view.hist⟩
  rely_stop : ∀ {c D w u}, inv c.view → S.stop c D w → D u = false →
    rely u c.view ⟨w, c.view.hist⟩

namespace Logic

variable (L : Logic S) {β : Type}

/-- From the view `v`, thread `t` of process `i` can run `p` and keep its promise
at every act, whatever the others do in between; when `p` ends, `P` holds of its
outcome and the view it ends in. -/
def wp {α : Type} (t : ℕ) (i : ι) : Proc σ Λ ε α → (Except ε α → View σ Λ ι → Prop) →
    View σ Λ ι → Prop
  | .done a, P, v => ∀ v', L.rely t v v' → L.inv v' → P (.ok a) v'
  | .fail e, P, v => ∀ v', L.rely t v v' → L.inv v' → P (.error e) v'
  | .act l f k, P, v => ∀ v', L.rely t v v' → L.inv v' → ∀ b w, f t v'.world = some (b, w) →
      L.guar t i v' (v'.log t i l w) ∧ wp t i (k b) P (v'.log t i l w)
  | .choose k, P, v => ∀ b, wp t i (k b) P v

variable {L} {t : ℕ} {i : ι}

/-- What the others do in between does no harm. -/
theorem wp_of_rely {p : Proc σ Λ ε β} {P : Except ε β → View σ Λ ι → Prop} {v v' : View σ Λ ι}
    (hr : L.rely t v v') (h : L.wp t i p P v) : L.wp t i p P v' := by
  induction p with
  | done a => exact fun u hu => h u (L.rely_trans hr hu)
  | fail e => exact fun u hu => h u (L.rely_trans hr hu)
  | act l f k ih => exact fun u hu => h u (L.rely_trans hr hu)
  | choose k ih => exact fun b => ih b (h b)

/-- It is enough to be able to run `p` after whatever the others do first. -/
theorem wp_of_later {p : Proc σ Λ ε β} {P : Except ε β → View σ Λ ι → Prop} {v : View σ Λ ι}
    (h : ∀ v', L.rely t v v' → L.inv v' → L.wp t i p P v') : L.wp t i p P v := by
  induction p with
  | done a => exact fun u hr hi => h u hr hi u (L.rely_refl t u) hi
  | fail e => exact fun u hr hi => h u hr hi u (L.rely_refl t u) hi
  | act l f k ih => exact fun u hr hi => h u hr hi u (L.rely_refl t u) hi
  | choose k ih => exact fun b => ih b fun u hr hi => h u hr hi b

theorem wp_mono {p : Proc σ Λ ε β} {P Q : Except ε β → View σ Λ ι → Prop} {v : View σ Λ ι}
    (h : L.wp t i p P v) (hPQ : ∀ r u, L.inv u → P r u → Q r u) : L.wp t i p Q v := by
  induction p generalizing v with
  | done a => exact fun u hr hi => hPQ _ _ hi (h u hr hi)
  | fail e => exact fun u hr hi => hPQ _ _ hi (h u hr hi)
  | act l f k ih =>
      intro u hr hi b w hf
      exact ⟨(h u hr hi b w hf).1, ih b (h u hr hi b w hf).2⟩
  | choose k ih => exact fun b => ih b (h b)

/-- Sequencing. -/
theorem wp_bind {γ : Type} {p : Proc σ Λ ε β} {q : β → Proc σ Λ ε γ}
    {P : Except ε γ → View σ Λ ι → Prop} {v : View σ Λ ι}
    (h : L.wp t i p (fun r u => match r with
      | .ok b => L.wp t i (q b) P u
      | .error e => P (.error e) u) v) : L.wp t i (p.bind q) P v := by
  induction p generalizing v with
  | done a => exact wp_of_later h
  | fail e => exact h
  | act l f k ih =>
      intro u hr hi b w hf
      exact ⟨(h u hr hi b w hf).1, ih b (h u hr hi b w hf).2⟩
  | choose k ih => exact fun b => ih b (h b)

/-- Handling exceptions. -/
theorem wp_tryCatch {p : Proc σ Λ ε β} {q : ε → Proc σ Λ ε β}
    {P : Except ε β → View σ Λ ι → Prop} {v : View σ Λ ι}
    (h : L.wp t i p (fun r u => match r with
      | .ok b => P (.ok b) u
      | .error e => L.wp t i (q e) P u) v) : L.wp t i (p.tryCatch q) P v := by
  induction p generalizing v with
  | done a => exact h
  | fail e => exact wp_of_later h
  | act l f k ih =>
      intro u hr hi b w hf
      exact ⟨(h u hr hi b w hf).1, ih b (h u hr hi b w hf).2⟩
  | choose k ih => exact fun b => ih b (h b)

/-- What a program establishes also holds after whatever the others do then. -/
theorem wp_later {p : Proc σ Λ ε β} {P : Except ε β → View σ Λ ι → Prop} {v : View σ Λ ι}
    (h : L.wp t i p P v) :
    L.wp t i p (fun r u => ∀ u', L.rely t u u' → L.inv u' → P r u') v := by
  induction p generalizing v with
  | done a => exact fun u hr _ u' hr' hi' => h u' (L.rely_trans hr hr') hi'
  | fail e => exact fun u hr _ u' hr' hi' => h u' (L.rely_trans hr hr') hi'
  | act l f k ih =>
      intro u hr hi b w hf
      exact ⟨(h u hr hi b w hf).1, ih b (h u hr hi b w hf).2⟩
  | choose k ih => exact fun b => ih b (h b)

/-- Running a program for its result, exception included. -/
theorem wp_attempt {p : Proc σ Λ ε β} {P : Except ε (Except ε β) → View σ Λ ι → Prop}
    {v : View σ Λ ι} (h : L.wp t i p (fun r u => P (.ok r) u) v) : L.wp t i p.attempt P v := by
  refine wp_tryCatch (wp_bind (wp_mono (wp_later h) ?_))
  rintro (e | b) u _ hu
  · exact hu
  · exact hu

theorem wp_done {a : β} {P : Except ε β → View σ Λ ι → Prop} {v : View σ Λ ι}
    (h : ∀ v', L.rely t v v' → L.inv v' → P (.ok a) v') : L.wp t i (.done a) P v := h

theorem wp_fail {e : ε} {P : Except ε β → View σ Λ ι → Prop} {v : View σ Λ ι}
    (h : ∀ v', L.rely t v v' → L.inv v' → P (.error e) v') : L.wp t i (.fail e) P v := h

theorem wp_act {γ : Type} {l : Λ} {f : ℕ → σ → Option (γ × σ)} {k : γ → Proc σ Λ ε β}
    {P : Except ε β → View σ Λ ι → Prop} {v : View σ Λ ι}
    (h : ∀ v', L.rely t v v' → L.inv v' → ∀ b w, f t v'.world = some (b, w) →
      L.guar t i v' (v'.log t i l w) ∧ L.wp t i (k b) P (v'.log t i l w)) :
    L.wp t i (.act l f k) P v := h

theorem wp_choose {γ : Type} {k : γ → Proc σ Λ ε β} {P : Except ε β → View σ Λ ι → Prop}
    {v : View σ Λ ι} (h : ∀ b, L.wp t i (k b) P v) : L.wp t i (.choose k) P v := h

end Logic

/-! ## Soundness -/

/-- Every call the system can make keeps its promises and establishes `P`. -/
def Sound (L : Logic S) (P : ℕ → ι → Except ε α → View σ Λ ι → Prop) : Prop :=
  ∀ c i p, Reachable S c → L.inv c.view → S.calls c i p → L.wp c.next i p (P c.next i) c.view

/-- Where a configuration stands in the proof: the invariant holds and every
thread can finish what it has left to do. -/
structure Stands (L : Logic S) (P : ℕ → ι → Except ε α → View σ Λ ι → Prop)
    (c : Conf σ Λ ι ε α) : Prop where
  inv : L.inv c.view
  threads : ∀ t i p, c.threads t = some (i, p) → L.wp t i p (P t i) c.view

variable {L : Logic S} {P : ℕ → ι → Except ε α → View σ Λ ι → Prop}

/-- One act of a thread keeps the configuration standing. -/
theorem Stands.act {c : Conf σ Λ ι ε α} (h : Stands L P c) {t : ℕ} {i : ι} {β : Type} {l : Λ}
    {f : ℕ → σ → Option (β × σ)} {k : β → Proc σ Λ ε α} {b : β} {w : σ}
    (ht : c.threads t = some (i, .act l f k)) (hf : f t c.view.world = some (b, w)) :
    L.guar t i c.view (c.view.log t i l w) ∧
      Stands L P ⟨c.view.log t i l w, Function.update c.threads t (some (i, k b)), c.next⟩ := by
  obtain ⟨hg, hk⟩ := h.threads t i _ ht c.view (L.rely_refl t _) h.inv b w hf
  refine ⟨hg, L.inv_guar h.inv hg, fun u j p hu => ?_⟩
  by_cases hut : u = t
  · subst hut
    simp only [Function.update_self, Option.some.injEq, Prod.mk.injEq] at hu
    obtain ⟨rfl, rfl⟩ := hu
    exact hk
  · simp only [Function.update_of_ne hut] at hu
    exact L.wp_of_rely (L.rely_guar (Ne.symm hut) h.inv hg) (h.threads u j p hu)

/-- The start of a call keeps the configuration standing. -/
theorem Stands.call {c : Conf σ Λ ι ε α} (h : Stands L P c) {i : ι} {p : Proc σ Λ ε α}
    (hp : L.wp c.next i p (P c.next i) c.view) :
    Stands L P ⟨c.view, Function.update c.threads c.next (some (i, p)), c.next + 1⟩ := by
  refine ⟨h.inv, fun u j q hu => ?_⟩
  by_cases hun : u = c.next
  · subst hun
    simp only [Function.update_self, Option.some.injEq, Prod.mk.injEq] at hu
    obtain ⟨rfl, rfl⟩ := hu
    exact hp
  · simp only [Function.update_of_ne hun] at hu
    exact h.threads u j q hu

/-- **Soundness of rely–guarantee reasoning.**  If every call that can be made
keeps its promises, every reachable configuration stands. -/
theorem sound (hs : Sound L P) {c : Conf σ Λ ι ε α} (h : Reachable S c) : Stands L P c := by
  induction h with
  | init hi => exact ⟨L.inv_init hi, fun t i p ht => by simp at ht⟩
  | @step c c' hc hst ih =>
      cases hst with
      | act ht hf => exact (ih.act ht hf).2
      | @choose t i _ k b ht =>
          refine ⟨ih.inv, fun u j p hu => ?_⟩
          by_cases hut : u = t
          · subst hut
            simp only [Function.update_self, Option.some.injEq, Prod.mk.injEq] at hu
            obtain ⟨rfl, rfl⟩ := hu
            exact ih.threads u i _ ht b
          · simp only [Function.update_of_ne hut] at hu
            exact ih.threads u j p hu
      | call hcall => exact ih.call (hs c _ _ hc ih.inv hcall)
      | @stop D w hstop =>
          refine ⟨L.inv_stop ih.inv hstop, fun u j p hu => ?_⟩
          by_cases hD : D u = true
          · simp [hD] at hu
          · simp only [hD] at hu
            exact L.wp_of_rely (L.rely_stop ih.inv hstop (by simpa using hD)) (ih.threads u j p hu)
      | env henv =>
          exact ⟨L.inv_env ih.inv henv,
            fun u j p hu => L.wp_of_rely (L.rely_env ih.inv henv) (ih.threads u j p hu)⟩

/-- What a thread that has returned established still holds. -/
theorem Stands.done {c : Conf σ Λ ι ε α} (h : Stands L P c) {t : ℕ} {i : ι} {a : α}
    (ht : c.threads t = some (i, .done a)) : P t i (.ok a) c.view :=
  h.threads t i _ ht c.view (L.rely_refl t _) h.inv

theorem Stands.fail {c : Conf σ Λ ι ε α} (h : Stands L P c) {t : ℕ} {i : ι} {e : ε}
    (ht : c.threads t = some (i, .fail e)) : P t i (.error e) c.view :=
  h.threads t i _ ht c.view (L.rely_refl t _) h.inv

/-! ## Runs of views -/

/-- One step as the proof sees it: a promised act of some thread, or a change of
the world by the environment or by the end of some threads. -/
inductive ViewStep (L : Logic S) : View σ Λ ι → View σ Λ ι → Prop
  | guar {t i v v'} : L.inv v → L.guar t i v v' → ViewStep L v v'
  | env {v w} : L.inv v → S.env v.world w → ViewStep L v ⟨w, v.hist⟩
  | stop {c D w} : L.inv c.view → S.stop c D w → ViewStep L c.view ⟨w, c.view.hist⟩

/-- A step of the system is a step of views, or leaves the view alone. -/
theorem Step.view (hs : Sound L P) {c c' : Conf σ Λ ι ε α} (hc : Reachable S c)
    (h : Step S c c') : c'.view = c.view ∨ ViewStep L c.view c'.view := by
  have hst := sound hs hc
  cases h with
  | act ht hf => exact .inr (.guar hst.inv (hst.act ht hf).1)
  | choose _ _ => exact .inl rfl
  | call _ => exact .inl rfl
  | stop hstop => exact .inr (.stop hst.inv hstop)
  | env henv => exact .inr (.env hst.inv henv)

/-- **Invariants of the promises are invariants of the system.** -/
theorem invariant_of_guar (hs : Sound L P) {I : View σ Λ ι → Prop}
    (init : ∀ w, S.init w → I ⟨w, []⟩) (step : ∀ v v', I v → ViewStep L v v' → I v')
    {c : Conf σ Λ ι ε α} (h : Reachable S c) : I c.view := by
  induction h with
  | init hi => exact init _ hi
  | step hc hst ih =>
      rcases hst.view hs hc with heq | hv
      · exact heq ▸ ih
      · exact step _ _ ih hv

/-- What the promises preserve from a view on, they preserve along every run from
a configuration with that view. -/
theorem preserved_of_guar (hs : Sound L P) {I : View σ Λ ι → Prop}
    (step : ∀ v v', I v → ViewStep L v v' → I v') {c c' : Conf σ Λ ι ε α} (h : Reachable S c)
    (hsteps : Steps S c c') (hI : I c.view) : I c'.view := by
  induction hsteps with
  | refl => exact hI
  | tail hst hlast ih =>
      rcases hlast.view hs (h.steps hst) with heq | hv
      · exact heq ▸ ih
      · exact step _ _ ih hv

/-! ## Threads that have ended -/

/-- Thread `t` has been started and makes no more steps. -/
structure Ended (c : Conf σ Λ ι ε α) (t : ℕ) : Prop where
  started : t < c.next
  idle : ∀ i p, c.threads t = some (i, p) → (∃ a, p = .done a) ∨ ∃ e, p = .fail e

theorem Reachable.ended_of_done {c : Conf σ Λ ι ε α} (h : Reachable S c) {t : ℕ} {i : ι} {a : α}
    (ht : c.threads t = some (i, .done a)) : Ended c t := by
  refine ⟨h.numbered.threads t (by simp [ht]), fun j p hp => ?_⟩
  rw [ht, Option.some.injEq, Prod.mk.injEq] at hp
  exact .inl ⟨a, hp.2.symm⟩

/-- What holds when a thread ends, and is not disturbed by the others, holds from then on. -/
theorem preserved_of_ended (hs : Sound L P) {t : ℕ} {I : View σ Λ ι → Prop}
    (guar : ∀ u j v v', u ≠ t → L.inv v → L.guar u j v v' → I v → I v')
    (env : ∀ v w, S.env v.world w → I v → I ⟨w, v.hist⟩)
    (stop : ∀ c D w, S.stop c D w → I c.view → I ⟨w, c.view.hist⟩)
    {c c' : Conf σ Λ ι ε α} (h : Reachable S c) (hsteps : Steps S c c') (ht : Ended c t)
    (hI : I c.view) : I c'.view ∧ Ended c' t := by
  induction hsteps with
  | refl => exact ⟨hI, ht⟩
  | @tail d d' hst hlast ih =>
      obtain ⟨hId, hd⟩ := ih
      have hstands := sound hs (h.steps hst)
      cases hlast with
      | @act u j _ l f k b w hu hf =>
          have hne : u ≠ t := by
            rintro rfl
            rcases hd.idle j _ hu with ⟨a, ha⟩ | ⟨e, he⟩ <;> contradiction
          refine ⟨guar u j _ _ hne hstands.inv (hstands.act hu hf).1 hId, hd.started,
            fun i p hp => hd.idle i p ?_⟩
          simpa [Function.update_of_ne (Ne.symm hne)] using hp
      | @choose u j _ k b hu =>
          have hne : u ≠ t := by
            rintro rfl
            rcases hd.idle j _ hu with ⟨a, ha⟩ | ⟨e, he⟩ <;> contradiction
          refine ⟨hId, hd.started, fun i p hp => hd.idle i p ?_⟩
          simpa [Function.update_of_ne (Ne.symm hne)] using hp
      | @call i p hcall =>
          refine ⟨hId, Nat.lt_succ_of_lt hd.started, fun i p hp => hd.idle i p ?_⟩
          simpa [Function.update_of_ne (Nat.ne_of_lt hd.started)] using hp
      | @stop D w hstop =>
          refine ⟨stop d D w hstop hId, hd.started, fun i p hp => hd.idle i p ?_⟩
          by_cases hD : D t = true
          · simp [hD] at hp
          · simpa [hD] using hp
      | env henv => exact ⟨env _ _ henv hId, hd.started, hd.idle⟩

/-! ## Programs known by their acts -/

/-- Every act of a program changes the world as `G` allows. -/
def Proc.Acts (G : σ → σ → Prop) {α : Type} : Proc σ Λ ε α → Prop
  | .done _ => True
  | .fail _ => True
  | .act _ f k => (∀ t w b w', f t w = some (b, w') → G w w') ∧ ∀ b, (k b).Acts G
  | .choose k => ∀ b, (k b).Acts G

theorem Proc.Acts.bind {G : σ → σ → Prop} {β γ : Type} {p : Proc σ Λ ε β} {q : β → Proc σ Λ ε γ}
    (hp : p.Acts G) (hq : ∀ b, (q b).Acts G) : (p.bind q).Acts G := by
  induction p with
  | done b => exact hq b
  | fail e => trivial
  | act l f k ih => exact ⟨hp.1, fun b => ih b (hp.2 b)⟩
  | choose k ih => exact fun b => ih b (hp b)

theorem Proc.Acts.tryCatch {G : σ → σ → Prop} {β : Type} {p : Proc σ Λ ε β}
    {q : ε → Proc σ Λ ε β} (hp : p.Acts G) (hq : ∀ e, (q e).Acts G) : (p.tryCatch q).Acts G := by
  induction p with
  | done b => trivial
  | fail e => exact hq e
  | act l f k ih => exact ⟨hp.1, fun b => ih b (hp.2 b)⟩
  | choose k ih => exact fun b => ih b (hp b)

theorem Proc.Acts.attempt {G : σ → σ → Prop} {β : Type} {p : Proc σ Λ ε β} (hp : p.Acts G) :
    p.attempt.Acts G := by
  unfold Proc.attempt
  exact Proc.Acts.tryCatch (Proc.Acts.bind hp fun _ => trivial) fun _ => trivial

/-- Where every program that may be called acts as `G` allows, and nothing else changes the
world otherwise, every step of the system does. -/
structure Confined (S : System σ Λ ι ε α) (G : σ → σ → Prop) : Prop where
  refl : ∀ w, G w w
  calls : ∀ {c i p}, S.calls c i p → p.Acts G
  stop : ∀ {c D w}, S.stop c D w → G c.view.world w
  env : ∀ {w w'}, S.env w w' → G w w'

theorem Confined.threads {G : σ → σ → Prop} (hS : Confined S G) {c : Conf σ Λ ι ε α}
    (h : Reachable S c) : ∀ t i p, c.threads t = some (i, p) → p.Acts G := by
  induction h with
  | init hi => exact fun t i p ht => by simp at ht
  | @step c c' hc hst ih =>
      intro t i p ht
      cases hst with
      | @act u j _ l f k b w hu hf =>
          by_cases htu : t = u
          · subst htu
            simp only [Function.update_self, Option.some.injEq, Prod.mk.injEq] at ht
            obtain ⟨rfl, rfl⟩ := ht
            exact (ih t _ _ hu).2 b
          · simp only [Function.update_of_ne htu] at ht
            exact ih t i p ht
      | @choose u j _ k b hu =>
          by_cases htu : t = u
          · subst htu
            simp only [Function.update_self, Option.some.injEq, Prod.mk.injEq] at ht
            obtain ⟨rfl, rfl⟩ := ht
            exact ih t _ _ hu b
          · simp only [Function.update_of_ne htu] at ht
            exact ih t i p ht
      | @call j q hq =>
          by_cases htn : t = c.next
          · subst htn
            simp only [Function.update_self, Option.some.injEq, Prod.mk.injEq] at ht
            obtain ⟨rfl, rfl⟩ := ht
            exact hS.calls hq
          · simp only [Function.update_of_ne htn] at ht
            exact ih t i p ht
      | @stop D w hs =>
          by_cases hD : D t = true
          · simp [hD] at ht
          · exact ih t i p (by simpa [hD] using ht)
      | env he => exact ih t i p ht

/-- One step. -/
theorem Confined.step {G : σ → σ → Prop} (hS : Confined S G) {c c' : Conf σ Λ ι ε α}
    (h : Reachable S c) (hst : Step S c c') : G c.view.world c'.view.world := by
  cases hst with
  | act ht hf => exact (hS.threads h _ _ _ ht).1 _ _ _ _ hf
  | choose _ _ => exact hS.refl _
  | call _ => exact hS.refl _
  | stop hs => exact hS.stop hs
  | env he => exact hS.env he

/-- A run. -/
theorem Confined.steps {G : σ → σ → Prop} (hS : Confined S G) {c c' : Conf σ Λ ι ε α}
    (h : Reachable S c) (hsteps : Steps S c c') :
    Relation.ReflTransGen G c.view.world c'.view.world := by
  induction hsteps with
  | refl => exact .refl
  | tail hst hlast ih => exact ih.tail (hS.step (h.steps hst) hlast)

/-- Every reachable world. -/
theorem Confined.reachable {G : σ → σ → Prop} (hS : Confined S G) {c : Conf σ Λ ι ε α}
    (h : Reachable S c) : ∃ w, S.init w ∧ Relation.ReflTransGen G w c.view.world := by
  induction h with
  | init hi => exact ⟨_, hi, .refl⟩
  | step hc hst ih =>
      obtain ⟨w, hw, hG⟩ := ih
      exact ⟨w, hw, hG.tail (hS.step hc hst)⟩

/-! ## Undisturbed runs -/

/-- What a thread may do undisturbed is a run of the system. -/
theorem steps_of_may {t : ℕ} {i : ι} {p : Proc σ Λ ε α} {P : Except ε α → View σ Λ ι → Prop}
    {c : Conf σ Λ ι ε α} (ht : c.threads t = some (i, p)) (h : may t i p P c.view) :
    ∃ r c', Steps S c c' ∧ c'.next = c.next ∧ c'.threads t = some (i, .ofExcept r) ∧
      P r c'.view := by
  induction p generalizing c with
  | done a => exact ⟨.ok a, c, .refl, rfl, ht, h⟩
  | fail e => exact ⟨.error e, c, .refl, rfl, ht, h⟩
  | act l f k ih =>
      obtain ⟨b, w, hf, hk⟩ := h
      obtain ⟨r, c', hs, hc'⟩ := ih b (c := ⟨c.view.log t i l w,
        Function.update c.threads t (some (i, k b)), c.next⟩) (Function.update_self _ _ _) hk
      exact ⟨r, c', .head (.act ht hf) hs, hc'⟩
  | choose k ih =>
      obtain ⟨b, hk⟩ := h
      obtain ⟨r, c', hs, hc'⟩ := ih b (c := { c with
        threads := Function.update c.threads t (some (i, k b)) }) (Function.update_self _ _ _) hk
      exact ⟨r, c', .head (.choose b ht) hs, hc'⟩

/-- What a call may do undisturbed, from where it is made. -/
theorem Reachable.may {i : ι} {p : Proc σ Λ ε α} {P : Except ε α → View σ Λ ι → Prop}
    {c : Conf σ Λ ι ε α} (h : Reachable S c) (hp : S.calls c i p) (hm : may c.next i p P c.view) :
    ∃ r c', Reachable S c' ∧ c'.next = c.next + 1 ∧ c'.threads c.next = some (i, .ofExcept r) ∧
      P r c'.view := by
  obtain ⟨r, c', hs, hc'⟩ := steps_of_may (S := S) (c := ⟨c.view,
    Function.update c.threads c.next (some (i, p)), c.next + 1⟩) (Function.update_self _ _ _) hm
  exact ⟨r, c', (h.step (.call hp)).steps hs, hc'⟩

end Process
