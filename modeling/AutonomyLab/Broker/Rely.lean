import AutonomyLab.Broker.Dispatch
import AutonomyLab.Process.Concurrent

/-!
# Reasoning about broker processes

The setting in which the broker's program is proved to follow the protocol: what a
thread may count on between its own acts, given that all the others follow it too.

* `Changes`, `Stops`, `brokers` — a system of broker processes: instances start and
  their policies are changed at any time, and any threads may end at any time, which
  gives up the lock if one of them holds it.
* `Rely` — what the others leave alone.  In particular nobody else dispatches what a
  thread has claimed, and its outcome can only become uncertain.
* `Act.rely` — the acts of the others respect it, and so do a thread's own acts as
  long as they claim, send and record nothing.
* `Surroundings`, `logic` — what is needed of the code a broker is given, and the
  logic that results.
-/

namespace AutonomyLab.Broker

open Json Contract Process

variable {ρ Λ α : Type}

/-! ## Systems of brokers -/

/-- What changes without any thread: an instance is started, under an id never used
before, and a policy is changed. -/
inductive Changes (w : World ρ) : World ρ → Prop
  | start {o policy} : w.policies o = none → BrokerPolicy.postInit policy = .ok () →
      Changes w { w with policies := Function.update w.policies o (some policy) }
  | configure {o old policy} : w.policies o = some old →
      Changes w { w with policies := Function.update w.policies o (some policy) }

/-- The end of a set of threads: an open transaction of theirs is rolled back. -/
def Stops (c : Conf (World ρ) (Label Λ) String BrokerError α) (D : ℕ → Bool) (w : World ρ) : Prop :=
  w = { c.view.world with writer := c.view.world.writer.filter fun t => !D t }

/-- A system of broker processes, by the worlds it starts from and the calls there are. -/
def brokers (init : World ρ → Prop)
    (calls : Conf (World ρ) (Label Λ) String BrokerError α → String →
      Program ρ Λ α → Prop) : System (World ρ) (Label Λ) String BrokerError α :=
  ⟨init, calls, Stops, Changes⟩

/-! ## What a thread may count on -/

/-- A claim, or the answer to a patch. -/
def Label.isDispatch : Label Λ → Bool
  | .endClaim _ none | .patchReturned .. => true
  | _ => false

/-- What thread `t` has claimed, and the answers it has had. -/
def dispatchedBy (t : ℕ) (hist : List (Did ρ Λ)) : List (Did ρ Λ) :=
  hist.filter fun e => e.tid = t ∧ e.label.isDispatch

/-- What may happen to the view of thread `t` between its acts. -/
structure Rely (t : ℕ) (v v' : Seen ρ Λ) : Prop where
  hist : v.hist <:+ v'.hist
  dispatched : dispatchedBy t v'.hist = dispatchedBy t v.hist
  lock : v.world.writer = some t →
    v'.world.writer = some t ∧ v'.world.journal = v.world.journal
  requested : ∀ {id p}, Requested id p v.world.journal → Requested id p v'.world.journal
  settled : ∀ {id}, Settled (v.world.journal.binding id) →
    v'.world.journal.binding id = v.world.journal.binding id
  dispatches : ∀ {id}, (∃ c ∈ claims id v.hist, c.tid = t) →
    dispatches id v'.hist = dispatches id v.hist
  claimed : ∀ {id row}, (∃ c ∈ claims id v.hist, c.tid = t) →
    v.world.journal.operations.find? id = some row →
    ∃ row', v'.world.journal.operations.find? id = some row' ∧ row'.owner = row.owner ∧
      (row'.status = row.status ∨ row.status = .dispatching ∧ row'.status = .uncertain)

theorem Rely.of_journal {t : ℕ} {v v' : Seen ρ Λ} (hh : v'.hist = v.hist)
    (hj : v'.world.journal = v.world.journal)
    (hw : v.world.writer = some t → v'.world.writer = some t) : Rely t v v' where
  hist := hh ▸ List.suffix_refl _
  dispatched := by rw [hh]
  lock h := ⟨hw h, hj⟩
  requested h := hj ▸ h
  settled _ := by rw [hj]
  dispatches _ := by rw [hh]
  claimed _ hrow := ⟨_, hj ▸ hrow, rfl, .inl rfl⟩

theorem Rely.refl (t : ℕ) (v : Seen ρ Λ) : Rely t v v := .of_journal rfl rfl id

theorem Rely.trans {t : ℕ} {v v' v'' : Seen ρ Λ} (h : Rely t v v') (h' : Rely t v' v'') :
    Rely t v v'' where
  hist := h.hist.trans h'.hist
  dispatched := h'.dispatched.trans h.dispatched
  lock hw := ⟨(h'.lock (h.lock hw).1).1, (h'.lock (h.lock hw).1).2.trans (h.lock hw).2⟩
  requested hr := h'.requested (h.requested hr)
  settled hs := (h'.settled ((h.settled hs).symm ▸ hs)).trans (h.settled hs)
  dispatches := by
    rintro id ⟨c, hc, ht⟩
    exact (h'.dispatches ⟨c, claims_mono h.hist hc, ht⟩).trans (h.dispatches ⟨c, hc, ht⟩)
  claimed := by
    rintro id row ⟨c, hc, ht⟩ hrow
    obtain ⟨row₁, hrow₁, ho₁, hs₁⟩ := h.claimed ⟨c, hc, ht⟩ hrow
    obtain ⟨row₂, hrow₂, ho₂, hs₂⟩ := h'.claimed ⟨c, claims_mono h.hist hc, ht⟩ hrow₁
    refine ⟨row₂, hrow₂, ho₂.trans ho₁, ?_⟩
    rcases hs₁ with hs₁ | ⟨hd, hu⟩
    · rcases hs₂ with hs₂ | ⟨hd', hu'⟩
      · exact .inl (hs₂.trans hs₁)
      · exact .inr ⟨hs₁ ▸ hd', hu'⟩
    · rcases hs₂ with hs₂ | ⟨hd', -⟩
      · exact .inr ⟨hd, hs₂.trans hu⟩
      · rw [hu] at hd'
        cases hd'

/-- Acts after which a thread knows what it knew before: they do not release the lock,
and neither claim, send nor record anything. -/
def Label.isGentle : Label Λ → Bool
  | .endClaim .. | .abortClaim _ | .patchService .. | .patchReturned .. | .finish .. => false
  | _ => true

section
variable {P : Platform} {E : Ext ρ Λ} {j₀ : Journal} {t u : ℕ} {o : String} {v : Seen ρ Λ}
  {l : Label Λ} {w : World ρ}

theorem dispatches_log {id : String} (h : l.dispatchOf ≠ some id) :
    dispatches id (v.log t o l w).hist = dispatches id v.hist := by
  rw [View.log_hist, dispatches, List.filter_cons_of_neg (by rwa [decide_eq_true_eq]), dispatches]

theorem dispatchedBy_log (h : u ≠ t ∨ l.isDispatch = false) :
    dispatchedBy u (v.log t o l w).hist = dispatchedBy u v.hist := by
  rw [View.log_hist, dispatchedBy, List.filter_cons_of_neg, dispatchedBy]
  rcases h with h | h <;> simp [Ne.symm, h]

theorem dispatchedBy_log_self (h : l.isDispatch = true) :
    dispatchedBy t (v.log t o l w).hist = ⟨t, o, l, v.world, w⟩ :: dispatchedBy t v.hist := by
  rw [View.log_hist, dispatchedBy, List.filter_cons_of_pos (by simp [h]), dispatchedBy]

theorem mem_dispatchedBy {hist : List (Did ρ Λ)} {e : Did ρ Λ} :
    e ∈ dispatchedBy t hist ↔ e ∈ hist ∧ e.tid = t ∧ e.label.isDispatch = true := by
  rw [dispatchedBy, List.mem_filter, decide_eq_true_eq]

/-- **The acts of the others leave a thread what it counts on**, and so do its own
gentle acts. -/
theorem Act.rely (h : Act P E t o v l w) (ht : Trace P E j₀ v.hist v.world.journal)
    (hu : u ≠ t ∨ l.isGentle = true) : Rely u v (v.log t o l w) where
  hist := List.suffix_cons _ _
  dispatched := dispatchedBy_log <| hu.imp_right fun hg => by
    cases l <;> first | rfl | cases hg
  lock hw := by
    rcases hu with hu | hl
    · exact h.locked hu hw
    · cases h <;> simp_all [Label.isGentle]
  requested := by
    rintro id p ⟨hid, row, hrow, hp⟩
    obtain ⟨row', hrow', hreq, -⟩ := (h.effect id).keeps_row hrow
    exact ⟨hid, row', hrow', hreq ▸ hp⟩
  settled hs := (h.effect _).keeps_settled hs
  dispatches := by
    rintro id ⟨c, hc, rfl⟩
    refine dispatches_log fun hl => ?_
    rcases hu with hu | hg
    · -- whoever else dispatches it would have claimed it too
      obtain ⟨c', hc', hct, -⟩ := h.claim_of_dispatch hl
      exact hu (by rw [ht.claim_unique hc hc', hct])
    · cases l <;> simp_all [Label.isGentle, Label.dispatchOf]
  claimed := by
    rintro id row ⟨c, hc, rfl⟩ hrow
    obtain ⟨s, hs, hsn⟩ := ht.left_of_claim hc
    have hst : row.status ≠ .prepared := by
      rw [Journal.status?, hrow, Option.map_some, Option.some.injEq] at hs
      exact hs ▸ hsn
    refine (h.effect id).keeps_owner hrow hst ?_
    rintro out rfl
    rcases hu with hu | hg
    · obtain ⟨c', hc', hct, -⟩ := ht.claim_of_finish h
      exact hu (by rw [ht.claim_unique hc hc', hct])
    · cases hg

/-! ## The code a broker is given -/

variable (P E) (init : World ρ → Prop)
  (calls : Conf (World ρ) (Label Λ) String BrokerError α → String → Program ρ Λ α → Prop)

/-- The view follows from a start of the system by acts of the protocol. -/
def Traced (v : Seen ρ Λ) : Prop :=
  ∃ w₀, init w₀ ∧ w₀.journal.Sane ∧ Trace P E w₀.journal v.hist v.world.journal

/-- What a proof about brokers needs to know of the code they are given: what it keeps
true of the rest of the world, and what it counts on there. -/
structure Surroundings where
  inv : Seen ρ Λ → Prop
  rely : ℕ → Seen ρ Λ → Seen ρ Λ → Prop
  rely_refl : ∀ t v, rely t v v
  rely_trans : ∀ {t v v' v''}, rely t v v' → rely t v' v'' → rely t v v''
  sane : ∀ {w}, init w → w.journal.Sane
  inv_init : ∀ {w}, init w → inv ⟨w, []⟩
  inv_act : ∀ {t o v l w}, Traced P E init v → inv v → Act P E t o v l w → inv (v.log t o l w)
  rely_act : ∀ {t u o v l w}, t ≠ u → Traced P E init v → inv v → Act P E t o v l w →
    rely u v (v.log t o l w)
  inv_env : ∀ {v w}, inv v → Changes v.world w → inv ⟨w, v.hist⟩
  rely_env : ∀ {u v w}, inv v → Changes v.world w → rely u v ⟨w, v.hist⟩
  inv_stop : ∀ {c : Conf (World ρ) (Label Λ) String BrokerError α} {D w}, inv c.view →
    Stops c D w → inv ⟨w, c.view.hist⟩
  rely_stop : ∀ {c : Conf (World ρ) (Label Λ) String BrokerError α} {D w u}, inv c.view →
    Stops c D w → D u = false → rely u c.view ⟨w, c.view.hist⟩
  /-- An authorization stays. -/
  authorized : ∀ {t o p binding patch v v'}, Rely t v v' → rely t v v' → inv v' →
    E.authorized t o p binding patch v → E.authorized t o p binding patch v'

end

/-- Nothing is needed where nothing is known. -/
def Surroundings.any (P : Platform) {init : World Unit → Prop}
    (sane : ∀ {w}, init w → w.journal.Sane) : Surroundings (α := α) P Ext.any init where
  sane := sane
  inv _ := True
  rely _ _ _ := True
  rely_refl _ _ := trivial
  rely_trans _ _ := trivial
  inv_init _ := trivial
  inv_act _ _ _ := trivial
  rely_act _ _ _ _ := trivial
  inv_env _ _ := trivial
  rely_env _ _ := trivial
  inv_stop _ _ := trivial
  rely_stop _ _ _ := trivial
  authorized _ _ _ _ := trivial

/-! ## The logic -/

section
variable {P : Platform} {E : Ext ρ Λ} {init : World ρ → Prop}
  {calls : Conf (World ρ) (Label Λ) String BrokerError α → String → Program ρ Λ α → Prop}

theorem Changes.rely {v : Seen ρ Λ} {w : World ρ} (h : Changes v.world w) (u : ℕ) :
    Rely u v ⟨w, v.hist⟩ := by
  cases h <;> exact .of_journal rfl rfl id

theorem Stops.rely {c : Conf (World ρ) (Label Λ) String BrokerError α} {D : ℕ → Bool} {w : World ρ}
    (h : Stops c D w) {u : ℕ} (hu : D u = false) : Rely u c.view ⟨w, c.view.hist⟩ := by
  subst h
  refine .of_journal rfl rfl fun hw => ?_
  simp [hw, hu]

variable (calls) in
/-- The logic in which broker processes are proved correct: every act of a thread is an
act of the protocol. -/
def logic (X : Surroundings (α := α) P E init) : Logic (brokers init calls) where
  inv v := Traced P E init v ∧ X.inv v
  rely t v v' := Rely t v v' ∧ X.rely t v v'
  guar t o v v' := ∃ l w, v' = v.log t o l w ∧ Act P E t o v l w
  inv_init h := ⟨⟨_, h, X.sane h, .nil⟩, X.inv_init h⟩
  rely_refl t v := ⟨.refl t v, X.rely_refl t v⟩
  rely_trans h h' := ⟨h.1.trans h'.1, X.rely_trans h.2 h'.2⟩
  inv_guar := by
    rintro t o v _ ⟨⟨w₀, hi, hsn, ht⟩, hx⟩ ⟨l, w, rfl, ha⟩
    exact ⟨⟨w₀, hi, hsn, ht.cons ha⟩, X.inv_act ⟨w₀, hi, hsn, ht⟩ hx ha⟩
  rely_guar := by
    rintro t u o v _ htu ⟨⟨w₀, hi, hsn, ht⟩, hx⟩ ⟨l, w, rfl, ha⟩
    exact ⟨ha.rely ht (.inl (Ne.symm htu)), X.rely_act htu ⟨w₀, hi, hsn, ht⟩ hx ha⟩
  inv_env := by
    rintro v w ⟨⟨w₀, hi, hsn, ht⟩, hx⟩ he
    refine ⟨⟨w₀, hi, hsn, ?_⟩, X.inv_env hx he⟩
    cases he <;> exact ht
  rely_env h he := ⟨he.rely _, X.rely_env h.2 he⟩
  inv_stop := by
    rintro c D w ⟨⟨w₀, hi, hsn, ht⟩, hx⟩ hs
    refine ⟨⟨w₀, hi, hsn, ?_⟩, X.inv_stop hx hs⟩
    subst hs
    exact ht
  rely_stop h hs hu := ⟨Stops.rely hs hu, X.rely_stop h.2 hs hu⟩

/-- What happens to a view: an act of the protocol, or nothing that concerns the journal. -/
theorem view_cases {X : Surroundings (α := α) P E init} {v v' : Seen ρ Λ}
    (h : ViewStep (logic calls X) v v') :
    (∃ t o l w, v' = v.log t o l w ∧ Traced P E init v ∧ Act P E t o v l w) ∨
      (v'.hist = v.hist ∧ v'.world.journal = v.world.journal ∧
        ∀ o, v.world.policies o ≠ none → v'.world.policies o ≠ none) := by
  cases h with
  | guar hi hg =>
      obtain ⟨l, w, rfl, ha⟩ := hg
      exact .inl ⟨_, _, l, w, rfl, hi.1, ha⟩
  | env _ he =>
      refine .inr ⟨rfl, ?_, fun o ho => ?_⟩
      · cases he <;> rfl
      · cases he with
        | @start o' policy _ _ | @configure o' _ policy _ =>
            by_cases h : o = o'
            · subst h
              simp
            · simpa [Function.update_of_ne h] using ho
  | stop _ hs =>
      cases hs
      exact .inr ⟨rfl, rfl, fun o ho => ho⟩

/-- Acts leave policies alone. -/
theorem Act.policies {t : ℕ} {o : String} {v : Seen ρ Λ} {l : Label Λ} {w : World ρ}
    (h : Act P E t o v l w) : w.policies = v.world.policies := by
  cases h <;> rfl

end

end AutonomyLab.Broker
