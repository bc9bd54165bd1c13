import AutonomyLab.Process.Run
import AutonomyLab.Settlement.Server

/-!
# The two services together

* `State.step` — something happens to one of them.  A process that replaces another draws
  an instance identity that was never drawn before.
* `admissions` — the operations that were ever admitted.
* `Recorded` — what the ledgers of the gates have to do with them, and `recorded`.
* `Sealed` — an epoch of an instance is over, and stays over.
-/

namespace AutonomyLab.Settlement

open Store Process

structure State where
  server : Kind → Server
  /-- The instance identities that were drawn. -/
  drawn : List Instance

/-- An instance identity is not drawn twice. -/
def State.step (s : State) (a : Kind × Action) : Option State :=
  match (s.server a.1).step a.1 a.2, a.2 with
  | some v, .restart instanceId _ =>
      if instanceId ∈ s.drawn then none
      else some ⟨Function.update s.server a.1 v, instanceId :: s.drawn⟩
  | some v, _ => some { s with server := Function.update s.server a.1 v }
  | none, _ => none

/-- Two processes that have just started. -/
structure Start (s : State) : Prop where
  gate : ∀ k, (s.server k).gate = Gate.new (s.server k).gate.instanceId
  handlers : ∀ k, (s.server k).handlers = []
  clock : ∀ k, 0 ≤ (s.server k).now
  drawn : ∀ k, (s.server k).gate.instanceId ∈ s.drawn

/-- The step of a state is a step of one server. -/
theorem State.step_eq_some {s s' : State} {k : Kind} {a : Action} (h : s.step (k, a) = some s') :
    ∃ v, (s.server k).step k a = some v ∧ s'.server = Function.update s.server k v ∧
      ((∃ i now, a = .restart i now ∧ i ∉ s.drawn ∧ s'.drawn = i :: s.drawn) ∨
        (∀ i now, a ≠ .restart i now) ∧ s'.drawn = s.drawn) := by
  unfold State.step at h
  split at h
  · rename_i v i now hv ha
    dsimp only at hv ha
    split at h
    · cases h
    · rename_i hfresh
      cases h
      exact ⟨v, hv, rfl, .inl ⟨i, now, ha, hfresh, rfl⟩⟩
  · rename_i v hv hne
    cases h
    exact ⟨v, hv, rfl, .inr ⟨fun i now ha => hne i now ha, rfl⟩⟩
  · cases h

/-! ## Admissions -/

/-- An operation that was admitted. -/
structure Admission where
  service : Kind
  instanceId : Instance
  epoch : ℤ
  identity : ℤ
  deriving DecidableEq

abbrev Event : Type := Transition State (Kind × Action)

/-- The server that an event is about. -/
def Event.server (τ : Event) : Server := τ.before.server τ.action.1

def Event.admission (τ : Event) : Option Admission :=
  (τ.server.starts τ.action.2).map fun handler =>
    ⟨τ.action.1, τ.server.gate.instanceId, handler.epoch, handler.identity⟩

/-- The operations that were admitted. -/
def admissions (h : List Event) : List Admission := h.filterMap Event.admission

/-- What the ledgers have to do with the operations that were ever admitted. -/
structure Recorded (h : List Event) (s : State) : Prop where
  /-- No operation was admitted twice. -/
  nodup : (admissions h).Nodup
  drawn : ∀ a ∈ admissions h, a.instanceId ∈ s.drawn
  current : ∀ k, (s.server k).gate.instanceId ∈ s.drawn
  past : ∀ a ∈ admissions h, a.instanceId = (s.server a.service).gate.instanceId →
    a.epoch ≤ (s.server a.service).gate.epoch
  /-- A ledger has the operations of its instance and epoch. -/
  ledger : ∀ k n, toString n ∈ (s.server k).gate.operations.rows.map Prod.fst ↔
    ⟨k, (s.server k).gate.instanceId, (s.server k).gate.epoch, n⟩ ∈ admissions h

namespace Recorded

variable {h : List Event} {s s' : State} {k : Kind} {a : Action} {v : Server}

theorem admissions_append (h : List Event) (τ : Event) :
    admissions (h ++ [τ]) = admissions h ++ τ.admission.toList := by
  rw [admissions, List.filterMap_append]
  cases hτ : τ.admission <;> simp [admissions, hτ]

theorem congr {h' : List Event} (hr : Recorded h s) (hadm : admissions h' = admissions h) :
    Recorded h' s where
  nodup := by rw [hadm]; exact hr.nodup
  drawn := by rw [hadm]; exact hr.drawn
  current := hr.current
  past := by rw [hadm]; exact hr.past
  ledger := by rw [hadm]; exact hr.ledger

theorem kept (hr : Recorded h s) (hs : s'.server = Function.update s.server k v)
    (hd : s'.drawn = s.drawn) (hi : v.gate.instanceId = (s.server k).gate.instanceId)
    (he : v.gate.epoch = (s.server k).gate.epoch)
    (hk : v.gate.operations.rows.map Prod.fst = (s.server k).gate.operations.rows.map Prod.fst) :
    Recorded h s' := by
  have hinst : ∀ j, (s'.server j).gate.instanceId = (s.server j).gate.instanceId := by
    intro j
    by_cases hj : j = k
    · subst hj
      rw [hs, Function.update_self, hi]
    · rw [hs, Function.update_of_ne hj]
  have hepoch : ∀ j, (s'.server j).gate.epoch = (s.server j).gate.epoch := by
    intro j
    by_cases hj : j = k
    · subst hj
      rw [hs, Function.update_self, he]
    · rw [hs, Function.update_of_ne hj]
  have hkeys : ∀ j, (s'.server j).gate.operations.rows.map Prod.fst =
      (s.server j).gate.operations.rows.map Prod.fst := by
    intro j
    by_cases hj : j = k
    · subst hj
      rw [hs, Function.update_self, hk]
    · rw [hs, Function.update_of_ne hj]
  exact {
    nodup := hr.nodup
    drawn := by rw [hd]; exact hr.drawn
    current := fun j => by rw [hd, hinst]; exact hr.current j
    past := fun b hb hbi => by rw [hinst] at hbi; rw [hepoch]; exact hr.past b hb hbi
    ledger := fun j n => by rw [hkeys, hinst, hepoch]; exact hr.ledger j n }

theorem current_update (hr : Recorded h s) (hs : s'.server = Function.update s.server k v)
    (hd : s'.drawn = s.drawn) (hi : v.gate.instanceId = (s.server k).gate.instanceId) (j : Kind) :
    (s'.server j).gate.instanceId ∈ s'.drawn := by
  rw [hd, hs]
  by_cases hj : j = k
  · subst hj
    rw [Function.update_self, hi]
    exact hr.current j
  · rw [Function.update_of_ne hj]
    exact hr.current j

theorem opened (hr : Recorded h s) (hs : s'.server = Function.update s.server k v)
    (hd : s'.drawn = s.drawn) (hi : v.gate.instanceId = (s.server k).gate.instanceId)
    (he : v.gate.epoch = (s.server k).gate.epoch + 1) (hk : v.gate.operations.rows = []) :
    Recorded h s' where
  nodup := hr.nodup
  drawn := by rw [hd]; exact hr.drawn
  current := hr.current_update hs hd hi
  past b hb hbi := by
    rw [hs] at hbi ⊢
    by_cases hj : b.service = k
    · subst hj
      rw [Function.update_self] at hbi ⊢
      have := hr.past b hb (hbi.trans hi)
      omega
    · rw [Function.update_of_ne hj] at hbi ⊢
      exact hr.past b hb hbi
  ledger j n := by
    rw [hs]
    by_cases hj : j = k
    · subst hj
      rw [Function.update_self, hk, hi, he]
      refine ⟨nofun, fun hmem => ?_⟩
      -- the epoch that is opened has no admissions
      have := hr.past _ hmem rfl
      dsimp only at this
      omega
    · rw [Function.update_of_ne hj]
      exact hr.ledger j n

theorem admitted (hr : Recorded h s) {τ : Event} {handler : Handler}
    (hτ : τ.admission = some ⟨k, (s.server k).gate.instanceId, (s.server k).gate.epoch, handler.identity⟩)
    (hs : s'.server = Function.update s.server k v) (hd : s'.drawn = s.drawn)
    (hi : v.gate.instanceId = (s.server k).gate.instanceId)
    (he : v.gate.epoch = (s.server k).gate.epoch)
    (hfresh : toString handler.identity ∉ (s.server k).gate.operations.rows.map Prod.fst)
    (hk : v.gate.operations.rows.map Prod.fst =
      (s.server k).gate.operations.rows.map Prod.fst ++ [toString handler.identity]) :
    Recorded (h ++ [τ]) s' := by
  have hadm := admissions_append h τ
  rw [hτ, Option.toList_some] at hadm
  exact {
    nodup := by
      rw [hadm, List.nodup_append]
      refine ⟨hr.nodup, List.nodup_singleton _, ?_⟩
      intro b hb c hc hbc
      rw [List.mem_singleton.1 hc] at hbc
      subst hbc
      exact hfresh ((hr.ledger k _).2 hb)
    drawn := by
      intro b hb
      rw [hd]
      rw [hadm, List.mem_append, List.mem_singleton] at hb
      rcases hb with hb | rfl
      · exact hr.drawn b hb
      · exact hr.current k
    current := hr.current_update hs hd hi
    past := by
      intro b hb hbi
      rw [hadm, List.mem_append, List.mem_singleton] at hb
      rw [hs] at hbi ⊢
      rcases hb with hb | rfl
      · by_cases hj : b.service = k
        · subst hj
          rw [Function.update_self] at hbi ⊢
          rw [he]
          exact hr.past b hb (hbi.trans hi)
        · rw [Function.update_of_ne hj] at hbi ⊢
          exact hr.past b hb hbi
      · dsimp only
        rw [Function.update_self, he]
    ledger := by
      intro j n
      rw [hs, hadm, List.mem_append, List.mem_singleton]
      by_cases hj : j = k
      · subst hj
        rw [Function.update_self, hk, hi, he, List.mem_append, List.mem_singleton, hr.ledger j n]
        refine or_congr Iff.rfl ⟨fun hn => ?_, fun hn => ?_⟩
        · rw [toString_int_injective hn]
        · rw [(Admission.mk.inj hn).2.2.2]
      · rw [Function.update_of_ne hj, hr.ledger j n]
        refine ⟨.inl, fun hmem => hmem.resolve_right fun heq => hj (Admission.mk.inj heq).1⟩ }

theorem replaced (hr : Recorded h s) {i : Instance} (hi : i ∉ s.drawn)
    (hs : s'.server = Function.update s.server k v) (hd : s'.drawn = i :: s.drawn)
    (hv : v.gate = Gate.new i) : Recorded h s' where
  nodup := hr.nodup
  drawn b hb := by
    rw [hd]
    exact List.mem_cons_of_mem _ (hr.drawn b hb)
  current j := by
    rw [hd, hs]
    by_cases hj : j = k
    · subst hj
      rw [Function.update_self, hv]
      exact List.mem_cons_self
    · rw [Function.update_of_ne hj]
      exact List.mem_cons_of_mem _ (hr.current j)
  past b hb hbi := by
    rw [hs] at hbi ⊢
    by_cases hj : b.service = k
    · subst hj
      rw [Function.update_self, hv] at hbi
      have hbi : b.instanceId = i := hbi
      exact absurd (hbi ▸ hr.drawn b hb) hi
    · rw [Function.update_of_ne hj] at hbi ⊢
      exact hr.past b hb hbi
  ledger j n := by
    rw [hs]
    by_cases hj : j = k
    · subst hj
      rw [Function.update_self, hv]
      exact ⟨nofun, fun hmem => absurd (hr.drawn _ hmem) hi⟩
    · rw [Function.update_of_ne hj]
      exact hr.ledger j n

/-- **The ledgers keep up with what is admitted.** -/
theorem step (hr : Recorded h s) (hstep : s.step (k, a) = some s') :
    Recorded (h ++ [⟨s, (k, a), s'⟩]) s' := by
  obtain ⟨v, hv, hs, hdrawn⟩ := State.step_eq_some hstep
  have hnone : (s.server k).starts a = none →
      admissions (h ++ [⟨s, (k, a), s'⟩]) = admissions h := by
    intro hstarts
    rw [admissions_append, Event.admission, Event.server, hstarts]
    exact List.append_nil _
  rcases hdrawn with ⟨i, now, rfl, hfresh, hd⟩ | ⟨hne, hd⟩
  · have hgate : v.gate = Gate.new i := by
      simp only [Server.step] at hv
      split at hv
      · cases hv
        rfl
      · cases hv
    have hr' := hr.replaced hfresh hs hd hgate
    exact hr'.congr (hnone rfl)
  · cases Server.step_changed hv with
    | kept starts instanceId epoch keys _ _ _ =>
        exact (hr.kept hs hd instanceId epoch keys).congr (hnone starts)
    | opened starts instanceId epoch rows _ _ =>
        exact (hr.opened hs hd instanceId epoch rows).congr (hnone starts)
    | admitted handler starts _ instanceId epoch current fresh keys _ _ =>
        refine hr.admitted ?_ hs hd instanceId epoch fresh keys
        rw [Event.admission, Event.server, starts, Option.map_some, current]
    | replaced i now restart _ => exact absurd restart (hne i now)

theorem start (hs : Start s) : Recorded [] s where
  nodup := List.nodup_nil
  drawn := nofun
  current := hs.drawn
  past := nofun
  ledger k n := by
    rw [hs.gate k]
    exact ⟨nofun, nofun⟩

end Recorded

/-- What every step keeps of a server is kept of both servers. -/
theorem servers_invariant {P : Kind → Server → Prop}
    (hstep : ∀ k v a v', P k v → Server.step k v a = some v' → P k v') {s₀ s : State}
    {h : List Event} (hrun : Run State.step s₀ h s) (hs : ∀ k, P k (s₀.server k)) (k : Kind) :
    P k (s.server k) := by
  refine hrun.invariant (P := fun s => ∀ k, P k (s.server k)) (fun t a t' ht hstep' => ?_) hs k
  obtain ⟨v, hv, hs', -⟩ := State.step_eq_some (k := a.1) (a := a.2) hstep'
  intro j
  rw [hs']
  by_cases hj : j = a.1
  · subst hj
    rw [Function.update_self]
    exact hstep _ _ _ _ (ht _) hv
  · rw [Function.update_of_ne hj]
    exact ht j

theorem Start.good {s : State} (hs : Start s) (k : Kind) : (s.server k).Good := by
  have hnew : s.server k = ⟨Gate.new (s.server k).gate.instanceId, [], (s.server k).now⟩ := by
    rw [← hs.gate k, ← hs.handlers k]
  rw [hnew]
  exact Server.good_new _ (hs.clock k)

variable {s₀ s : State} {h : List Event}

/-- Every server is good at every moment. -/
theorem good (hs : Start s₀) (hrun : Run State.step s₀ h s) (k : Kind) : (s.server k).Good :=
  servers_invariant (P := fun _ v => v.Good) (fun _ _ _ _ hv => hv.step) hrun hs.good k

theorem recorded (hs : Start s₀) (hrun : Run State.step s₀ h s) : Recorded h s := by
  induction hrun with
  | nil => exact .start hs
  | snoc _ hstep ih => exact ih.step hstep

theorem wired (hs : Start s₀) (hrun : Run State.step s₀ h s) (k : Kind) :
    (s.server k).Wired k := by
  refine servers_invariant (fun _ _ _ _ hv => hv.step) hrun (fun j => ?_) k
  have hgate := hs.gate j
  refine ⟨fun _ => ?_, ?_, ?_⟩ <;> rw [hgate]
  · rfl
  · exact le_rfl
  · nofun

/-! ## The fence -/

/-- The epoch of an instance is over: no operation of it runs, and none can start. -/
structure Sealed (k : Kind) (instanceId : Instance) (epoch : ℤ) (s : State) : Prop where
  drawn : instanceId ∈ s.drawn
  fenced : (s.server k).gate.instanceId = instanceId → epoch < (s.server k).gate.epoch ∨
    (s.server k).gate.epoch = epoch ∧ (s.server k).gate.closed = true
  quiet : (s.server k).gate.instanceId = instanceId → ∀ handler ∈ (s.server k).handlers,
    handler.epoch ≠ epoch

/-- **Nothing can undo the seal.** -/
theorem Sealed.step {k : Kind} {i : Instance} {e : ℤ} {s s' : State} {a : Kind × Action}
    (hseal : Sealed k i e s) (hstep : s.step a = some s') : Sealed k i e s' := by
  obtain ⟨v, hv, hs, hdrawn⟩ := State.step_eq_some (k := a.1) (a := a.2) hstep
  have hmem : i ∈ s'.drawn := by
    rcases hdrawn with ⟨j, _, _, _, hd⟩ | ⟨_, hd⟩
    · rw [hd]
      exact List.mem_cons_of_mem _ hseal.drawn
    · rw [hd]
      exact hseal.drawn
  by_cases hk : k = a.1
  · subst hk
    have hserver : s'.server a.1 = v := by rw [hs, Function.update_self]
    refine ⟨hmem, ?_, ?_⟩ <;> rw [hserver] <;> intro hi
    · cases Server.step_changed hv with
      | kept _ instanceId epoch _ closed _ _ =>
          rw [epoch]
          exact (hseal.fenced (instanceId ▸ hi)).imp_right fun h => ⟨h.1, closed h.2⟩
      | opened _ instanceId epoch _ _ _ =>
          rw [epoch]
          have := hseal.fenced (instanceId ▸ hi)
          left
          omega
      | admitted _ _ hopen instanceId epoch _ _ _ _ _ =>
          rw [epoch]
          refine (hseal.fenced (instanceId ▸ hi)).imp_right fun h => ?_
          rw [hopen] at h
          cases h.2
      | replaced j now restart started =>
          subst started
          rcases hdrawn with ⟨j', _, hr, hfresh, _⟩ | ⟨hne, _⟩
          · rw [restart] at hr
            cases hr
            exact absurd (show j = i from hi) fun hji => hfresh (hji ▸ hseal.drawn)
          · exact absurd restart (hne j now)
    · cases Server.step_changed hv with
      | kept _ instanceId _ _ _ handlers _ =>
          exact fun handler hh => hseal.quiet (instanceId ▸ hi) handler (handlers handler hh)
      | opened _ instanceId _ _ handlers _ =>
          rw [handlers]
          exact hseal.quiet (instanceId ▸ hi)
      | admitted handler _ hopen instanceId _ current _ _ handlers _ =>
          rw [handlers]
          intro handler' hh
          rw [List.mem_append, List.mem_singleton] at hh
          rcases hh with hh | rfl
          · exact hseal.quiet (instanceId ▸ hi) handler' hh
          · rcases hseal.fenced (instanceId ▸ hi) with hlt | ⟨-, hclosed⟩
            · omega
            · rw [hopen] at hclosed
              cases hclosed
      | replaced j now _ started =>
          subst started
          nofun
  · have hserver : s'.server k = s.server k := by rw [hs, Function.update_of_ne hk]
    exact ⟨hmem, by rw [hserver]; exact hseal.fenced, by rw [hserver]; exact hseal.quiet⟩

/-- A sealed epoch admits nothing. -/
theorem Sealed.not_admitted {k : Kind} {i : Instance} {e n : ℤ} {τ : Event}
    (hseal : Sealed k i e τ.before) (hstep : τ.before.step τ.action = some τ.after) :
    τ.admission ≠ some ⟨k, i, e, n⟩ := by
  intro hadm
  obtain ⟨handler, hstarts, heq⟩ := Option.map_eq_some_iff.1 hadm
  obtain ⟨hk, hi, he, -⟩ := Admission.mk.inj heq
  subst hk
  obtain ⟨v, hv, -, -⟩ := State.step_eq_some (k := τ.action.1) (a := τ.action.2) hstep
  cases Server.step_changed hv with
  | kept starts => rw [Event.server, starts] at hstarts; cases hstarts
  | opened starts => rw [Event.server, starts] at hstarts; cases hstarts
  | replaced _ _ restart => rw [Event.server, restart] at hstarts; cases hstarts
  | admitted handler' starts hopen _ _ current =>
      rw [Event.server, starts] at hstarts
      cases hstarts
      rcases hseal.fenced hi with hlt | ⟨-, hclosed⟩
      · omega
      · rw [hopen] at hclosed
        cases hclosed

end AutonomyLab.Settlement
