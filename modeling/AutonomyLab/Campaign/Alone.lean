import AutonomyLab.Campaign.Calm

/-!
# One operation at a time

A proposal that is made where every other operation is settled: whatever the broker then does is
about the one operation, and so every other stays settled.

* `Careful` — an act proposes or sends an operation only where every other is settled.
* `Alone` — the acts so far were careful, and every operation but one is settled.
* `triple_propose` — a proposal keeps it so, and an operation that is shown as rejected is.
-/

namespace AutonomyLab.Campaign

open Json Process Sequential Broker Store

/-- An act that proposes or sends an operation finds every other settled. -/
def Careful (e : Event (World Workspace) (Label Deed) String) : Prop :=
  ∀ id, target e.label = some id → ClearBut id e.pre.journal

/-- The logic of careful operators. -/
def logic (P : Toolbox.Platform) (contract : Contract) (j₀ : Journal) : Logic (campaign P contract j₀) where
  inv v := ∀ e ∈ v.hist, Careful e
  idle _ := True
  inv_init _ := by rintro e ⟨⟩
  idle_init _ := trivial

/-- The acts so far were careful, and every operation but `id` is settled. -/
structure Alone (id : String) (v : Seen) : Prop where
  careful : ∀ e ∈ v.hist, Careful e
  clear : ClearBut id v.world.journal

/-! ## Transactions on one operation -/

section
variable {P : Platform} {policy : BrokerPolicy} {p : Proposal} {j : Journal} {self id k : String}

theorem status?_propose (hk : k ≠ p.operationId.1) :
    (j.commit (j.propose P policy p)).status? k = j.status? k := by
  rcases propose_cases P policy p j with h | ⟨row, binding, operations, contracts, -, -, hop, -, h⟩
  · rw [h]
  · rw [h]
    show (operations.find? k).map Row.status = _
    rw [Table.find?_insert hop, if_neg hk]
    rfl

theorem status?_updateRow {f : Row → Row} (hk : k ≠ id) : (j.updateRow id f).status? k = j.status? k := by
  show ((j.operations.update id f).find? k).map Row.status = _
  rw [Table.find?_update_of_ne hk]
  rfl

theorem status?_rejectPrepared {reason : String} {expected : Option Json} (hk : k ≠ id) :
    (j.rejectPrepared id reason expected).status? k = j.status? k := by
  unfold Journal.rejectPrepared
  split
  · rfl
  · split
    · exact status?_updateRow hk
    · rfl

theorem status?_claim {reason : Option String} (hk : k ≠ id) :
    (j.claim self id reason).2.status? k = j.status? k := by
  unfold Journal.claim
  split
  · cases reason with
    | none => exact status?_updateRow hk
    | some reason => exact status?_updateRow hk
  · rfl

theorem status?_finish {out : Journal.Outcome} (hk : k ≠ id) : (j.finish self id out).status? k = j.status? k := by
  unfold Journal.finish
  split
  · split
    · exact status?_updateRow hk
    · rfl
  · rfl

theorem rests_recordConditions {candidate : Json} : Rests j (j.commit (j.recordConditions P p candidate)) := by
  rcases recordConditions_cases P p candidate j with ⟨h, -⟩ | ⟨-, sum, h⟩
  · rw [h]
    exact .refl j
  · rw [h]
    exact .refl j

end

/-! ## Acts on one operation -/

section
variable {P : Toolbox.Platform} {contract : Contract} {j₀ : Journal} {t : ℕ} {o id : String} {v : Seen} {α : Type}

theorem Alone.log {l : Label Deed} {w : World Workspace} (h : Alone id v) (hl : ∀ k, target l = some k → k = id)
    (hj : ∀ k, k ≠ id → w.journal.status? k = v.world.journal.status? k) :
    Point (logic P contract j₀) (v.log t o l w) ∧ Alone id (v.log t o l w) := by
  have hcareful : ∀ e ∈ (v.log t o l w).hist, Careful e := by
    intro e he
    rcases List.mem_cons.1 he with rfl | he
    · intro k hk
      rw [hl k hk]
      exact h.clear
    · exact h.careful e he
  refine ⟨⟨hcareful, fun _ => trivial⟩, hcareful, fun k hk s hs => ?_⟩
  exact h.clear k hk s ((hj k hk).symm.trans hs)

theorem stable_alone : Stable (logic P contract j₀) t o (Alone id) := by
  intro v l w h hcalm
  have hcareful : ∀ e ∈ (v.log t o l w).hist, Careful e := by
    intro e he
    rcases List.mem_cons.1 he with rfl | he
    · intro k hk
      cases hcalm.target.symm.trans hk
    · exact h.careful e he
  exact ⟨⟨hcareful, fun _ => trivial⟩, hcareful, hcalm.rests.clearBut h.clear⟩

/-- A block that writes about the one operation. -/
theorem triple_write {l : Label Deed} {f : BrokerPolicy → Journal → Except BrokerError (α × Journal)}
    (hl : ∀ k, target l = some k → k = id)
    (hf : ∀ policy (j : Journal) k, k ≠ id → (j.commit (f policy j)).status? k = j.status? k) :
    Triple (logic P contract j₀) t o (Alone id) (transaction o l f : Program α) fun _ v => Alone id v := by
  refine .bind triple_mayFail (fun _ => .bind (F := fun _ v => Alone id v) (.perform fun v r w hv hr => ?_)
    (fun r => .ofExcept fun _ h => h) fun _ _ h => h) fun _ _ h => h
  split at hr
  · obtain ⟨policy, -, heq⟩ := Option.map_eq_some_iff.1 hr
    have hstatus := hf policy v.world.journal
    split at heq
    · rename_i heq'
      cases heq
      rw [heq'] at hstatus
      exact hv.log hl hstatus
    · cases heq
      exact hv.log hl fun _ _ => rfl
  · cases hr

theorem triple_rejectPrepared {reason : String} {expected : Option Json} :
    Triple (logic P contract j₀) t o (Alone id) ((broker contract o).rejectPrepared id reason expected)
      fun r v => Alone id v ∧ Returns (Shows id) r v := by
  refine .bind (triple_write (by rintro k ⟨⟩) fun _ j k hk => status?_rejectPrepared hk) (fun _ => ?_)
    fun _ _ h => ⟨h, trivial⟩
  exact triple_lookup (b := broker contract o) stable_alone

theorem triple_finish {out : Journal.Outcome} :
    Triple (logic P contract j₀) t o (Alone id) ((broker contract o).finish id out)
      fun r v => Alone id v ∧ Returns (Shows id) r v := by
  refine .bind (triple_write (by rintro k ⟨⟩) fun _ j k hk => status?_finish hk) (fun _ => ?_)
    fun _ _ h => ⟨h, trivial⟩
  exact triple_lookup (b := broker contract o) stable_alone

/-! ## The claim -/

theorem triple_beginClaim {p : Proposal} {binding : Json} :
    Triple (logic P contract j₀) t o (Alone id) ((broker contract o).beginClaim P.toPlatform id p binding)
      fun _ v => Alone id v := by
  refine .bind triple_mayFail (fun _ => .bind (F := fun _ v => Alone id v) (.perform fun v r w hv hr => ?_)
    (fun _ => .ofExcept fun _ h => h) fun _ _ h => h) fun _ _ h => h
  split at hr
  · obtain ⟨policy, -, heq⟩ := Option.map_eq_some_iff.1 hr
    split at heq <;> cases heq <;> exact stable_alone v _ _ hv ⟨rfl, .refl _⟩
  · cases hr

theorem triple_authorization {p : Proposal} {current : Json} {patch : List Op} :
    Triple (logic P contract j₀) t o (Alone id) ((broker contract o).authorization p current patch)
      fun _ v => Alone id v := by
  unfold ActionBroker.authorization broker
  cases contract.admitProgram with
  | false => exact .done fun _ h => h
  | true =>
      refine .bind (F := fun _ v => Alone id v) triple_asked.attempt (fun result => ?_) fun _ _ h => h
      split <;> exact .done fun _ h => h

theorem triple_endClaim {reason : Option String} :
    Triple (logic P contract j₀) t o (Alone id) ((broker contract o).endClaim id reason) fun _ v => Alone id v := by
  refine .bind (F := fun _ v => Alone id v) (.choose fun _ => .done fun _ h => h) (fun aborted => ?_) fun _ _ h => h
  cases aborted with
  | true =>
      refine .bind (F := fun _ v => Alone id v) (.perform fun v r w hv hr => ?_) (fun _ => .fail fun _ h => h)
        fun _ _ h => h
      split at hr
      · cases hr
        exact stable_alone v _ _ hv ⟨rfl, .refl _⟩
      · cases hr
  | false =>
      refine .perform fun v r w hv hr => ?_
      split at hr
      · cases hr
        exact hv.log (by rintro k ⟨⟩) fun k hk => status?_claim hk
      · cases hr

theorem triple_claimDispatch {p : Proposal} {binding : Json} {patch : List Op} :
    Triple (logic P contract j₀) t o (Alone id) ((broker contract o).claimDispatch P.toPlatform id p binding patch)
      fun _ v => Alone id v := by
  have hend : ∀ reason : Option String, Triple (logic P contract j₀) t o (Alone id)
      (((broker contract o).endClaim id reason).bind fun changed => .done (changed && reason.isNone))
      fun _ v => Alone id v :=
    fun reason => .bind triple_endClaim (fun _ => .done fun _ h => h) fun _ _ h => h
  refine .bind triple_beginClaim (fun claimed => ?_) fun _ _ h => h
  rcases claimed with - | ⟨- | reason, current⟩
  · exact .done fun _ h => h
  · exact .bind triple_authorization (fun reason => hend reason) fun _ _ h => h
  · exact hend (some reason)

/-! ## The dispatch -/

/-- The operation that is being dispatched is the one. -/
theorem triple_clear : Triple (logic P contract j₀) t o (Alone id) (clear o)
    fun r v => Alone id v ∧ Returns (fun k _ => k = id) r v := by
  refine .bind triple_asked (fun _ => .bind (triple_operationRows stable_alone) (fun rows => ?_)
    fun _ _ h => ⟨h.1, trivial⟩) fun _ _ h => ⟨h, trivial⟩
  split
  · rename_i k row heq
    refine .bind (F := fun r v => Alone id v ∧ Returns (fun _ _ => k = id) r v) ?_
      (fun _ => .done fun _ h => h) fun _ _ h => ⟨h.1, trivial⟩
    refine .mono (A := fun v => Alone id v ∧ k = id) (F := fun _ v => Alone id v ∧ k = id)
      (.choose fun _ => .ofExcept fun _ h => h) ?_ ?_
    · rintro v ⟨h, rfl⟩
      refine ⟨h, by_contra fun hk => ?_⟩
      have hmem : (k, row) ∈ v.world.journal.operations.rows.filter
          fun row => row.2.status = .dispatching && row.2.owner = some o := by
        rw [heq]
        exact List.mem_singleton_self _
      obtain ⟨hrow, hdispatching⟩ := List.mem_filter.1 hmem
      rw [Bool.and_eq_true, decide_eq_true_iff] at hdispatching
      have hstatus : v.world.journal.status? k = some .dispatching := by
        show (v.world.journal.operations.find? k).map Row.status = _
        rw [Table.find?_eq_some.2 hrow]
        exact congrArg some hdispatching.1
      exact absurd (h.clear k hk _ hstatus) (by decide)
    · intro r v h
      refine ⟨h.1, ?_⟩
      cases r with
      | ok _ => exact h.2
      | error _ => trivial
  · exact .fail fun _ h => ⟨h.1, trivial⟩

theorem triple_patchService {ns name : String} {patch : List Op} :
    Triple (logic P contract j₀) t o (Alone id) (patchService contract o ns name patch) fun _ v => Alone id v := by
  have hclear : Triple (logic P contract j₀) t o (Alone id) (Proc.attempt (clear o))
      fun r v => Alone id v ∧ ∀ k, r = .ok (.ok k) → k = id := by
    refine .attempt (triple_clear.mono (fun _ h => h) ?_)
    rintro r v ⟨h, hr⟩
    refine ⟨h, ?_⟩
    rintro k ⟨⟩
    exact hr
  refine .bind hclear (fun cleared => ?_) fun _ _ h => h.1
  cases cleared with
  | error e =>
      exact .bind (F := fun _ v => Alone id v) (.choose fun _ => .done fun _ h => h.1) (fun _ => .fail fun _ h => h)
        fun _ _ h => h
  | ok k =>
      refine .bind (F := fun _ v => Alone id v) (.perform fun v r w hv hr => ?_) (fun _ => triple_asked) fun _ _ h => h
      cases hr
      refine hv.1.log ?_ fun _ _ => rfl
      rintro _ ⟨⟩
      exact hv.2 k rfl

theorem triple_dispatch {p : Proposal} {patch : List Op} :
    Triple (logic P contract j₀) t o (Alone id) ((broker contract o).dispatch id p patch)
      fun r v => Alone id v ∧ Returns (Shows id) r v := by
  refine .bind (F := fun _ v => Alone id v) (.perform fun v r w hv hr => ?_) (fun _ => ?_) fun _ _ h => ⟨h, trivial⟩
  · cases hr
    refine hv.log ?_ fun _ _ => rfl
    rintro _ ⟨⟩
    rfl
  refine .bind (F := fun _ v => Alone id v) triple_patchService.attempt (fun answer => ?_) fun _ _ h => ⟨h, trivial⟩
  refine .bind (triple_emit stable_alone rfl) (fun _ => ?_) fun _ _ h => ⟨h, trivial⟩
  cases answer with
  | error e => exact triple_finish
  | ok result =>
      exact .bind triple_asked (fun _ => .bind triple_asked (fun _ => triple_finish) fun _ _ h => ⟨h, trivial⟩)
        fun _ _ h => ⟨h, trivial⟩

theorem triple_send {p : Proposal} {patch : List Op} {binding : Json} :
    Triple (logic P contract j₀) t o (Alone id) ((broker contract o).send P.toPlatform id p patch binding)
      fun r v => Alone id v ∧ Returns (Shows id) r v := by
  refine .bind triple_asked (fun _ => .bind triple_claimDispatch (fun claimed => ?_) fun _ _ h => ⟨h, trivial⟩)
    fun _ _ h => ⟨h, trivial⟩
  cases claimed with
  | true => exact triple_dispatch
  | false => exact triple_lookup (b := broker contract o) stable_alone

/-! ## Before the claim -/

/-- What a preflight returns is shown. -/
def PreflightShows (id : String) : ActionBroker.Preflight → Seen → Prop
  | .returned operation, v => Shows id operation v
  | _, _ => True

theorem triple_construct {p : Proposal} {binding : Json} {isPrecise : Bool} :
    Triple (logic P contract j₀) t o (Alone id) ((broker contract o).construct P.toPlatform id p binding isPrecise)
      fun r v => Alone id v ∧ Returns (PreflightShows id) r v := by
  refine .bind triple_asked (fun service => .bind triple_ofPy (fun constructed => ?_) fun _ _ h => ⟨h, trivial⟩)
    fun _ _ h => ⟨h, trivial⟩
  cases constructed with
  | error reason => exact .done fun _ h => ⟨h, trivial⟩
  | ok patch =>
      cases isPrecise with
      | false => exact .done fun _ h => ⟨h, trivial⟩
      | true =>
          refine .bind triple_ofPy (fun candidate => ?_) fun _ _ h => ⟨h, trivial⟩
          split
          · exact .fail fun _ h => ⟨h, trivial⟩
          · refine .bind triple_rejectPrepared (fun operation => .done fun _ h => h) fun _ _ h => ⟨h.1, trivial⟩
          · refine .bind (triple_transaction stable_alone rfl fun _ j => rests_recordConditions)
              (fun recorded => .bind triple_ofPy (fun patch => .done fun _ h => ⟨h, trivial⟩) fun _ _ h => ⟨h, trivial⟩)
              fun _ _ h => ⟨h, trivial⟩

theorem triple_preflight {p : Proposal} {binding : Json} :
    Triple (logic P contract j₀) t o (Alone id) ((broker contract o).preflight P.toPlatform id p binding)
      fun r v => Alone id v ∧ Returns (PreflightShows id) r v := by
  refine .bind triple_ofPy (fun contractId => ?_) fun _ _ h => ⟨h, trivial⟩
  split
  · refine .bind triple_ofPy (fun snapshot => ?_) fun _ _ h => ⟨h, trivial⟩
    split
    · exact .bind triple_ofPy (fun patch => .done fun _ h => ⟨h, trivial⟩) fun _ _ h => ⟨h, trivial⟩
    · exact triple_construct
  · exact triple_construct

theorem triple_resume {p : Proposal} :
    Triple (logic P contract j₀) t o (Alone id) ((broker contract o).resume P.toPlatform id p)
      fun r v => Alone id v ∧ Returns (Shows id) r v := by
  have hbinding : Triple (logic P contract j₀) t o (Alone id) ((broker contract o).contractBinding id)
      fun _ v => Alone id v := (triple_query stable_alone rfl).mono (fun _ h => h) fun _ _ h => h.1
  refine .bind hbinding (fun binding => .bind (triple_readPolicy stable_alone rfl) (fun reason => ?_)
    fun _ _ h => ⟨h, trivial⟩) fun _ _ h => ⟨h, trivial⟩
  cases reason with
  | some reason => exact triple_rejectPrepared
  | none =>
      have hpreflight : Triple (logic P contract j₀) t o (Alone id)
          (Proc.attempt ((broker contract o).preflight P.toPlatform id p binding))
          fun r v => Alone id v ∧ ∀ operation, r = .ok (.ok (.returned operation)) → Shows id operation v := by
        refine .attempt (triple_preflight.mono (fun _ h => h) ?_)
        rintro r v ⟨h, hr⟩
        refine ⟨h, ?_⟩
        rintro operation ⟨⟩
        exact hr
      refine .bind hpreflight (fun result => ?_) fun _ _ h => ⟨h.1, trivial⟩
      rcases result with e | ⟨patch, binding⟩ | reason | operation
      · refine .mono (A := Alone id) ?_ (fun _ h => h.1) fun _ _ h => h
        refine .bind (triple_transaction stable_alone rfl fun _ j => .refl j) (fun _ => ?_) fun _ _ h => ⟨h, trivial⟩
        exact triple_lookup (b := broker contract o) stable_alone
      · exact triple_send.mono (fun _ h => h.1) fun _ _ h => h
      · exact triple_rejectPrepared.mono (fun _ h => h.1) fun _ _ h => h
      · exact .done fun _ h => ⟨h.1, h.2 operation rfl⟩

/-! ## Proposals -/

theorem triple_resumePrepared :
    Triple (logic P contract j₀) t o (Alone id) ((broker contract o).resumePrepared P.toPlatform id)
      fun r v => Alone id v ∧ Returns (Shows id) r v := by
  refine .bind (triple_lookup (b := broker contract o) stable_alone) (fun operation => ?_) fun _ _ h => ⟨h.1, trivial⟩
  split
  · split
    · exact .fail fun _ h => ⟨h.1, trivial⟩
    · exact triple_resume.mono (fun _ h => h.1) fun _ _ h => h
  · exact .done fun _ h => h

/-- **Where every other operation is settled, a proposal leaves them settled**, and the operation
that it returns is rejected if it is shown so. -/
theorem triple_propose {p : Proposal} :
    Triple (logic P contract j₀) t o (Alone p.operationId.1) ((broker contract o).propose P.toPlatform p.modelDump)
      fun r v => Alone p.operationId.1 v ∧ Returns (Shows p.operationId.1) r v := by
  unfold ActionBroker.propose
  rw [Proposal.modelValidate_modelDump]
  refine .bind (triple_write ?_ fun _ j k hk => status?_propose hk) (fun resumed => ?_) fun _ _ h => ⟨h, trivial⟩
  · rintro _ ⟨⟩
    rfl
  cases resumed with
  | true => exact .bind triple_asked (fun _ => triple_resumePrepared) fun _ _ h => ⟨h, trivial⟩
  | false => exact triple_lookup (b := broker contract o) stable_alone

end

end AutonomyLab.Campaign
