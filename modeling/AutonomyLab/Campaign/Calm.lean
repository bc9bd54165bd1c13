import AutonomyLab.Broker.Record
import AutonomyLab.Campaign.Operator
import AutonomyLab.Process.Triple

/-!
# What settles nothing and sends nothing

Most of what an operator does leaves every operation as it is, but for dispatches that become
uncertain.  Whatever such acts preserve is preserved by the programs that consist of them.

* `Resolved`, `Clear`, `ClearBut` — the operations of a journal that are settled.
* `target` — the operation that an act proposes or sends.
* `Calm`, `Stable` — such acts, and what they preserve.
* `triple_reconcilePending` — what is known after the reconciliation.
-/

namespace AutonomyLab.Campaign

open Json Process Sequential Broker Store

abbrev Seen : Type := View (World Workspace) (Label Deed) String

/-! ## Settled operations -/

/-- The operation is acknowledged, rejected or not there. -/
def Resolved (j : Journal) (id : String) : Prop :=
  ∀ s, j.status? id = some s → s = .acknowledged ∨ s = .rejected

/-- Every operation but `id` is settled. -/
def ClearBut (id : String) (j : Journal) : Prop := ∀ k, k ≠ id → Resolved j k

def Clear (j : Journal) : Prop := ∀ k, Resolved j k

theorem ClearBut.clear {id : String} {j : Journal} (h : ClearBut id j) (hid : Resolved j id) : Clear j := by
  intro k
  by_cases hk : k = id
  · rw [hk]
    exact hid
  · exact h k hk

theorem resolved_of_rejected {j : Journal} {id : String} (h : j.status? id = some .rejected) : Resolved j id :=
  fun _ hs => .inr (Option.some.inj (hs.symm.trans h))

/-- An operation that is not settled is pending. -/
theorem mem_pendingOf {j : Journal} {id : String} (h : ¬Resolved j id) : id ∈ pendingOf j.operations.rows := by
  unfold Resolved at h
  push Not at h
  obtain ⟨s, hs, hack, hrej⟩ := h
  obtain ⟨row, hrow, rfl⟩ := Option.map_eq_some_iff.1 hs
  refine List.mem_map.2 ⟨(id, row), List.mem_filter.2 ⟨Table.find?_eq_some.1 hrow, ?_⟩, rfl⟩
  rw [decide_eq_true_iff]
  revert hack hrej
  cases row.status with
  | acknowledged => exact fun h => absurd rfl h
  | rejected => exact fun _ h => absurd rfl h
  | prepared | dispatching | uncertain => simp

theorem clear_of_pendingOf {j : Journal} (h : pendingOf j.operations.rows = []) : Clear j := by
  intro id
  by_contra hid
  have hmem := mem_pendingOf hid
  rw [h] at hmem
  exact List.not_mem_nil hmem

/-! ## Calm acts -/

/-- The operation that an act proposes or sends. -/
def target : Label Deed → Option String
  | .propose p => some p.operationId.1
  | .patchService id _ => some id
  | .ext (.transport id _ _ _) => some id
  | _ => none

/-- Operations stay as they are, but for dispatches that become uncertain. -/
def Rests (j j' : Journal) : Prop :=
  ∀ id, j'.status? id = j.status? id ∨ j.status? id = some .dispatching ∧ j'.status? id = some .uncertain

theorem Rests.refl (j : Journal) : Rests j j := fun _ => .inl rfl

variable {j j' : Journal} {id : String}

theorem Rests.resolved (h : Rests j j') (hid : Resolved j id) : Resolved j' id := by
  intro s hs
  rcases h id with heq | ⟨hd, -⟩
  · exact hid s (heq.symm.trans hs)
  · exact absurd (hid _ hd) (by decide)

theorem Rests.unresolved (h : Rests j j') (hid : ¬Resolved j id) : ¬Resolved j' id := by
  rcases h id with heq | ⟨-, hu⟩
  · unfold Resolved
    rw [heq]
    exact hid
  · exact fun hr => absurd (hr _ hu) (by decide)

theorem Rests.clear (h : Rests j j') (hj : Clear j) : Clear j' := fun k => h.resolved (hj k)

theorem Rests.clearBut (h : Rests j j') (hj : ClearBut id j) : ClearBut id j' :=
  fun k hk => h.resolved (hj k hk)

theorem rests_reconcile (id : String) (observed : List (String × Json)) : Rests j (j.reconcile id observed) := by
  intro k
  by_cases hk : k = id
  · subst hk
    show Option.map Row.status ((j.operations.update k _).find? k) = _ ∨ _ ∧
      Option.map Row.status ((j.operations.update k _).find? k) = _
    rw [Table.find?_update_self]
    unfold Journal.status?
    cases j.operations.find? k with
    | none => exact .inl rfl
    | some row =>
        by_cases hd : row.status = .dispatching
        · exact .inr ⟨congrArg some hd, by simp [hd]⟩
        · exact .inl (by simp [hd])
  · refine .inl ?_
    show Option.map Row.status ((j.operations.update id _).find? k) = _
    rw [Table.find?_update_of_ne hk]
    rfl

/-- An act that proposes nothing, sends nothing and settles nothing. -/
structure Calm (l : Label Deed) (w w' : World Workspace) : Prop where
  target : target l = none
  rests : Rests w.journal w'.journal

variable {δ δ' α : Type} {S : Sequential.System (World Workspace) (Label Deed) String δ δ'}

/-- What calm acts preserve. -/
def Stable (L : Logic S) (t : ℕ) (o : String) (K : Seen → Prop) : Prop :=
  ∀ v l w, K v → Calm l v.world w → Point L (v.log t o l w) ∧ K (v.log t o l w)

/-! ## Calm programs -/

variable {L : Logic S} {t : ℕ} {o : String} {b : ActionBroker Workspace Deed} {contract : Contract} {K : Seen → Prop}

theorem triple_asked : Triple L t o K (asked α) fun _ v => K v := .choose fun _ => .ofExcept fun _ h => h

theorem triple_mayFail : Triple L t o K (mayFail : Program Unit) fun _ v => K v := by
  refine .choose fun b => ?_
  cases b with
  | true => exact .fail fun _ h => h
  | false => exact .done fun _ h => h

theorem triple_ofPy {r : Except PyError α} : Triple L t o K (Broker.ofPy r : Program α) fun _ v => K v :=
  .ofExcept fun _ h => h

section
variable (hK : Stable L t o K)
include hK

/-- A look at the world. -/
theorem triple_read {d : Deed} {f : World Workspace → α} (hd : target (.ext d) = none) :
    Triple L t o K (Proc.read (.ext d) f : Program α) fun r v => K v ∧ r = .ok (f v.world) := by
  refine .perform fun v a w hv hf => ?_
  cases hf
  obtain ⟨hpoint, hk⟩ := hK v (.ext d) v.world hv ⟨hd, .refl _⟩
  exact ⟨hpoint, hk, rfl⟩

theorem triple_emit {l : Label Deed} (hl : target l = none) :
    Triple L t o K (Proc.emit l : Program Unit) fun _ v => K v := by
  refine .perform fun v a w hv hf => ?_
  cases hf
  exact hK v l v.world hv ⟨hl, .refl _⟩

theorem triple_setTools {d : Deed} {f : Toolbox.ObservationTools → Toolbox.ObservationTools}
    (hd : target (.ext d) = none) : Triple L t o K (setTools d f) fun _ v => K v := by
  refine .perform fun v a w hv hf => ?_
  cases hf
  exact hK v (.ext d) _ hv ⟨hd, .refl _⟩

theorem triple_readPolicy {l : Label Deed} {f : BrokerPolicy → α} (hl : target l = none) :
    Triple L t o K (readPolicy o l f : Program α) fun _ v => K v := by
  refine .perform fun v a w hv hf => ?_
  obtain ⟨policy, -, heq⟩ := Option.map_eq_some_iff.1 hf
  cases heq
  exact hK v l v.world hv ⟨hl, .refl _⟩

/-- A block that reads. -/
theorem triple_query {l : Label Deed} {f : BrokerPolicy → Journal → Except BrokerError α} (hl : target l = none) :
    Triple L t o K (query o l f : Program α) fun r v => K v ∧
      Returns (fun a v => ∃ policy, f policy v.world.journal = .ok a) r v := by
  refine .bind triple_mayFail (fun _ => .bind (F := fun r v => K v ∧
    Returns (fun a v => ∃ policy, f policy v.world.journal = a) r v) (.perform fun v r w hv hf => ?_)
    (fun r => .ofExcept ?_) fun _ _ h => ⟨h.1, trivial⟩) fun _ _ h => ⟨h, trivial⟩
  · obtain ⟨policy, -, heq⟩ := Option.map_eq_some_iff.1 hf
    cases heq
    obtain ⟨hpoint, hk⟩ := hK v l v.world hv ⟨hl, .refl _⟩
    exact ⟨hpoint, hk, policy, rfl⟩
  · rintro v ⟨hk, policy, heq⟩
    refine ⟨hk, ?_⟩
    cases r with
    | ok a => exact ⟨policy, heq⟩
    | error e => trivial

/-- A block that writes, and leaves every operation as it is. -/
theorem triple_transaction {l : Label Deed} {f : BrokerPolicy → Journal → Except BrokerError (α × Journal)}
    (hl : target l = none) (hf : ∀ policy j, Rests j (j.commit (f policy j))) :
    Triple L t o K (transaction o l f : Program α) fun _ v => K v := by
  refine .bind triple_mayFail (fun _ => .bind (F := fun _ v => K v) (.perform fun v r w hv hr => ?_)
    (fun r => .ofExcept fun _ h => h) fun _ _ h => h) fun _ _ h => h
  split at hr
  · obtain ⟨policy, -, heq⟩ := Option.map_eq_some_iff.1 hr
    have hrests := hf policy v.world.journal
    split at heq
    · rename_i heq'
      cases heq
      rw [heq'] at hrests
      exact hK v l _ hv ⟨hl, hrests⟩
    · cases heq
      exact hK v l _ hv ⟨hl, .refl _⟩
  · cases hr

end

/-- An operation that is shown as rejected is rejected. -/
def Shows (id : String) (operation : Journal.Operation) (v : Seen) : Prop :=
  operation.status = .rejected → v.world.journal.status? id = some .rejected

theorem status?_of_lookup {self : String} {policy : BrokerPolicy} {operation : Journal.Operation}
    (h : j.lookup self policy id = .ok operation) (hs : operation.status = .rejected) :
    j.status? id = some .rejected := by
  unfold Journal.lookup at h
  split at h
  · cases h
  · rename_i row hrow
    cases h
    show (j.operations.find? id).map Row.status = _
    rw [hrow]
    dsimp only at hs
    split at hs
    · cases hs
    · exact congrArg some hs

section
variable (hK : Stable L t b.self K)
include hK

theorem triple_lookup : Triple L t b.self K (b.lookup id) fun r v => K v ∧ Returns (Shows id) r v := by
  refine (triple_query hK rfl).mono (fun _ h => h) ?_
  rintro r v ⟨hk, hr⟩
  refine ⟨hk, ?_⟩
  cases r with
  | error e => trivial
  | ok operation =>
      obtain ⟨policy, hlookup⟩ := hr
      exact status?_of_lookup hlookup

theorem triple_reconcile (hget : ∀ ns name, Triple L t b.self K (b.getService ns name) fun _ v => K v) :
    Triple L t b.self K (b.reconcile id) fun r v => K v ∧ Returns (Shows id) r v := by
  refine .bind (triple_lookup hK) (fun operation => ?_) fun _ _ h => ⟨h.1, trivial⟩
  cases Proposal.modelValidate operation.row.request with
  | none => exact .fail fun _ h => ⟨h.1, trivial⟩
  | some p =>
      have hobserve : Triple L t b.self K (b.observe id p) fun _ v => K v := by
        refine .bind (triple_readPolicy hK rfl) (fun reason => ?_) fun _ _ h => h
        cases reason with
        | some _ => exact .fail fun _ h => h
        | none => exact .bind (hget _ _) (fun _ => triple_ofPy) fun _ _ h => h
      refine .bind (F := fun _ v => K v) (hobserve.attempt.mono (fun _ h => h.1) fun _ _ h => h)
        (fun observed => ?_) fun _ _ h => ⟨h, trivial⟩
      exact .bind (triple_transaction hK rfl fun _ j => rests_reconcile id _) (fun _ => triple_lookup hK)
        fun _ _ h => ⟨h, trivial⟩

end

/-! ## Pending operations -/

section
variable (hK : Stable L t o K)
include hK

theorem triple_reconcileAll (ids : List String) :
    Triple L t o K (reconcileAll contract o ids) fun _ v => K v := by
  induction ids with
  | nil => exact .done fun _ h => h
  | cons id ids ih =>
      have hone : Triple L t o K ((broker contract o).reconcile id) fun r v => K v ∧ Returns (Shows id) r v :=
        triple_reconcile (b := broker contract o) hK fun _ _ => triple_asked
      exact .bind (hone.mono (fun _ h => h) fun _ _ h => h.1) (fun _ => ih) fun _ _ h => h

theorem triple_operationRows : Triple L t o K operationRows fun r v => K v ∧
    Returns (fun rows v => rows = v.world.journal.operations.rows) r v := by
  refine .bind triple_asked (fun _ => (triple_read hK rfl).mono (fun _ h => h) ?_) fun _ _ h => ⟨h, trivial⟩
  rintro r v ⟨hk, rfl⟩
  exact ⟨hk, rfl⟩

/-- **Where nothing was pending, everything is settled.** -/
theorem triple_reconcilePending : Triple L t o K (reconcilePending contract o) fun r v => K v ∧
    Returns (fun ids v => ids = [] → Clear v.world.journal) r v := by
  refine .bind (triple_operationRows hK) (fun rows => ?_) fun _ _ h => ⟨h.1, trivial⟩
  by_cases hids : pendingOf rows = []
  · show Triple L t o _ (Proc.bind (reconcileAll contract o (pendingOf rows)) fun _ => .done (pendingOf rows)) _
    rw [hids]
    refine .done ?_
    rintro v ⟨hk, rfl⟩
    exact ⟨hk, fun _ => clear_of_pendingOf hids⟩
  · refine .bind (F := fun _ v => K v) ((triple_reconcileAll hK _).mono (fun _ h => h.1) fun _ _ h => h)
      (fun _ => .done fun _ hk => ⟨hk, fun h => absurd h hids⟩) fun _ _ h => ⟨h, trivial⟩

end

end AutonomyLab.Campaign
