import AutonomyLab.Broker.Record

/-!
# The dispatch protocol

What a thread of a broker process may do next, given what has happened: the protocol
that the broker's program follows (`AutonomyLab.Broker.Sound`) and from which the laws
of the journal are derived, without looking at the program again.

* `Ext` — what is known of the code a broker is given.
* `Checked`, `Claimable` — what the claim of a dispatch is based on.
* `Act` — the acts of the protocol.  The guard of each act names the earlier events it
  rests on: a patch is sent by a thread that has claimed the operation, for which no
  patch has been sent, and an outcome is recorded by the thread to which the patch was
  answered.
* `Trace` — a history in which every event was such an act, with the journal it led to.
* `Act.effect` — what an act does to the record of any operation.
-/

namespace AutonomyLab.Broker

open Json Contract Process

variable {ρ Λ : Type}

/-- The view of a broker process. -/
abbrev Seen (ρ Λ : Type) : Type := View (World ρ) (Label Λ) String

/-- An act of a broker process that took place. -/
abbrev Did (ρ Λ : Type) : Type := Event (World ρ) (Label Λ) String

/-- What is known of the code a broker is given. -/
structure Ext (ρ Λ : Type) where
  /-- Thread `t` of instance `o` may do `x` and leave `r`. -/
  guar : ℕ → String → Seen ρ Λ → Λ → ρ → Prop
  /-- What holds once a dispatch has been authorized. -/
  authorized : ℕ → String → Proposal → Json → List Op → Seen ρ Λ → Prop

/-- Nothing is known of the code a broker is given, except that it has no way to touch
what the brokers share. -/
def Ext.any : Ext Unit Empty := ⟨fun _ _ _ _ _ => True, fun _ _ _ _ _ _ => True⟩

/-- Acts that change nothing and claim nothing. -/
def Label.isRead : Label Λ → Bool
  | .lookup _ | .contractBinding _ | .policyReason _ | .beginClaim _ => true
  | _ => false

/-- The operation whose dispatch a label is about. -/
def Label.dispatchOf : Label Λ → Option String
  | .patchService id _ | .patchReturned id _ _ => some id
  | _ => none

/-- The events of the dispatch of an operation. -/
def dispatches (id : String) (hist : List (Did ρ Λ)) : List (Did ρ Λ) :=
  hist.filter fun e => e.label.dispatchOf = some id

/-- The operation has a row, and its request reads as `p`. -/
def Requested (id : String) (p : Proposal) (j : Journal) : Prop :=
  p.operationId.1 = id ∧
    ∃ row, j.operations.find? id = some row ∧ Proposal.modelValidate row.request = some p

/-- Every row is under the id, and of the run, that its request names. -/
def Journal.Sane (j : Journal) : Prop :=
  ∀ id row p, j.operations.find? id = some row → Proposal.modelValidate row.request = some p →
    p.operationId.1 = id ∧ p.runId.1 = row.runId

/-- The patch is the one the binding calls for. -/
structure Built (P : Platform) (p : Proposal) (binding : Json) (patch : List Op) : Prop where
  precise : subscript "contract_id" binding = .ok (.str precise) →
    patchForBinding P p.modelDump binding = .ok patch
  legacy : subscript "contract_id" binding ≠ .ok (.str Contract.precise) →
    ∃ service, constructPatch p service = .ok (.ok patch)

section
variable (P : Platform) (E : Ext ρ Λ) (t : ℕ) (o : String)

/-- What thread `t` of instance `o` has checked in a claim transaction it began itself. -/
structure Checked (id : String) (p : Proposal) (patch : List Op) (v : Seen ρ Λ) : Prop where
  prepared : v.world.journal.status? id = some .prepared
  requested : Requested id p v.world.journal
  checked : ∃ e ∈ v.hist, e.tid = t ∧ e.actor = o ∧ e.label = .beginClaim id ∧
    e.pre.journal = v.world.journal ∧ ∃ policy, e.pre.policies o = some policy ∧
      v.world.journal.claimReason P policy id p (v.world.journal.binding id) = none
  built : Built P p (v.world.journal.binding id) patch

/-- What the claim of a dispatch is based on. -/
structure Claimable (id : String) (p : Proposal) (patch : List Op) (v : Seen ρ Λ) : Prop extends
    Checked P t o id p patch v where
  authorized : E.authorized t o p (v.world.journal.binding id) patch v

/-- Thread `t` of instance `o` has claimed the dispatch of the operation. -/
def Claimed (id : String) (p : Proposal) (patch : List Op) (hist : List (Did ρ Λ)) : Prop :=
  ∃ e past, e :: past <:+ hist ∧ e.tid = t ∧ e.actor = o ∧ e.label = .endClaim id none ∧
    Claimable P E t o id p patch ⟨e.pre, past⟩

/-- Why an instance may refuse an operation in its claim transaction. -/
def Refusal (id reason : String) (v : Seen ρ Λ) : Prop :=
  (∃ policy p, v.world.journal.claimReason P policy id p (v.world.journal.binding id) =
    some reason) ∨
  reason = "dispatch_authorization_refused" ∨ reason = "dispatch_authorization_unavailable"

/-- Why an instance may refuse an operation before any claim: the policy or the binding
are against it, or a read of the service is, and then no conditions had been recorded. -/
def Rejection (reason : String) (expected : Option Json) : Prop :=
  (expected = none ∧ ∃ policy p binding,
    (BrokerPolicy.policyReason policy p).or (Journal.contractReason P policy p binding) =
      some reason) ∨
  ∃ binding, expected = some binding ∧
    (subscript "contract_id" binding = .ok (.str precise) →
      subscript "snapshot" binding = .ok .null)

/-- The acts of thread `t` of instance `o`, with the world they leave. -/
inductive Act (v : Seen ρ Λ) : Label Λ → World ρ → Prop
  | read {l} : l.isRead = true → Act v l v.world
  | propose {p policy} : v.world.writer = none → v.world.policies o = some policy →
      Act v (.propose p)
        { v.world with journal := v.world.journal.commit (v.world.journal.propose P policy p) }
  | preflightUnavailable {id e row} : v.world.writer = none →
      v.world.journal.operations.find? id = some row →
      Act v (.preflightUnavailable id e)
        { v.world with
          journal := v.world.journal.addEvent id .preflightUnavailable
            [("error_type", .str e.name)] }
  | recordConditions {p candidate snapshot ops} : v.world.writer = none →
      bindingFor P p.modelDump (.str precise) snapshot = .ok candidate →
      patchForBinding P p.modelDump candidate = .ok ops →
      Act v (.recordConditions p candidate)
        { v.world with
          journal := v.world.journal.commit (v.world.journal.recordConditions P p candidate) }
  | rejectPrepared {id reason expected} : v.world.writer = none → Rejection P reason expected →
      Act v (.rejectPrepared id reason expected)
        { v.world with journal := v.world.journal.rejectPrepared id reason expected }
  | beginClaim {id} : v.world.writer = none → v.world.journal.status? id = some .prepared →
      Act v (.beginClaim id) { v.world with writer := some t }
  | abortClaim {id} : v.world.writer = some t → Act v (.abortClaim id) { v.world with writer := none }
  | refuse {id reason} : v.world.writer = some t → v.world.journal.status? id = some .prepared →
      Refusal P id reason v →
      Act v (.endClaim id (some reason))
        { v.world with
          journal := (v.world.journal.claim o id (some reason)).2, writer := none }
  | claim {id p patch} : v.world.writer = some t → Claimable P E t o id p patch v →
      Act v (.endClaim id none)
        { v.world with journal := (v.world.journal.claim o id none).2, writer := none }
  | patchService {id p patch} : Claimed P E t o id p patch v.hist → dispatches id v.hist = [] →
      Act v (.patchService id patch) v.world
  | patchReturned {id p patch answer} : Claimed P E t o id p patch v.hist →
      (∃ e, dispatches id v.hist = [e] ∧ e.tid = t ∧ e.label = .patchService id patch) →
      Act v (.patchReturned id p answer) v.world
  | finish {id p answer} : v.world.writer = none →
      (∃ e ∈ v.hist, e.tid = t ∧ e.actor = o ∧ e.label = .patchReturned id p answer) →
      Act v (.finish id (outcome p answer))
        { v.world with journal := v.world.journal.finish o id (outcome p answer) }
  | reconcile {id observed row} : v.world.writer = none →
      v.world.journal.operations.find? id = some row →
      Act v (.reconcile id observed)
        { v.world with journal := v.world.journal.reconcile id observed }
  | ext {x r} : E.guar t o v x r → Act v (.ext x) { v.world with rest := r }

end

/-! ## Acts and records -/

section
variable {P : Platform} {E : Ext ρ Λ} {t : ℕ} {o : String} {v : Seen ρ Λ} {l : Label Λ}
  {w : World ρ}

/-- **Every act is, for every operation, one of the changes a record can go through.** -/
theorem Act.effect (h : Act P E t o v l w) (k : String) :
    Effect P o k l (v.world.journal.record k) (w.journal.record k) := by
  cases h with
  | @read l hl => exact .same (by cases l <;> simp_all [Label.isRead, Label.claimOf])
  | propose _ _ => exact effect_propose
  | preflightUnavailable _ hrow => exact effect_addEvent hrow
  | recordConditions _ _ _ => exact effect_recordConditions
  | rejectPrepared _ _ => exact effect_rejectPrepared
  | beginClaim _ _ => exact .same (by rintro ⟨⟩)
  | abortClaim _ => exact .same (by rintro ⟨⟩)
  | refuse _ hs _ => exact effect_refuse hs
  | claim _ hc => exact effect_claim hc.prepared
  | patchService _ _ => exact .same (by rintro ⟨⟩)
  | patchReturned _ _ => exact .same (by rintro ⟨⟩)
  | finish _ _ => exact effect_finish (isOutcome_outcome _ _)
  | reconcile _ hrow => exact effect_reconcile hrow
  | ext _ => exact .same (by rintro ⟨⟩)

/-- Nobody else writes while a thread holds the lock. -/
theorem Act.locked (h : Act P E t o v l w) {u : ℕ} (hu : u ≠ t) (hw : v.world.writer = some u) :
    w.writer = some u ∧ w.journal = v.world.journal := by
  cases h <;> simp_all

end

/-! ## Histories -/

/-- A history of acts from the journal `j₀` on, and the journal it led to. -/
inductive Trace (P : Platform) (E : Ext ρ Λ) (j₀ : Journal) : List (Did ρ Λ) → Journal → Prop
  | nil : Trace P E j₀ [] j₀
  | cons {e past} : Trace P E j₀ past e.pre.journal →
      Act P E e.tid e.actor ⟨e.pre, past⟩ e.label e.post →
      Trace P E j₀ (e :: past) e.post.journal

section
variable {P : Platform} {E : Ext ρ Λ} {j₀ j : Journal} {hist past : List (Did ρ Λ)} {e : Did ρ Λ}

/-- What had happened at some point was a history too. -/
theorem Trace.suffix (h : Trace P E j₀ hist j) (hs : e :: past <:+ hist) :
    Trace P E j₀ (e :: past) e.post.journal ∧ Trace P E j₀ past e.pre.journal ∧
      Act P E e.tid e.actor ⟨e.pre, past⟩ e.label e.post := by
  induction h with
  | nil => simp at hs
  | @cons e' past' ht ha ih =>
      rcases List.suffix_cons_iff.1 hs with heq | hs
      · injection heq with he hp
        subst he hp
        exact ⟨.cons ht ha, ht, ha⟩
      · exact ih hs

theorem Journal.sane_empty : Journal.empty.Sane := by
  rintro id row p ⟨⟩

/-- Rows stay where their requests name them. -/
theorem Trace.sane (h : Trace P E j₀ hist j) (h₀ : j₀.Sane) : j.Sane := by
  induction h with
  | nil => exact h₀
  | @cons e past ht ha ih =>
      intro id row p hrow hp
      have heff := ha.effect id
      cases hpre : e.pre.journal.operations.find? id with
      | some row₀ =>
          obtain ⟨row', hrow', hreq, hrun⟩ := heff.keeps_row hpre
          have heq : row' = row := Option.some.inj (hrow'.symm.trans hrow)
          obtain ⟨hid, hr⟩ := ih id row₀ p hpre (by rw [← hreq, heq, hp])
          exact ⟨hid, by rw [hr, ← heq, hrun]⟩
      | none =>
          obtain ⟨p', policy, used, -, hid, hnew⟩ := heff.of_new hpre hrow
          rw [hnew, Journal.newRow_request, Proposal.modelValidate_modelDump,
            Option.some.injEq] at hp
          exact ⟨by rw [← hp, hid], by rw [← hp, hnew]; rfl⟩

/-- Every event was an act. -/
theorem Trace.act_of_mem (h : Trace P E j₀ hist j) (he : e ∈ hist) :
    ∃ past, e :: past <:+ hist ∧ Act P E e.tid e.actor ⟨e.pre, past⟩ e.label e.post := by
  obtain ⟨later, past, rfl⟩ := List.append_of_mem he
  exact ⟨past, List.suffix_append _ _, (h.suffix (List.suffix_append _ _)).2.2⟩

end

end AutonomyLab.Broker
