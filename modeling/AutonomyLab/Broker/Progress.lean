import AutonomyLab.Broker.Shared
import AutonomyLab.Contract.Guard

/-!
# Undisturbed calls

What a call comes to that nothing comes in between: an operation that is proposed under
the precise contract, on conditions that the service still meets, is dispatched, and what
was answered is on record when the call returns.

* `may_query`, `may_transaction`, … — the blocks under one connection.
* `may_preflight`, `may_send`, `may_resumePrepared`, `may_propose` — the parts of a call.
* `Shared.call_of_may` — an undisturbed call is one of the runs of the system.
* `sample_run` — such a run from the start of the system.
-/

namespace AutonomyLab.Broker

open Json Contract Process

/-! ## Blocks -/

section
variable {ρ Λ β γ : Type} {P : Platform} {t : ℕ} {o id : String} {policy : BrokerPolicy}
  {p : Proposal} {Q : Except BrokerError γ → Seen ρ Λ → Prop} {v : Seen ρ Λ} {l : Label Λ}

theorem may_query {f : BrokerPolicy → Journal → Except BrokerError β} {q : β → Program ρ Λ γ}
    {a : β} (hpol : v.world.policies o = some policy) (hf : f policy v.world.journal = .ok a)
    (h : may t o (q a) Q (v.log t o l v.world)) : may t o ((query o l f).bind q) Q v :=
  ⟨false, .ok a, v.world, by simp [hpol, hf], h⟩

theorem may_readPolicy {f : BrokerPolicy → β} {q : β → Program ρ Λ γ}
    (hpol : v.world.policies o = some policy)
    (h : may t o (q (f policy)) Q (v.log t o l v.world)) :
    may t o ((readPolicy o l f).bind q) Q v :=
  ⟨f policy, v.world, by simp [hpol], h⟩

theorem may_transaction {f : BrokerPolicy → Journal → Except BrokerError (β × Journal)}
    {q : β → Program ρ Λ γ} {a : β} {j : Journal} (hw : v.world.writer = none)
    (hpol : v.world.policies o = some policy) (hf : f policy v.world.journal = .ok (a, j))
    (h : may t o (q a) Q (v.log t o l { v.world with journal := j })) :
    may t o ((transaction o l f).bind q) Q v :=
  ⟨false, .ok a, _, by simp [hw, hpol, hf], h⟩

theorem may_beginClaim {b : ActionBroker ρ Λ} {q : Option (Option String × Json) → Program ρ Λ γ}
    (hw : v.world.writer = none) (hpol : v.world.policies b.self = some policy)
    (hs : v.world.journal.status? id = some .prepared)
    (hr : v.world.journal.claimReason P policy id p (v.world.journal.binding id) = none)
    (h : may t b.self (q (some (none, v.world.journal.binding id))) Q
      (v.log t b.self (.beginClaim id) { v.world with writer := some t })) :
    may t b.self ((b.beginClaim P id p (v.world.journal.binding id)).bind q) Q v :=
  ⟨false, .ok (some (none, _)), _, by simp [hw, hpol, hs, hr], h⟩

theorem may_endClaim {b : ActionBroker ρ Λ} {q : Bool → Program ρ Λ γ}
    (hw : v.world.writer = some t) (hs : v.world.journal.status? id = some .prepared)
    (h : may t b.self (q true) Q (v.log t b.self (.endClaim id none) { v.world with
      journal := (v.world.journal.claim b.self id none).2, writer := none })) :
    may t b.self ((b.endClaim id none).bind q) Q v := by
  have hclaim : v.world.journal.claim b.self id none =
      (true, (v.world.journal.claim b.self id none).2) := by
    simp only [Journal.claim, hs]
  refine ⟨false, true, _, (if_pos hw).trans ?_, h⟩
  rw [hclaim]

/-- The record of the outcome of a dispatch. -/
theorem may_finish {b : ActionBroker ρ Λ} {row : Row} {out : Journal.Outcome} (hw : v.world.writer = none)
    (hpol : v.world.policies b.self = some policy)
    (hrow : v.world.journal.operations.find? id = some row) (ho : row.owner = some b.self)
    (hs : row.status = .dispatching) :
    may t b.self (b.finish id out) (fun r u => r.isOk = true ∧ v.hist <:+ u.hist ∧
      u.world.journal.status? id = some out.status) v := by
  have hfinish : (v.world.journal.finish b.self id out).operations.find? id =
      some { row with status := out.status, reason := out.reason, result := out.result } := by
    simp [Journal.finish, hrow, ho, hs, Journal.addEvent, Journal.updateRow]
  obtain ⟨op, hop⟩ : ∃ op, (v.world.journal.finish b.self id out).lookup b.self policy id = .ok op := by
    rw [Journal.lookup, hfinish]
    exact ⟨_, rfl⟩
  refine may_transaction (f := fun _ j => .ok ((), j.finish b.self id out)) hw hpol rfl ?_
  refine ⟨false, .ok op, { v.world with journal := v.world.journal.finish b.self id out }, ?_, rfl, ?_, ?_⟩
  · exact (congrArg (Option.map _) hpol).trans (by rw [← hop]; rfl)
  · exact (List.suffix_cons _ _).trans (List.suffix_cons _ _)
  · exact congrArg (Option.map Row.status) hfinish

end

section
variable {β γ : Type} {P : Platform} {j₀ : Journal} {t : ℕ} {o id : String} {policy : BrokerPolicy}
  {p : Proposal} {patch : List Op} {row : Row} {service binding candidate : Json}
  {v : Seen Unit Empty}

theorem may_answer {q : β → Program Unit Empty γ} {Q : Except BrokerError γ → Seen Unit Empty → Prop}
    (a : β) (h : may t o (q a) Q v) : may t o ((answer β).bind q) Q v := ⟨.ok a, h⟩

theorem may_attempt_answer {q : Except BrokerError β → Program Unit Empty γ}
    {Q : Except BrokerError γ → Seen Unit Empty → Prop} (r : Except BrokerError β)
    (h : may t o (q r) Q v) : may t o ((Proc.attempt (answer β)).bind q) Q v := by
  cases r with
  | ok a => exact ⟨.ok a, h⟩
  | error e => exact ⟨.error e, h⟩

/-! ## Calls -/

/-- Conditions that can be recorded are recorded. -/
theorem recordConditions_eq {j : Journal}
    (hs : j.status? p.operationId.1 = some .prepared)
    (hnew : bindingFor P p.modelDump (.str precise) .null = .ok (j.binding p.operationId.1))
    (hc : bindingFor P p.modelDump (.str precise) service = .ok candidate) :
    ∃ j', j.recordConditions P p candidate = .ok (candidate, j') ∧
      j'.binding p.operationId.1 = candidate ∧ j'.operations = j.operations := by
  obtain ⟨hsnap, hcon⟩ := subscript_bindingFor hnew
  obtain ⟨-, -, operationId, sum, -, hcand⟩ := bindingFor_eq_ok hc
  have hrec : Journal.recordable P p j = .ok true := by
    simp [Journal.recordable, validate_bindingFor hnew, hs, hsnap, hcon, bind, Except.bind, pure,
      Except.pure, PyEq.refl]
  have hsum : subscript "binding_sha256" candidate = .ok (.str sum) := by rw [hcand]; rfl
  have heq : j.recordConditions P p candidate = .ok (candidate,
      { (j.addEvent p.operationId.1 .conditionsRecorded [("binding_sha256", .str sum)]) with
        contracts := j.contracts.update p.operationId.1 fun _ => some candidate }) := by
    simp only [Journal.recordConditions, hrec, hsum]
  exact ⟨_, heq, binding_recordConditions heq, rfl⟩

/-- The policy allows the proposal, and the service meets its conditions. -/
structure Meets (P : Platform) (policy : BrokerPolicy) (p : Proposal) (service candidate : Json)
    (patch : List Op) : Prop where
  contract : policy.operationContract = precise
  allowed : policy.policyReason p = none
  unchanged : ∃ ops, constructPatch p service = .ok (.ok ops)
  binding : bindingFor P p.modelDump (.str precise) service = .ok candidate
  patch : patchForBinding P p.modelDump candidate = .ok patch

/-- What is known of the journal when everything is ready for the claim. -/
structure Ready (P : Platform) (policy : BrokerPolicy) (o id : String) (p : Proposal)
    (v : Seen Unit Empty) : Prop where
  free : v.world.writer = none
  configured : v.world.policies o = some policy
  prepared : v.world.journal.status? id = some .prepared
  claim : v.world.journal.claimReason P policy id p (v.world.journal.binding id) = none

/-- The preflight of an operation whose conditions have not been recorded. -/
theorem may_preflight (h : Meets P policy p service candidate patch) (hid : p.operationId.1 = id)
    (hw : v.world.writer = none) (hpol : v.world.policies o = some policy)
    (hs : v.world.journal.status? id = some .prepared)
    (hused : v.world.journal.used p.runId.1 ≤ policy.maxDispatches)
    (hnew : bindingFor P p.modelDump (.str precise) .null = .ok (v.world.journal.binding id)) :
    may t o ((outside o false).preflight P id p (v.world.journal.binding id))
      (fun r u => ∃ binding, r = .ok (.ready patch binding) ∧
        u.world.journal.binding id = binding ∧ Ready P policy o id p u) v := by
  subst hid
  obtain ⟨hsnap, hcon⟩ := subscript_bindingFor hnew
  obtain ⟨ops, hops⟩ := h.unchanged
  obtain ⟨j', hj', hbinding, hrows⟩ := recordConditions_eq hs hnew h.binding
  have hcontract : Journal.contractReason P policy p candidate = none := by
    obtain ⟨hsnap', hcon'⟩ := subscript_bindingFor h.binding
    exact contractReason_eq_none.2 ⟨validate_bindingFor h.binding, by rw [h.contract, hcon'], service,
      hsnap', fun _ => ⟨patch, h.patch⟩⟩
  unfold ActionBroker.preflight ActionBroker.construct ofPy
  rw [hcon, hsnap]
  simp only [Except.mapError, Proc.ofExcept_ok, Proc.bind_eq, Proc.done_bind, PyEq.refl, if_true,
    ne_eq, not_true_eq_false, if_false]
  refine may_answer service ?_
  simp only [Proc.ofExcept_ok, Proc.done_bind, hops, h.binding, h.patch]
  refine may_transaction hw hpol hj' ?_
  simp only [Proc.ofExcept_ok, Proc.done_bind, h.patch]
  refine ⟨candidate, rfl, hbinding, hw, hpol, ?_, ?_⟩
  · rw [View.log_world, Journal.status?, hrows]
    exact hs
  · have hused' : j'.used p.runId.1 ≤ policy.maxDispatches := by
      rw [Journal.used, hrows]
      exact hused
    simp [Journal.claimReason, h.allowed, hbinding, hcontract, PyEq.refl, Nat.not_lt.2 hused']

/-- The claim, the dispatch, and the record of its outcome. -/
theorem may_send (result : Except BrokerError Json) (h : Ready P policy o id p v) :
    may t o ((outside o false).send P id p patch (v.world.journal.binding id))
      (fun r u => r.isOk = true ∧
        (∃ e ∈ u.hist, e.tid = t ∧ e.label = .patchService id patch) ∧
        u.world.journal.status? id = some (outcome p result).status) v := by
  obtain ⟨row, hrow, ho, hst⟩ := status_claim (o := o) h.prepared
  refine may_answer () (may_bind (may_beginClaim (b := outside o false) h.free h.configured h.prepared
    h.claim (may_endClaim (v := View.log _ _ _ _ _) (b := outside o false) rfl h.prepared ?_)))
  refine ⟨_, _, rfl, may_attempt_answer result ⟨_, _, rfl, ?_⟩⟩
  cases result with
  | error e =>
      refine may_mono (may_finish (b := outside o false) rfl h.configured hrow ho hst) ?_
      rintro r u ⟨hr, hsuf, hstat⟩
      exact ⟨hr, ⟨_, hsuf.subset (List.mem_cons_of_mem _ List.mem_cons_self), rfl, rfl⟩, hstat⟩
  | ok a =>
      refine may_answer () (may_answer () (may_mono (may_finish (b := outside o false) rfl h.configured hrow ho hst) ?_))
      rintro r u ⟨hr, hsuf, hstat⟩
      exact ⟨hr, ⟨_, hsuf.subset (List.mem_cons_of_mem _ List.mem_cons_self), rfl, rfl⟩, hstat⟩

/-- **A prepared operation is dispatched**, if nothing comes in between. -/
theorem may_resumePrepared (h : Meets P policy p service candidate patch)
    (result : Except BrokerError Json) (hw : v.world.writer = none)
    (hpol : v.world.policies o = some policy)
    (hrow : v.world.journal.operations.find? id = some row) (hs : row.status = .prepared)
    (hp : Proposal.modelValidate row.request = some p) (hid : p.operationId.1 = id)
    (hused : v.world.journal.used p.runId.1 ≤ policy.maxDispatches)
    (hnew : bindingFor P p.modelDump (.str precise) .null = .ok (v.world.journal.binding id)) :
    may t o ((outside o false).resumePrepared P id)
      (fun r u => r.isOk = true ∧
        (∃ e ∈ u.hist, e.tid = t ∧ e.label = .patchService id patch) ∧
        u.world.journal.status? id = some (outcome p result).status) v := by
  obtain ⟨op, hop, rfl, hops⟩ : ∃ op, v.world.journal.lookup o policy id = .ok op ∧
      op.row = row ∧ op.status = .prepared := by
    refine ⟨_, by rw [Journal.lookup, hrow], rfl, ?_⟩
    simp [hs]
  have hstatus : v.world.journal.status? id = some .prepared := by
    rw [Journal.status?, hrow, Option.map_some, hs]
  have hnone : (policy.policyReason p).or
      (Journal.contractReason P policy p (v.world.journal.binding id)) = none := by
    obtain ⟨hsnap, hcon⟩ := subscript_bindingFor hnew
    rw [h.allowed, Option.none_or]
    exact contractReason_eq_none.2 ⟨validate_bindingFor hnew, by rw [h.contract, hcon], .null,
      hsnap, fun hn => absurd rfl hn⟩
  refine may_query hpol hop ?_
  rw [if_pos hops, hp]
  refine may_query (f := fun _ j => .ok (j.binding id)) hpol rfl (may_readPolicy hpol ?_)
  simp only [View.log_world, hnone]
  refine may_bind (may_attempt (may_mono (may_preflight (v := View.log _ _ _ _ _) h hid hw hpol
    hstatus hused hnew) ?_))
  rintro _ u ⟨binding, rfl, rfl, hready⟩
  exact may_send result hready

/-- What is new to the journal and allowed is left to be resumed. -/
theorem may_propose (h : Meets P policy p service candidate patch)
    (result : Except BrokerError Json) {j : Journal} (hw : v.world.writer = none)
    (hpol : v.world.policies o = some policy)
    (hj : v.world.journal.propose P policy p = .ok (true, j))
    (hrow : j.operations.find? p.operationId.1 = some row) (hs : row.status = .prepared)
    (hp : Proposal.modelValidate row.request = some p)
    (hused : j.used p.runId.1 ≤ policy.maxDispatches)
    (hnew : bindingFor P p.modelDump (.str precise) .null = .ok (j.binding p.operationId.1)) :
    may t o ((outside o false).propose P p.modelDump)
      (fun r u => r.isOk = true ∧
        (∃ e ∈ u.hist, e.tid = t ∧ e.label = .patchService p.operationId.1 patch) ∧
        u.world.journal.status? p.operationId.1 = some (outcome p result).status) v := by
  unfold ActionBroker.propose
  rw [Proposal.modelValidate_modelDump]
  refine may_transaction hw hpol hj (may_answer () ?_)
  exact may_resumePrepared (v := View.log _ _ _ _ _) h result hw hpol hrow hs hp rfl hused hnew

/-- An undisturbed call is one of the runs of the system. -/
theorem Shared.call_of_may {c : Brokers} (h : Reachable (shared P j₀) c)
    (ho : c.view.world.policies o ≠ none) {a : Bool} (call : Call)
    {Q : Except BrokerError Journal.Operation → Seen Unit Empty → Prop}
    (hmay : may c.next o (call.run P (outside o a)) Q c.view) :
    ∃ r c', Reachable (shared P j₀) c' ∧ c'.threads c.next = some (o, .ofExcept r) ∧
      Q r c'.view := by
  obtain ⟨r, c', hc', -, ht, hQ⟩ := h.may (S := shared P j₀) ⟨ho, a, call, rfl⟩ hmay
  exact ⟨r, c', hc', ht, hQ⟩

end

/-! ## A run -/

def sampleProposal : Proposal where
  runId := ⟨"run-1", by decide⟩
  operationId := ⟨"op-1", by decide⟩
  ns := ⟨"autonomy-lab", by decide⟩
  serviceName := ⟨"inventory", by decide⟩
  serviceUid := ⟨"uid-1", by decide⟩
  resourceVersion := ⟨"1", by decide⟩
  portName := ⟨"http", by decide⟩
  expectedTargetPort := ⟨9999, by decide⟩
  targetPort := ⟨8080, by decide⟩
  evidenceIds := ⟨[⟨"ev-1", by decide⟩], by decide⟩

def samplePolicy : BrokerPolicy where
  runId := "run-1"
  ns := "autonomy-lab"
  serviceName := "inventory"
  serviceUid := "uid-1"
  operationContract := precise

/-- An acknowledgement of the sample proposal. -/
def sampleAck : Json := .obj [
  ("metadata", .obj [("uid", .str "uid-1"), ("resourceVersion", .str "3")]),
  ("spec", .obj [("ports", .arr [.obj [("name", .str "http"), ("targetPort", .int 8080)]])])]

/-- What the sample's digests are taken of: the request, and its binding before and after
the conditions have been recorded. -/
def sampleTexts : List (Json × String) :=
  let sum := "653f0ad7288fc008049b8b668c6c4eaee4b38357a20854e5cdb71104c0ce31e7"
  let value (snapshot : Json) : Json := .obj [("operation_id", .str "op-1"),
    ("request_sha256", .str sum), ("contract_id", .str precise), ("snapshot", snapshot)]
  [(sampleProposal.modelDump, sum),
    (value .null, "00b379c85f4efe075d0014542aacd2d33c8ceda4637822acec56ebf093cb6056"),
    (value (.obj (inventory "1" "tick-0")),
      "be73d697abf309f8f9eef32790318c746670839bc7a64a20e35eff442e793395")]

/-- The platform, as far as the sample needs it: there are no fractions in it. -/
def samplePlatform : Platform where
  sha256 text := ((sampleTexts.map fun x =>
    (dumps (fun _ => "0.0") .compact x.1, x.2)).lookup text).getD ""
  reprFloat _ := "0.0"

/-- One instance has been started. -/
def sampleStart : Brokers :=
  ⟨⟨⟨.empty, none, Function.update (fun _ => none) "broker-1" (some samplePolicy), ()⟩, []⟩,
    fun _ => none, 0⟩

theorem reachable_sampleStart (P : Platform) : Reachable (shared P .empty) sampleStart :=
  .step (.init rfl) (.env (.start rfl (by decide)))

theorem meets_sample (P : Platform) :
    ∃ candidate patch, Meets P samplePolicy sampleProposal (.obj (inventory "1" "tick-0")) candidate
      patch := by
  obtain ⟨candidate, hc⟩ : ∃ candidate, bindingFor P sampleProposal.modelDump (.str precise)
    (.obj (inventory "1" "tick-0")) = .ok candidate := ⟨_, rfl⟩
  obtain ⟨hsnap, hcon⟩ := subscript_bindingFor hc
  obtain ⟨patch, hrepair⟩ : ∃ patch, repairPatch (.obj (inventory "1" "tick-0")) .contract =
    .ok patch := ⟨_, rfl⟩
  have hpatch : patchForBinding P sampleProposal.modelDump candidate = .ok patch := by
    rw [patchForBinding, validate_bindingFor hc, hsnap, hcon]
    exact hrepair
  exact ⟨candidate, patch, rfl, by decide, ⟨_, rfl⟩, hc, hpatch⟩

/-- The sample proposal can be dispatched from the start of the system. -/
theorem sample_run (P : Platform) : ∃ (c : Brokers) (op : Journal.Operation),
    Reachable (shared P .empty) c ∧ c.threads 0 = some ("broker-1", .done op) ∧
      (∃ e ∈ c.view.hist, e.tid = 0 ∧ ∃ patch, e.label = .patchService "op-1" patch) ∧
      c.view.world.journal.status? "op-1" = some .acknowledged := by
  obtain ⟨candidate, patch, hmeets⟩ := meets_sample P
  obtain ⟨j, hj⟩ : ∃ j, Journal.propose P samplePolicy sampleProposal .empty = .ok (true, j) :=
    ⟨_, rfl⟩
  have hmay := may_propose (v := sampleStart.view) (o := "broker-1") (t := 0) hmeets (.ok sampleAck)
    rfl rfl hj (by cases hj; rfl) rfl rfl (by cases hj; exact Nat.le_refl 1) (by cases hj; rfl)
  obtain ⟨r, c, hc, hthread, hr, ⟨e, he, het, hel⟩, hst⟩ :=
    Shared.call_of_may (reachable_sampleStart P) (by simp [sampleStart])
      (.propose sampleProposal.modelDump) hmay
  cases r with
  | error e => cases hr
  | ok op => exact ⟨c, op, hc, hthread, ⟨e, he, het, patch, hel⟩, hst⟩

end AutonomyLab.Broker
