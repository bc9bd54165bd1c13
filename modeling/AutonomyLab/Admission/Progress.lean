import AutonomyLab.Admission.Sound
import AutonomyLab.Broker.Progress

/-!
# An undisturbed campaign

What happens where nothing comes in between: an operation that is proposed under the legacy
contract, in an episode whose version is still active, is authorized and sent.

* `may_authorize`, `may_patchService` — the authorizer and the adapter.
* `may_propose` — a call of the broker; `Campaign.run_of_may` — a run of the system.
-/

namespace AutonomyLab.Admission

open Json Store Process Broker
open Contract (legacy precise bindingFor subscript_bindingFor validate_bindingFor)

section
variable {P : Platform} {t : ℕ} {o id ns name episode : String} {policy : BrokerPolicy} {p : Proposal}
  {patch : List Op} {β γ : Type} {conditions : Conditions} {binding service : Json} {r' : Registry}
  {authorization : Authorization} {row : Row} {v : Seen}
  {Q : Except BrokerError γ → Seen → Prop}

theorem may_asked {q : β → Program Campaign Deed γ} (a : β) (h : may t o (q a) Q v) :
    may t o ((asked β).bind q) Q v := ⟨.ok a, h⟩

/-- An operation that the ledger authorizes is authorized. -/
theorem may_authorize {q : Except BrokerError Unit → Program Campaign Deed γ}
    (hc : executionConditions P p binding patch = .ok conditions)
    (ha : v.world.rest.registry.authorize P (.ok ()) (.ok ()) (v.world.rest.operators t).pin p
      conditions = .ok (authorization, r'))
    (h : may t o (q (.ok ())) Q (v.log t o (.ext (.authorize p binding patch))
      { v.world with rest := { v.world.rest with registry := r' } })) :
    may t o ((Proc.attempt (authorize P p binding patch)).bind q) Q v := by
  unfold authorize registryAuthorize
  rw [hc]
  exact ⟨.ok (), .ok (), .ok (), false, .ok authorization, _, by simp [ha, Except.map, Registry.commit],
    h⟩

theorem may_attributed
    (hrows : (v.world.journal.operations.rows.filter fun row =>
      row.2.status = .dispatching && row.2.owner = some o) = [(id, row)])
    (hp : Proposal.modelValidate row.request = some p) :
    may t o (attributed o) (fun r u => r = .ok (id, p) ∧ u.world = v.world ∧ v.hist <:+ u.hist) v := by
  refine ⟨.ok (), [(id, row)], v.world, congrArg (fun rows => some (rows, v.world)) hrows, ?_⟩
  simp only [Proc.bind, hp]
  exact ⟨rfl, rfl, List.suffix_cons _ _⟩

theorem may_authorization (hpol : v.world.policies o = some policy)
    (hc : executionConditions P p (v.world.journal.binding p.operationId.1) patch = .ok conditions)
    (ha : v.world.rest.registry.authorization P (v.world.rest.operators t).pin p conditions =
      .ok authorization) :
    may t o (Admission.authorization P o p patch)
      (fun r u => r = .ok authorization ∧ u.world = v.world ∧ v.hist <:+ u.hist) v := by
  refine may_query (f := fun _ j => .ok (j.binding p.operationId.1)) hpol rfl ?_
  rw [hc]
  refine ⟨false, .ok authorization, v.world, by simp [ha, Except.map, Registry.commit], rfl, rfl, ?_⟩
  exact (List.suffix_cons _ _).trans (List.suffix_cons _ _)

theorem may_clear (hpol : v.world.policies o = some policy)
    (hep : (v.world.rest.operators t).episode = some episode)
    (hn : (episode, id) ∉ (v.world.rest.operators t).bindings)
    (hc : executionConditions P p (v.world.journal.binding p.operationId.1) patch = .ok conditions)
    (ha : v.world.rest.registry.authorization P (v.world.rest.operators t).pin p conditions =
      .ok authorization) :
    may t o (clear P o id p patch) (fun r u => r = .ok () ∧ v.hist <:+ u.hist ∧
      u.world = { v.world with rest := (v.world.rest.saveBinding t id).2 }) v := by
  refine ⟨.ok (), .ok (), .ok false, v.world, by simp [hep, hn], ?_⟩
  change may t o ((Admission.authorization P o p patch).bind _) _ _
  refine may_bind (may_mono (may_authorization (v := View.log _ _ _ _ _) hpol hc ha) ?_)
  rintro _ u ⟨rfl, hw, hsuf⟩
  refine ⟨.ok (), .ok (), { v.world with rest := (v.world.rest.saveBinding t id).2 }, ?_, rfl, ?_, rfl⟩
  · rw [hw]
    simp [Campaign.saveBinding, hep]
  · exact ((List.suffix_cons _ _).trans hsuf).trans (List.suffix_cons _ _)

/-- An operation that has been authorized is sent. -/
theorem may_patchService (result : Except BrokerError Json)
    (hpol : v.world.policies o = some policy)
    (hrows : (v.world.journal.operations.rows.filter fun row =>
      row.2.status = .dispatching && row.2.owner = some o) = [(id, row)])
    (hp : Proposal.modelValidate row.request = some p)
    (hep : (v.world.rest.operators t).episode = some episode)
    (hn : (episode, id) ∉ (v.world.rest.operators t).bindings)
    (hc : executionConditions P p (v.world.journal.binding p.operationId.1) patch = .ok conditions)
    (ha : v.world.rest.registry.authorization P (v.world.rest.operators t).pin p conditions =
      .ok authorization) :
    may t o (patchService P o ns name patch) (fun r u => r = result ∧
      (∃ e ∈ u.hist, e.tid = t ∧ e.label = .ext (.transport id ns name patch)) ∧
      u.world = { v.world with rest := (v.world.rest.saveBinding t id).2 }) v := by
  refine may_bind (may_attempt (may_mono (may_attributed hrows hp) ?_))
  rintro _ u ⟨rfl, hw, -⟩
  have hpol' : u.world.policies o = some policy := by
    rw [hw]
    exact hpol
  refine may_bind (may_attempt (may_mono (may_clear hpol'
    (by rw [hw]; exact hep) (by rw [hw]; exact hn) (by rw [hw]; exact hc) (by rw [hw]; exact ha)) ?_))
  rintro _ u' ⟨rfl, -, hw'⟩
  rw [hw] at hw'
  refine ⟨(), _, rfl, result, ?_⟩
  cases result with
  | ok a | error e => exact ⟨rfl, ⟨_, List.mem_cons_self, rfl, rfl⟩, hw'⟩

/-- What has been claimed is sent, and the outcome of the answer is recorded. -/
theorem may_dispatch (hw : v.world.writer = none) (hpol : v.world.policies o = some policy)
    (hrows : (v.world.journal.operations.rows.filter fun row =>
      row.2.status = .dispatching && row.2.owner = some o) = [(id, row)])
    (hp : Proposal.modelValidate row.request = some p)
    (hep : (v.world.rest.operators t).episode = some episode)
    (hn : (episode, id) ∉ (v.world.rest.operators t).bindings)
    (hc : executionConditions P p (v.world.journal.binding p.operationId.1) patch = .ok conditions)
    (ha : v.world.rest.registry.authorization P (v.world.rest.operators t).pin p conditions =
      .ok authorization) :
    may t o ((broker P o).dispatch id p patch) (fun _ u => ∃ e ∈ u.hist, e.tid = t ∧
      e.label = .ext (.transport id p.ns.1 p.serviceName.1 patch)) v := by
  have hmem : (id, row) ∈ v.world.journal.operations.rows.filter fun row =>
      row.2.status = .dispatching && row.2.owner = some o := by
    rw [hrows]
    exact List.mem_singleton_self _
  obtain ⟨hrow, hstate⟩ := List.mem_filter.1 hmem
  rw [Bool.and_eq_true, decide_eq_true_eq, decide_eq_true_eq] at hstate
  refine ⟨(), _, rfl, ?_⟩
  change may t o ((Proc.attempt (patchService P o p.ns.1 p.serviceName.1 patch)).bind _) _ _
  refine may_bind (may_attempt (may_mono (may_patchService (v := v.log t o (.patchService id patch)
    v.world) (.error .validation) hpol hrows hp hep hn hc ha) ?_))
  rintro _ u ⟨rfl, ⟨e, he, het, hel⟩, hu⟩
  have hpol' : u.world.policies o = some policy := by
    rw [hu]
    exact hpol
  have hrow' : u.world.journal.operations.find? id = some row := by
    rw [hu]
    exact Table.find?_eq_some.2 hrow
  refine ⟨(), _, rfl, may_mono (may_finish (b := broker P o)
    (v := u.log t o (.patchReturned id p (.error .validation)) u.world) ?_ hpol' hrow' hstate.2
      hstate.1) ?_⟩
  · rw [View.log_world, hu]
    exact hw
  · rintro r u' ⟨-, hsuf, -⟩
    exact ⟨e, hsuf.subset (List.mem_cons_of_mem _ he), het, hel⟩

/-- What is known when everything is ready for the claim of an admitted operation. -/
structure Admitted (P : Platform) (policy : BrokerPolicy) (t : ℕ) (o episode : String) (p : Proposal)
    (patch : List Op) (conditions : Conditions) (authorization : Authorization) (r' : Registry)
    (row : Row) (w : World Campaign) : Prop where
  free : w.writer = none
  configured : w.policies o = some policy
  prepared : w.journal.status? p.operationId.1 = some .prepared
  claim : w.journal.claimReason P policy p.operationId.1 p
    (w.journal.binding p.operationId.1) = none
  claimed : ((w.journal.claim o p.operationId.1 none).2.operations.rows.filter fun row =>
    row.2.status = .dispatching && row.2.owner = some o) = [(p.operationId.1, row)]
  request : Proposal.modelValidate row.request = some p
  started : (w.rest.operators t).episode = some episode
  unbound : (episode, p.operationId.1) ∉ (w.rest.operators t).bindings
  covered : executionConditions P p (w.journal.binding p.operationId.1) patch = .ok conditions
  authorized : w.rest.registry.authorize P (.ok ()) (.ok ()) (w.rest.operators t).pin p
    conditions = .ok (authorization, r')

/-- The binding of an operation is not touched by its claim. -/
theorem binding_claim {j : Journal} (h : j.status? id = some .prepared) :
    (j.claim o id none).2.binding id = j.binding id := by
  simp only [Journal.claim, h]
  rfl

/-- **What is admitted is authorized and sent.** -/
theorem may_send (h : Admitted P policy t o episode p patch conditions authorization r' row v.world) :
    may t o ((broker P o).send P p.operationId.1 p patch (v.world.journal.binding p.operationId.1))
      (fun _ u => ∃ e ∈ u.hist, e.tid = t ∧
        e.label = .ext (.transport p.operationId.1 p.ns.1 p.serviceName.1 patch)) v := by
  refine may_asked () (may_bind (may_beginClaim (b := broker P o) h.free h.configured h.prepared
    h.claim ?_))
  change may t o (((Proc.attempt (authorize P p _ patch)).bind _).bind _) _ _
  refine may_bind (may_authorize (v := View.log _ _ _ _ _) h.covered h.authorized ?_)
  refine may_endClaim (v := View.log _ _ _ _ _) (b := broker P o) rfl h.prepared ?_
  refine may_dispatch (v := View.log _ _ _ _ _) rfl h.configured h.claimed h.request h.started
    h.unbound ?_ (authorization_of_authorize h.authorized)
  exact (binding_claim h.prepared).symm ▸ h.covered

/-- **An operation that is prepared and admitted is sent**, if nothing comes in between. -/
theorem may_resumePrepared {found : Row}
    (h : Admitted P policy t o episode p patch conditions authorization r' row v.world)
    (hfound : v.world.journal.operations.find? p.operationId.1 = some found)
    (hs : found.status = .prepared) (hp : Proposal.modelValidate found.request = some p)
    (hallowed : policy.policyReason p = none) (hcontract : policy.operationContract = legacy)
    (hbinding : bindingFor P p.modelDump (.str legacy) .null =
      .ok (v.world.journal.binding p.operationId.1))
    (hservice : constructPatch p service = .ok (.ok patch)) :
    may t o ((broker P o).resumePrepared P p.operationId.1) (fun _ u => ∃ e ∈ u.hist, e.tid = t ∧
      e.label = .ext (.transport p.operationId.1 p.ns.1 p.serviceName.1 patch)) v := by
  obtain ⟨op, hop, rfl, hops⟩ : ∃ op, v.world.journal.lookup o policy p.operationId.1 = .ok op ∧
      op.row = found ∧ op.status = .prepared := by
    refine ⟨_, by rw [Journal.lookup, hfound], rfl, ?_⟩
    simp [hs]
  obtain ⟨hsnap, hcon⟩ := subscript_bindingFor hbinding
  have hreason : (policy.policyReason p).or
      (Journal.contractReason P policy p (v.world.journal.binding p.operationId.1)) = none := by
    rw [hallowed, Option.none_or]
    exact contractReason_eq_none.2 ⟨validate_bindingFor hbinding, by rw [hcontract, hcon], .null,
      hsnap, fun hn => absurd rfl hn⟩
  have hlegacy : ¬ PyEq (.str legacy) (.str precise) := by
    rw [pyEq_str_iff]
    decide
  refine may_query h.configured hop ?_
  rw [if_pos hops, hp]
  refine may_query (f := fun _ j => .ok (j.binding p.operationId.1)) h.configured rfl
    (may_readPolicy h.configured ?_)
  simp only [View.log_world, hreason]
  refine may_bind (may_attempt ?_)
  unfold ActionBroker.preflight ActionBroker.construct ofPy
  rw [hcon]
  simp only [Except.mapError, Proc.ofExcept_ok, Proc.bind_eq, Proc.done_bind, hlegacy, if_false]
  refine may_asked service ?_
  simp only [Proc.ofExcept_ok, Proc.done_bind, hservice]
  exact may_send (v := View.log _ _ _ _ _) h

/-- **An operation that is new and admitted is sent.** -/
theorem may_propose {found : Row} {j : Journal} (hw : v.world.writer = none)
    (hpol : v.world.policies o = some policy)
    (hj : v.world.journal.propose P policy p = .ok (true, j))
    (h : Admitted P policy t o episode p patch conditions authorization r' row
      { v.world with journal := j })
    (hfound : j.operations.find? p.operationId.1 = some found) (hs : found.status = .prepared)
    (hp : Proposal.modelValidate found.request = some p)
    (hallowed : policy.policyReason p = none) (hcontract : policy.operationContract = legacy)
    (hbinding : bindingFor P p.modelDump (.str legacy) .null = .ok (j.binding p.operationId.1))
    (hservice : constructPatch p service = .ok (.ok patch)) :
    may t o ((broker P o).propose P p.modelDump) (fun _ u => ∃ e ∈ u.hist, e.tid = t ∧
      e.label = .ext (.transport p.operationId.1 p.ns.1 p.serviceName.1 patch)) v := by
  unfold ActionBroker.propose
  rw [Proposal.modelValidate_modelDump]
  refine may_transaction hw hpol hj (may_asked () ?_)
  exact may_resumePrepared (v := View.log _ _ _ _ _) h hfound hs hp hallowed hcontract hbinding hservice

/-- A fresh episode of an active version. -/
theorem may_newEpisode {pin : Pin} {files programVersion : Json} {c c' : Campaign}
    (hmake : v.world.rest.makeEpisode t name = (.ok (), c))
    (hstart : c.startEpisode files (.ok ()) t = (.ok pin, c'))
    (hv : PyEq pin.programVersion programVersion) :
    may t o (newEpisode programVersion)
      (fun r u => r = .ok () ∧ u.world = { v.world with rest := c' }) v := by
  refine ⟨name, .ok (), .ok (), { v.world with rest := c }, by simp [hmake], files, .ok (), .ok (),
    .ok pin, { v.world with rest := c' }, by simp [hstart], ?_⟩
  change may t o (.ofExcept (require _ _)) _ _
  rw [require, if_pos hv]
  exact ⟨rfl, rfl⟩

/-- A process may start an episode next. -/
theorem may_moves_newEpisode {programVersion : Json} {n : ℕ}
    {F : Except BrokerError Unit → Seen → Prop}
    (h : may t o (newEpisode programVersion)
      (fun r u => r = .ok () ∧ may t o (moves P o programVersion n) F u) v) :
    may t o (moves P o programVersion (n + 1)) F v := by
  refine may_bind ⟨none, ?_⟩
  change may t o (newEpisode programVersion) _ v
  refine may_mono h ?_
  rintro _ u ⟨rfl, hu⟩
  exact hu

/-- A process may call its broker next. -/
theorem may_moves_call {programVersion : Json} {n : ℕ} {F : Except BrokerError Unit → Seen → Prop}
    (call : Call) (h : may t o (call.run P (broker P o))
      (fun _ u => may t o (moves P o programVersion n) F u) v) :
    may t o (moves P o programVersion (n + 1)) F v := by
  refine may_bind ⟨some call, ?_⟩
  change may t o ((Proc.attempt (call.run P (broker P o))).bind fun _ => .done ()) _ v
  exact may_bind (may_attempt (may_mono h fun _ _ hu => hu))

/-- An undisturbed call is one of the runs of the system. -/
theorem run_of_may {c : Campaigns} (h : Reachable (campaign P) c) {prog : Program Campaign Deed Unit}
    (hcall : campaignCalls P c o prog) {F : Except BrokerError Unit → Seen → Prop}
    (hmay : may c.next o prog F c.view) :
    ∃ r c', Reachable (campaign P) c' ∧ c'.next = c.next + 1 ∧ F r c'.view := by
  obtain ⟨r, c', hc', hn, -, hF⟩ := h.may hcall hmay
  exact ⟨r, c', hc', hn, hF⟩

/-- A candidate that is found eligible is promoted. -/
theorem may_promote {receipt : Receipt} {expected : Json} {d : Decision}
    (h : v.world.rest.registry.recordPromotion receipt expected = .ok (d, r')) :
    may t o (promote expected) (fun r u => r = .ok () ∧ u.world = { v.world with
      rest := { v.world.rest with registry := r' } }) v :=
  ⟨.ok receipt, false, .ok d, _, by simp [h, Except.map, Registry.commit], rfl, rfl⟩

end

/-! ## A run -/

/-- The policy of the sample, under the legacy contract. -/
def samplePolicy : BrokerPolicy := { Broker.samplePolicy with operationContract := legacy }

def sampleReceipt : Receipt where
  version := "version-1"
  eligible := true
  definition := .obj [("kind", .str "restricted_program"), ("operation_contract", .str legacy),
    ("source_files", .obj []), ("program", .obj [("version", .str "program-1"),
      ("definition", .obj [("program_utf8", .str "")])])]

/-- One instance has been started. -/
def sampleStart : Campaigns :=
  ⟨⟨⟨.empty, none, Function.update (fun _ => none) "operator-1" (some samplePolicy), .start⟩, []⟩,
    fun _ => none, 0⟩

theorem reachable_sampleStart (P : Platform) : Reachable (campaign P) sampleStart :=
  .step (.init rfl) (.env (.start rfl (by decide)))

/-- The ledger once the sample has been promoted. -/
def sampleRegistry : Registry :=
  Registry.empty.commit (Registry.empty.recordPromotion sampleReceipt (.int 0))

/-- The campaign once process 1 has made an episode, and once it has started it. -/
def sampleMade : Campaign := (Campaign.makeEpisode 1 "episode-1" ⟨sampleRegistry, fun _ => {}⟩).2

def sampleStarted : Campaign := (sampleMade.startEpisode (.obj []) (.ok ()) 1).2

/-- The patch of the sample proposal. -/
def samplePatch : List Op := expectedPatch sampleProposal "/spec/ports/0"

/-- The sample proposal is admitted in the sample episode. -/
theorem executionConditions_sample {binding : Json}
    (h : bindingFor P sampleProposal.modelDump (.str legacy) .null = .ok binding) :
    executionConditions P sampleProposal binding samplePatch =
      .ok ⟨encoded P binding, encoded P (patchJson samplePatch)⟩ := by
  have hcheck : checkBinding P sampleProposal binding = .ok () := by
    simp [checkBinding, validate_bindingFor h]
  have hcon : subscript "contract_id" binding = .ok (.str legacy) := (subscript_bindingFor h).2
  have hpath : (namedPath? samplePatch).bind portIndex? = some "0" := by decide
  have hexpected : expectedPatch sampleProposal "/spec/ports/0" = samplePatch := rfl
  simp [executionConditions, hcheck, hcon, hpath, hexpected, walk, Except.mapError, bind, Except.bind,
    require, PyEq.refl, pure, Except.pure]

/-- The world of the sample, once its proposal is on record. -/
def sampleWorld (j : Journal) : World Campaign :=
  ⟨j, none, Function.update (fun _ => none) "operator-1" (some samplePolicy), sampleStarted⟩

/-- Everything is ready for the claim of the sample. -/
theorem admitted_sample {j : Journal}
    (hj : Journal.propose P samplePolicy sampleProposal .empty = .ok (true, j))
    (hbinding : bindingFor P sampleProposal.modelDump (.str legacy) .null = .ok (j.binding "op-1")) :
    ∃ authorization r' row, Admitted P samplePolicy 1 "operator-1" "episode-1" sampleProposal
      samplePatch ⟨encoded P (j.binding "op-1"), encoded P (patchJson samplePatch)⟩ authorization r'
      row (sampleWorld j) := by
  obtain ⟨hsnap, hcon⟩ := subscript_bindingFor hbinding
  have hcontract : Journal.contractReason P samplePolicy sampleProposal (j.binding "op-1") = none :=
    contractReason_eq_none.2 ⟨validate_bindingFor hbinding, by rw [hcon]; rfl, .null, hsnap,
      fun hn => absurd rfl hn⟩
  have hused : ¬ samplePolicy.maxDispatches < j.used "run-1" := by
    cases hj
    exact Nat.lt_irrefl 1
  have hallowed : samplePolicy.policyReason sampleProposal = none := by decide
  have hprepared : j.status? "op-1" = some .prepared := by
    cases hj
    rfl
  have hclaim : j.claimReason P samplePolicy "op-1" sampleProposal (j.binding "op-1") = none := by
    change (samplePolicy.policyReason sampleProposal).or ((Journal.contractReason P samplePolicy
      sampleProposal (j.binding "op-1")).or _) = none
    rw [hallowed, hcontract, Option.none_or, Option.none_or,
      if_neg (not_not.2 (PyEq.refl (j.binding "op-1")))]
    exact if_neg hused
  obtain ⟨row, hrows, hrequest⟩ : ∃ row, ((j.claim "operator-1" "op-1" none).2.operations.rows.filter
      fun row => row.2.status = .dispatching && row.2.owner = some "operator-1") = [("op-1", row)] ∧
      Proposal.modelValidate row.request = some sampleProposal := by
    cases hj
    exact ⟨_, rfl, Proposal.modelValidate_modelDump sampleProposal⟩
  exact ⟨_, _, row, rfl, rfl, hprepared, hclaim, hrows, hrequest, rfl, List.not_mem_nil,
    executionConditions_sample hbinding, rfl⟩

/-- The sample proposal can be authorized and sent from the start of a campaign. -/
theorem sample_run (P : Platform) : ∃ c : Campaigns, Reachable (campaign P) c ∧
    ∃ e ∈ c.view.hist, ∃ ns name patch, e.label = .ext (.transport "op-1" ns name patch) := by
  have hpromote : sampleStart.view.world.rest.registry.recordPromotion sampleReceipt (.int 0) =
      .ok (⟨1, "promoted", "version-1"⟩, sampleRegistry) := rfl
  obtain ⟨r, c, hc, hn, rfl, hw⟩ := run_of_may (reachable_sampleStart P) (o := "controller")
    (.inr (.inl ⟨.int 0, rfl⟩)) (may_promote hpromote)
  have hstarted : c.view.world.policies "operator-1" ≠ none := by
    rw [hw]
    exact nofun
  have hmay : may c.next "operator-1" (operator P "operator-1" (.str "program-1"))
      (fun _ u => ∃ e ∈ u.hist, ∃ ns name patch,
        e.label = .ext (.transport "op-1" ns name patch)) c.view := by
    rw [hn]
    obtain ⟨j, hj⟩ : ∃ j, Journal.propose P samplePolicy sampleProposal .empty = .ok (true, j) :=
      ⟨_, rfl⟩
    have hbinding : bindingFor P sampleProposal.modelDump (.str legacy) .null =
        .ok (j.binding "op-1") := by
      cases hj
      rfl
    obtain ⟨authorization, r', row, hadmitted⟩ := admitted_sample hj hbinding
    obtain ⟨found, hfound, hs, hp⟩ : ∃ found, j.operations.find? "op-1" = some found ∧
        found.status = .prepared ∧ Proposal.modelValidate found.request = some sampleProposal := by
      cases hj
      exact ⟨_, rfl, rfl, rfl⟩
    have hpatch : constructPatch sampleProposal (.obj (Contract.inventory "1" "tick-0")) =
        .ok (.ok samplePatch) := rfl
    have hmake : c.view.world.rest.makeEpisode (sampleStart.next + 1) "episode-1" =
        (.ok (), sampleMade) := by
      rw [hw]
      rfl
    have hstart : sampleMade.startEpisode (.obj []) (.ok ()) (sampleStart.next + 1) =
        (.ok ⟨"episode-1", "version-1", 1, .str "program-1"⟩, sampleStarted) := rfl
    refine ⟨2, may_moves_newEpisode (may_mono (may_newEpisode hmake hstart (PyEq.refl _)) ?_)⟩
    rintro _ u ⟨rfl, hu⟩
    replace hu : u.world = sampleWorld .empty := by
      rw [hu, hw]
      rfl
    refine ⟨rfl, may_moves_call (.propose sampleProposal.modelDump) (may_mono
      (may_propose (v := u) (j := j) (by rw [hu]; rfl) (by rw [hu]; rfl) (by rw [hu]; exact hj)
        (by rw [hu]; exact hadmitted) hfound hs hp (by decide) rfl hbinding hpatch) ?_)⟩
    rintro _ u' ⟨e, he, -, hl⟩
    exact ⟨e, he, _, _, _, hl⟩
  obtain ⟨r, c', hc', -, hF⟩ := run_of_may hc (.inl ⟨hstarted, .str "program-1", rfl⟩) hmay
  exact ⟨c', hc', hF⟩

end AutonomyLab.Admission
