import AutonomyLab.Broker.Journal
import AutonomyLab.Process.Basic

/-!
# The broker

`ActionBroker`, as a program over a world that holds the shared journal.  Every
block under one connection is one act of the program, except the claim of a
dispatch, which asks the authorizer before it commits and holds the write lock
meanwhile.  Everything between two acts is in memory, and anything may happen there.

* `World`, `Label`, `ActionBroker` — what brokers share, what they are seen to do, and what
  each of them is given.
* `propose`, `resumePrepared`, `lookup`, `reconcile` — the calls.
* `constructPatch`, `outcome` — what a broker makes of a service it has read, and of
  the answer to a patch it has sent.
-/

namespace AutonomyLab.Broker

open Json Contract Process

/-- What the broker processes share, and the policies of the instances. -/
structure World (ρ : Type) where
  journal : Journal
  /-- The thread that has begun a transaction and not ended it. -/
  writer : Option ℕ
  policies : String → Option BrokerPolicy
  /-- Whatever else the code a broker is given has to do with. -/
  rest : ρ

/-- What a broker is seen to do. -/
inductive Label (Λ : Type) where
  | propose (p : Proposal)
  | lookup (id : String)
  | contractBinding (id : String)
  | policyReason (id : String)
  | preflightUnavailable (id : String) (e : BrokerError)
  | recordConditions (p : Proposal) (candidate : Json)
  | rejectPrepared (id : String) (reason : String) (expected : Option Json)
  | beginClaim (id : String)
  | endClaim (id : String) (reason : Option String)
  | abortClaim (id : String)
  /-- `patch_service` is called. -/
  | patchService (id : String) (patch : List Op)
  /-- `patch_service` has returned, or raised. -/
  | patchReturned (id : String) (p : Proposal) (answer : Except BrokerError Json)
  | finish (id : String) (o : Journal.Outcome)
  | reconcile (id : String) (observed : List (String × Json))
  /-- The code a broker is given does something of its own. -/
  | ext (x : Λ)

/-- Programs of a broker process. -/
abbrev Program (ρ Λ α : Type) : Type 1 := Proc (World ρ) (Label Λ) BrokerError α

/-- An instance of `ActionBroker`: its owner id and what it is given. -/
structure ActionBroker (ρ Λ : Type) where
  self : String
  getService : String → String → Program ρ Λ Json
  patchService : String → String → List Op → Program ρ Λ Json
  hook : String → Program ρ Λ Unit
  authorize : Option (Proposal → Json → List Op → Program ρ Λ Unit)

/-! ## What is computed from answers -/

/-- `_construct_patch`: a patch, or the reason why there is none. -/
def constructPatch (p : Proposal) (service : Json) : Except PyError (Except String (List Op)) := do
  let metadata ← getD "metadata" (.obj []) service
  let changed ← [
    ("uid", p.serviceUid.1, "service_uid_changed"),
    ("resourceVersion", p.resourceVersion.1, "resource_version_changed"),
    ("namespace", p.ns.1, "service_namespace_changed"),
    ("name", p.serviceName.1, "service_name_changed")].findSomeM? fun f =>
      (get f.1 metadata).map fun v => if PyEq v (.str f.2.1) then none else some f.2.2
  match changed with
  | some reason => return .error reason
  | none =>
      let spec ← getD "spec" (.obj []) service
      let ports ← iterate (← getD "ports" (.arr []) spec)
      let named ← ports.mapM fun port =>
        (get "name" port).map fun v => decide (PyEq v (.str p.portName.1))
      match (ports.zip named).zipIdx.filter fun entry => entry.1.2 with
      | [((port, _), index)] =>
          let targetPort ← get "targetPort" port
          let path := "/spec/ports/" ++ toString index
          return if targetPort ≠ .int p.expectedTargetPort.1 then .error "target_port_changed"
            else .ok [
              .test "/metadata/uid" (.str p.serviceUid.1),
              .test "/metadata/resourceVersion" (.str p.resourceVersion.1),
              .test (path ++ "/name") (.str p.portName.1),
              .test (path ++ "/targetPort") (.int p.expectedTargetPort.1),
              .replace (path ++ "/targetPort") (.int p.targetPort.1)]
      | _ => return .error "port_name_not_unique"

/-- The members of an acknowledgement that is one. -/
def acknowledgement (p : Proposal) (result : Json) : Option (Json × Json) := do
  let .obj metadata ← field? "metadata" result | none
  let spec ← field? "spec" result
  let .arr ports ← field? "ports" spec | none
  guard (ports.all isDict)
  let [port] := ports.filter fun port => PyEq ((field? "name" port).getD .null) (.str p.portName.1)
    | none
  let uid ← metadata.lookup "uid"
  let version ← metadata.lookup "resourceVersion"
  guard (PyEq uid (.str p.serviceUid.1) ∧ version.isText ∧ version ≠ .str p.resourceVersion.1 ∧
    field? "targetPort" port = some (.int p.targetPort.1))
  return (uid, version)

/-- What a dispatch came to, by the answer to it. -/
def outcome (p : Proposal) : Except BrokerError Json → Journal.Outcome
  | .error (.dispatchNotSent refusalUnavailable) =>
      ⟨.rejected, if refusalUnavailable then "dispatch_not_sent_refusal_unavailable"
        else "dispatch_not_sent", none⟩
  | .error (.patchRejected reason) => ⟨.rejected, reason, none⟩
  | .error e => match e.code.filter ([400, 401, 403, 404, 409, 422].contains ·) with
      | some code => ⟨.rejected, "api_rejected:" ++ toString code, none⟩
      | none => ⟨.uncertain, "dispatch_outcome_unknown", none⟩
  | .ok result => match acknowledgement p result with
      | none => ⟨.uncertain, "ack_unparseable", none⟩
      | some (uid, version) => ⟨.acknowledged, "api_acknowledged",
          some (.obj [("service_uid", uid), ("resource_version", version)])⟩

/-- What `reconcile` records of a service. -/
def observation (p : Proposal) (service : Json) : Except PyError (List (String × Json)) := do
  let metadata ← getD "metadata" (.obj []) service
  let spec ← getD "spec" (.obj []) service
  let all ← iterate (← getD "ports" (.arr []) spec)
  let named ← all.mapM fun port => (get "name" port).map fun v => decide (PyEq v (.str p.portName.1))
  let ports := ((all.zip named).filter Prod.snd).map Prod.fst
  let uid ← get "uid" metadata
  let ns ← get "namespace" metadata
  let name ← get "name" metadata
  let identityMatches := decide (PyEq uid (.str p.serviceUid.1) ∧ PyEq ns (.str p.ns.1) ∧
    PyEq name (.str p.serviceName.1))
  let targetPort ← match ports with
    | [port] => get "targetPort" port
    | _ => .ok .null
  let desired := identityMatches ∧ ports.length = 1 ∧ PyEq targetPort (.int p.targetPort.1)
  let version ← get "resourceVersion" metadata
  return [
    ("observation", .str (if desired then "desired_state_observed"
      else "desired_state_not_observed")),
    ("service_uid", uid), ("resource_version", version),
    ("identity_matches", .bool identityMatches), ("target_port", targetPort),
    ("attribution", .str "not_established"), ("recovery", .str "not_verified")]

/-- What `reconcile` records where the service could not be read. -/
def unavailable (e : BrokerError) : List (String × Json) := [
  ("observation", .str "unavailable"), ("error_type", .str e.name),
  ("attribution", .str "not_established"), ("recovery", .str "not_verified")]

/-! ## Blocks -/

section
variable {ρ Λ α : Type}

/-- Raise what a walk through a document raises. -/
def ofPy (r : Except PyError α) : Program ρ Λ α := .ofExcept (r.mapError .python)

/-- `sqlite3.OperationalError`: the lock is not to be had in time, the disk is full. -/
def operationalError : BrokerError := .other "OperationalError" none none none

/-- The database may fail at any time, without an effect. -/
def mayFail : Program ρ Λ Unit := do
  if ← Proc.ask Bool then throw operationalError else pure ()

/-- One block that writes: all of it or nothing. -/
def transaction (self : String) (l : Label Λ)
    (f : BrokerPolicy → Journal → Except BrokerError (α × Journal)) : Program ρ Λ α := do
  mayFail
  let r ← Proc.perform l fun _ w =>
    if w.writer = none then (w.policies self).map fun policy => match f policy w.journal with
      | .ok (a, j) => (.ok a, { w with journal := j })
      | .error e => (.error e, w)
    else none
  Proc.ofExcept r

/-- One block that only reads; readers do not wait for the writer. -/
def query (self : String) (l : Label Λ) (f : BrokerPolicy → Journal → Except BrokerError α) :
    Program ρ Λ α := do
  mayFail
  let r ← Proc.perform l fun _ w => (w.policies self).map fun policy => (f policy w.journal, w)
  Proc.ofExcept r

/-- A look at the policy object, in memory. -/
def readPolicy (self : String) (l : Label Λ) (f : BrokerPolicy → α) : Program ρ Λ α :=
  Proc.perform l fun _ w => (w.policies self).map fun policy => (f policy, w)

end

namespace ActionBroker

variable {ρ Λ : Type} (P : Platform) (b : ActionBroker ρ Λ)

def lookup (id : String) : Program ρ Λ Journal.Operation :=
  query b.self (.lookup id) fun policy j => j.lookup b.self policy id

/-- `contract_binding`. -/
def contractBinding (id : String) : Program ρ Λ Json :=
  query b.self (.contractBinding id) fun _ j => .ok (j.binding id)

/-- `_reject_prepared`. -/
def rejectPrepared (id reason : String) (expected : Option Json) :
    Program ρ Λ Journal.Operation := do
  transaction b.self (.rejectPrepared id reason expected) fun _ j =>
    .ok ((), j.rejectPrepared id reason expected)
  b.lookup id

/-- `_finish`. -/
def finish (id : String) (o : Journal.Outcome) : Program ρ Λ Journal.Operation := do
  transaction b.self (.finish id o) fun _ j => .ok ((), j.finish b.self id o)
  b.lookup id

/-- What the part of `resume_prepared` that may be interrupted without harm leads to. -/
inductive Preflight where
  | ready (patch : List Op) (binding : Json)
  | refused (reason : String)
  | returned (operation : Journal.Operation)

/-- Read the service and, under the precise contract, record its conditions. -/
def construct (id : String) (p : Proposal) (binding : Json) (isPrecise : Bool) :
    Program ρ Λ Preflight := do
  let service ← b.getService p.ns.1 p.serviceName.1
  match ← ofPy (constructPatch p service) with
  | .error reason => return .refused reason
  | .ok patch =>
      if isPrecise then
        let candidate ← ofPy (bindingFor P p.modelDump (.str precise) service)
        match patchForBinding P p.modelDump candidate with
        | .error .attributeError => throw (.python .attributeError)
        | .error _ =>
            return .returned (← b.rejectPrepared id "contract_snapshot_out_of_scope" (some binding))
        | .ok _ =>
            let recorded ← transaction b.self (.recordConditions p candidate) fun _ j =>
              j.recordConditions P p candidate
            let patch ← ofPy (patchForBinding P p.modelDump recorded)
            return .ready patch recorded
      else return .ready patch binding

/-- The part of `resume_prepared` before anything is claimed. -/
def preflight (id : String) (p : Proposal) (binding : Json) : Program ρ Λ Preflight := do
  let contractId ← ofPy (subscript "contract_id" binding)
  if PyEq contractId (.str precise) then
    let snapshot ← ofPy (subscript "snapshot" binding)
    if snapshot ≠ .null then
      let patch ← ofPy (patchForBinding P p.modelDump binding)
      return .ready patch binding
    else b.construct P id p binding true
  else b.construct P id p binding false

/-- The checks of the claim transaction; where they leave something to be decided,
the transaction stays open. -/
def beginClaim (id : String) (p : Proposal) (binding : Json) :
    Program ρ Λ (Option (Option String × Json)) := do
  mayFail
  let checked ← Proc.perform (.beginClaim id) fun t w =>
    if w.writer = none then (w.policies b.self).map fun policy =>
      match w.journal.status? id with
      | some .prepared =>
          (.ok (some (w.journal.claimReason P policy id p binding, w.journal.binding id)),
            { w with writer := some t })
      | some _ => (.ok none, w)
      | none => (.error (.python .typeError), w)
    else none
  Proc.ofExcept checked

/-- Ask the authorizer, if there is one; the reason it has against the dispatch. -/
def authorization (p : Proposal) (current : Json) (patch : List Op) :
    Program ρ Λ (Option String) :=
  match b.authorize with
  | none => pure none
  | some authorize => do
      match ← Proc.attempt (authorize p current patch) with
      | .ok _ => return none
      | .error .permission => return some "dispatch_authorization_refused"
      | .error _ => return some "dispatch_authorization_unavailable"

/-- Commit the claim transaction; whether a row has changed. -/
def endClaim (id : String) (reason : Option String) : Program ρ Λ Bool := do
  if ← Proc.ask Bool then
    Proc.perform (.abortClaim id) fun t w =>
      if w.writer = some t then some ((), { w with writer := none }) else none
    throw operationalError
  else
    Proc.perform (.endClaim id reason) fun t w =>
      if w.writer = some t then
        let r := w.journal.claim b.self id reason
        some (r.1, { w with journal := r.2, writer := none })
      else none

/-- The claim of a dispatch: whether the dispatch is to go ahead. -/
def claimDispatch (id : String) (p : Proposal) (binding : Json) (patch : List Op) :
    Program ρ Λ Bool := do
  match ← b.beginClaim P id p binding with
  | none => return false
  | some (reason, current) =>
      -- only the winner of this claim may request authorization
      let reason ← match reason with
        | some reason => pure (some reason)
        | none => b.authorization p current patch
      let changed ← b.endClaim id reason
      return changed && reason.isNone

/-- The part of `resume_prepared` after the claim. -/
def dispatch (id : String) (p : Proposal) (patch : List Op) : Program ρ Λ Journal.Operation := do
  Proc.emit (.patchService id patch)
  let answer ← Proc.attempt (b.patchService p.ns.1 p.serviceName.1 patch)
  Proc.emit (.patchReturned id p answer)
  match answer with
  | .error _ => b.finish id (outcome p answer)
  | .ok _ =>
      -- hooks stay outside the handler: a simulated crash leaves the row dispatching
      b.hook "after_dispatch"
      b.hook "before_record"
      b.finish id (outcome p answer)

/-- The part of `resume_prepared` that goes on with a patch. -/
def send (id : String) (p : Proposal) (patch : List Op) (binding : Json) :
    Program ρ Λ Journal.Operation := do
  b.hook "before_dispatch"
  if ← b.claimDispatch P id p binding patch then b.dispatch id p patch else b.lookup id

/-- `resume_prepared` of an operation that is prepared. -/
def resume (id : String) (p : Proposal) : Program ρ Λ Journal.Operation := do
  let binding ← b.contractBinding id
  let reason ← readPolicy b.self (.policyReason id) fun policy =>
    (policy.policyReason p).or (Journal.contractReason P policy p binding)
  match reason with
  | some reason => b.rejectPrepared id reason none
  | none =>
      match ← Proc.attempt (b.preflight P id p binding) with
      | .error e =>
          -- no send has started; the durable intent stays resumable
          transaction b.self (.preflightUnavailable id e) fun _ j =>
            .ok ((), j.addEvent id .preflightUnavailable [("error_type", .str e.name)])
          b.lookup id
      | .ok (.returned operation) => return operation
      | .ok (.refused reason) => b.rejectPrepared id reason (some binding)
      | .ok (.ready patch binding) => b.send P id p patch binding

/-- `resume_prepared`. -/
def resumePrepared (id : String) : Program ρ Λ Journal.Operation := do
  let operation ← b.lookup id
  if operation.status = .prepared then
    match Proposal.modelValidate operation.row.request with
    | none => throw .validation
    | some p => b.resume P id p
  else return operation

def propose (proposal : Json) : Program ρ Λ Journal.Operation :=
  match Proposal.modelValidate proposal with
  | none => throw .validation
  | some p => do
      if ← transaction b.self (.propose p) fun policy j => j.propose P policy p then
        b.hook "after_intent"
        b.resumePrepared P p.operationId.1
      else b.lookup p.operationId.1

/-- What `reconcile` sees. -/
def observe (id : String) (p : Proposal) : Program ρ Λ (List (String × Json)) := do
  let reason ← readPolicy b.self (.policyReason id) fun policy => policy.scopeReason p
  match reason with
  | some _ => throw .permission
  | none => do
      let service ← b.getService p.ns.1 p.serviceName.1
      ofPy (observation p service)

def reconcile (id : String) : Program ρ Λ Journal.Operation := do
  let operation ← b.lookup id
  match Proposal.modelValidate operation.row.request with
  | none => throw .validation
  | some p =>
      let observed ← Proc.attempt (b.observe id p)
      let observed := match observed with
        | .ok observed => observed
        | .error e => unavailable e
      transaction b.self (.reconcile id observed) fun _ j => .ok ((), j.reconcile id observed)
      b.lookup id

end ActionBroker

/-- A call of an instance. -/
inductive Call where
  | propose (proposal : Json)
  | resumePrepared (id : String)
  | lookup (id : String)
  | reconcile (id : String)

/-- What a call runs. -/
def Call.run {ρ Λ : Type} (P : Platform) (b : ActionBroker ρ Λ) :
    Call → Program ρ Λ Journal.Operation
  | .propose proposal => b.propose P proposal
  | .resumePrepared id => b.resumePrepared P id
  | .lookup id => b.lookup id
  | .reconcile id => b.reconcile id

end AutonomyLab.Broker
