import AutonomyLab.Admission.Registry
import AutonomyLab.Broker.Program

/-!
# The operator of a campaign

An operator process of a campaign under an admitted program: it starts episodes, and runs
its broker with an adapter that sends a patch only on a committed authorization, and an
authorizer that asks the admission ledger for one.

* `Operator`, `Campaign` — the variables and the workspace of a process, and what there is
  besides the journal: the ledger, and the processes.
* `Deed` — what the code of the campaign is seen to do.
* `authorize`, `patchService`, `broker` — the authorizer, the adapter, and the broker.
* `operator`, `promote`, `withdraw` — the process, and the administrative calls.

Clocks, leases, release files and the network are outside: whether the window is open,
whether the program on disk is the one that was pinned, and what the service answers may
be anything at any time (`check`, `asked`).
-/

namespace AutonomyLab.Admission

open Json Process Broker

/-- The variables `episode` and `pin` of an operator process, and its workspace. -/
structure Operator where
  episode : Option String := none
  pin : Option Pin := none
  /-- The directories of episodes. -/
  episodes : List String := []
  /-- The files `operation-….json`, by episode and operation. -/
  bindings : List (String × String) := []

/-- What a campaign has besides the journal of operations. -/
structure Campaign where
  registry : Registry
  operators : ℕ → Operator

/-- What the code of a campaign is seen to do. -/
inductive Deed where
  | makeEpisode (name : String)
  | startEpisode
  | pin
  | authorize (p : Proposal) (binding : Json) (patch : List Op)
  | operationRows
  | bindingExists (id : String)
  | authorization (p : Proposal)
  | saveBinding (id : String)
  /-- The patch leaves the process, under `audit_operation_id`. -/
  | transport (id ns name : String) (patch : List Op)
  | recordRefusal (action : String)
  | promote (receipt : Receipt) (expectedRevision : Json)
  | withdraw (expectedRevision : Json)

/-- Before any process. -/
def Campaign.start : Campaign := ⟨.empty, fun _ => {}⟩

/-- Change the variables and the workspace of one process. -/
def Campaign.setOperator (t : ℕ) (x : Operator) (c : Campaign) : Campaign :=
  { c with operators := Function.update c.operators t x }

/-- `mkdir`, and `pin = None`. -/
def Campaign.makeEpisode (t : ℕ) (name : String) (c : Campaign) : Except BrokerError Unit × Campaign :=
  let x := c.operators t
  if name ∈ x.episodes then (.error (.other "FileExistsError" none none none), c)
  else (.ok (), c.setOperator t { x with
    episode := some name, pin := none, episodes := name :: x.episodes })

/-- A variable that has no value yet. -/
def nameError : BrokerError := .other "NameError" none none none

/-- `pin = registry.start_episode(episode.name)`. -/
def Campaign.startEpisode (files : Json) (calibrated : Except PyError Unit) (t : ℕ) (c : Campaign) :
    Except BrokerError Pin × Campaign :=
  let x := c.operators t
  match x.episode with
  | none => (.error nameError, c)
  | some episode => match c.registry.startEpisode files calibrated episode with
      | .error e => (.error e, c)
      | .ok (pin, r) => (.ok pin, { c.setOperator t { x with pin := some pin } with registry := r })

/-- The file `operation-….json` of the present episode is written. -/
def Campaign.saveBinding (t : ℕ) (id : String) (c : Campaign) : Except BrokerError Unit × Campaign :=
  let x := c.operators t
  match x.episode with
  | none => (.error nameError, c)
  | some episode => (.ok (), c.setOperator t { x with bindings := (episode, id) :: x.bindings })

section
variable {α : Type}

/-- An answer from outside, or an exception. -/
def asked (α : Type) : Program Campaign Deed α := do
  Proc.ofExcept (← Proc.ask (Except BrokerError α))

/-- A check of something outside. -/
def check : Program Campaign Deed Unit := asked Unit

/-- What a process does with its variables and its workspace. -/
def inWorkspace (d : Deed) (f : ℕ → Campaign → Except BrokerError α × Campaign) :
    Program Campaign Deed α := do
  check
  let r ← Proc.perform (.ext d) fun t w =>
    some ((f t w.rest).1, { w with rest := (f t w.rest).2 })
  Proc.ofExcept r

/-- One transaction on the ledger. -/
def ledger (d : Deed) (f : Operator → Registry → Except BrokerError (α × Registry)) :
    Program Campaign Deed α := do
  mayFail
  let r ← Proc.perform (.ext d) fun t w =>
    let r := f (w.rest.operators t) w.rest.registry
    some (r.map Prod.fst, { w with rest := { w.rest with registry := w.rest.registry.commit r } })
  Proc.ofExcept r

end

/-! ## Refusals -/

/-- The reason of a `Refused`, and nothing of what other exceptions say. -/
def refusalReason (unavailable : String) : BrokerError → String
  | .refused reason => reason
  | _ => unavailable

def recordRefusal (action : String) (details : Json) : Program Campaign Deed Unit :=
  ledger (.recordRefusal action) fun _ r => .ok ((), r.recordRefusal action details)

/-- The details of `record_refusal`. -/
def refusalDetails (expectedRevision : Json) (e : BrokerError) : Json := .obj [
  ("expected_revision", match expectedRevision with | .int n => .int n | _ => .null),
  ("variant", .null), ("error_type", .str e.name),
  ("reason", .str (refusalReason "Evidence unavailable or malformed" e))]

section
variable (P : Platform)

def recordDispatchRefusal (p : Proposal) (e : BrokerError) : Program Campaign Deed Unit :=
  recordRefusal "authorize_dispatch" (.obj [
    ("operation_id", .str p.operationId.1), ("request_sha256", .str (requestDigest P p)),
    ("error_type", .str e.name),
    ("reason", .str (refusalReason "Authorization unavailable or malformed" e))])

/-! ## The authorizer -/

/-- `ProgramRegistry.authorize`: a refusal is recorded too. -/
def registryAuthorize (p : Proposal) (binding : Json) (patch : List Op) :
    Program Campaign Deed Authorization := do
  let result ← Proc.attempt do
    let conditions ← Proc.ofExcept (executionConditions P p binding patch)
    let calibrated ← Proc.ask (Except PyError Unit)
    let exact ← Proc.ask (Except PyError Unit)
    ledger (.authorize p binding patch) fun x r =>
      r.authorize P calibrated exact x.pin p conditions
  match result with
  | .ok row => return row
  | .error e => do
      recordDispatchRefusal P p e
      throw e

/-- `authorize`. -/
def authorize (p : Proposal) (binding : Json) (patch : List Op) : Program Campaign Deed Unit := do
  match ← Proc.attempt check with
  | .error e => do
      recordDispatchRefusal P p e
      throw .permission
  | .ok _ => do
      match ← Proc.attempt (registryAuthorize P p binding patch) with
      | .ok _ => return ()
      | .error (.refused _) => throw .permission
      | .error e => throw e

/-! ## The adapter -/

/-- The one operation that this instance is dispatching. -/
def attributed (o : String) : Program Campaign Deed (String × Proposal) := do
  check
  let dispatching ← Proc.read (.ext .operationRows) fun w => w.journal.operations.rows.filter
    fun row => row.2.status = .dispatching && row.2.owner = some o
  match dispatching with
  | [(id, row)] => match Proposal.modelValidate row.request with
      | some p => return (id, p)
      | none => throw .validation
  | _ => throw (.other "RuntimeError" none none none)

/-- `registry.authorization`, with the binding that the broker has stored. -/
def authorization (o : String) (p : Proposal) (patch : List Op) :
    Program Campaign Deed Authorization := do
  let binding ← query o (.contractBinding p.operationId.1) fun _ j =>
    .ok (j.binding p.operationId.1)
  let conditions ← Proc.ofExcept (executionConditions P p binding patch)
  ledger (.authorization p) fun x r =>
    (r.authorization P x.pin p conditions).map fun row => (row, r)

/-- Everything that is checked between the claim and the patch; the file is written
before the patch is sent, even if its acknowledgement is lost. -/
def clear (o id : String) (p : Proposal) (patch : List Op) : Program Campaign Deed Unit := do
  check
  let bound ← inWorkspace (.bindingExists id) fun t c => match (c.operators t).episode with
    | none => (.error nameError, c)
    | some episode => (.ok (decide ((episode, id) ∈ (c.operators t).bindings)), c)
  if bound then throw (.refused "Program operation already dispatched")
  else do
    let _ ← authorization P o p patch
    inWorkspace (.saveBinding id) fun t c => c.saveBinding t id

/-- `DispatchNotSent`, and whether the refusal could be recorded. -/
def notSent {α : Type} (record : Program Campaign Deed Unit) : Program Campaign Deed α := do
  match ← Proc.attempt record with
  | .ok _ => throw (.dispatchNotSent false)
  | .error _ => throw (.dispatchNotSent true)

/-- `Adapter.patch_service`. -/
def patchService (o ns name : String) (patch : List Op) : Program Campaign Deed Json := do
  match ← Proc.attempt (attributed o) with
  | .error e => notSent (recordRefusal "dispatch_guard" (refusalDetails .null e))
  | .ok (id, p) => do
      match ← Proc.attempt (clear P o id p patch) with
      | .error e => notSent (recordDispatchRefusal P p e)
      | .ok _ => do
          Proc.emit (.ext (.transport id ns name patch))
          asked Json

/-! ## Processes -/

/-- The broker of an operator process. -/
def broker (o : String) : ActionBroker Campaign Deed where
  self := o
  getService _ _ := asked Json
  patchService := patchService P o
  hook _ := check
  authorize := some (authorize P)

/-- A new episode; where it is refused the process ends. -/
def newEpisode (programVersion : Json) : Program Campaign Deed Unit := do
  let name ← Proc.ask String
  inWorkspace (.makeEpisode name) fun t c => c.makeEpisode t name
  let files ← Proc.ask Json
  let calibrated ← Proc.ask (Except PyError Unit)
  match ← Proc.attempt (inWorkspace .startEpisode fun t c => c.startEpisode files calibrated t) with
  | .error (.refused reason) => do
      recordRefusal "start_episode" (refusalDetails .null (.refused reason))
      throw (.refused reason)
  | .error e => throw e
  | .ok pin =>
      Proc.ofExcept (require (PyEq pin.programVersion programVersion)
        "Admitted program differs from contract")

/-- A process starts an episode, or calls its broker, whatever the last call came to. -/
def move (o : String) (programVersion : Json) : Program Campaign Deed Unit := do
  match ← Proc.ask (Option Call) with
  | none => newEpisode programVersion
  | some call => do
      let _ ← Proc.attempt (call.run P (broker P o))
      return ()

/-- One thing after another, in any order. -/
def moves (o : String) (programVersion : Json) : ℕ → Program Campaign Deed Unit
  | 0 => pure ()
  | n + 1 => do
      move P o programVersion
      moves o programVersion n

/-- `operator`. -/
def operator (o : String) (programVersion : Json) : Program Campaign Deed Unit := do
  moves P o programVersion (← Proc.ask ℕ)

end

/-- `ProgramRegistry.promote`; the evaluation of the evidence is outside. -/
def promote (expectedRevision : Json) : Program Campaign Deed Unit := do
  let result ← Proc.attempt do
    let receipt ← asked Receipt
    ledger (.promote receipt expectedRevision) fun _ r => r.recordPromotion receipt expectedRevision
  match result with
  | .ok _ => return ()
  | .error e => do
      recordRefusal "promote_program" (refusalDetails expectedRevision e)
      throw e

/-- `Registry.withdraw`. -/
def withdraw (expectedRevision : Json) : Program Campaign Deed Unit := do
  match ← Proc.attempt (ledger (.withdraw expectedRevision) fun _ r =>
      r.withdraw expectedRevision) with
  | .ok _ => return ()
  | .error (.refused reason) => do
      recordRefusal "withdraw" (refusalDetails expectedRevision (.refused reason))
      throw (.refused reason)
  | .error e => throw e

end AutonomyLab.Admission
