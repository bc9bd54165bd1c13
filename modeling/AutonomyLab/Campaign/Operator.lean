import AutonomyLab.Campaign.Tools

/-!
# The operator of a campaign

An operator process: it reconciles what an earlier one has left, and where nothing was left it
runs one episode after another.  Operators are started one at a time, and each may be killed
anywhere.

* `Contract` — the part of the contract that the operator goes by.
* `patchService`, `broker` — its adapter and its broker.
* `reconcilePending` — what is done with operations that are not settled.
* `episode`, `rounds`, `operator` — the loop.
* `campaign` — the operators of a campaign.

Clocks, leases, files, pins and the admission ledger are outside: whether the window is open,
whether a pin is valid and whether an episode is admitted may be anything at any time (`asked`).
-/

namespace AutonomyLab.Campaign

open Json Process Broker
open Toolbox (ObservationTools)

/-! ## Contracts -/

/-- The values of `admitted_procedure`. -/
inductive Variant where
  | runbook
  | runbookFallback
  deriving DecidableEq, Repr

structure Contract where
  policy : BrokerPolicy
  admittedProcedure : Option Variant
  boundedRefresh : Bool
  /-- The decisions of `procedure_program`. -/
  procedureProgram : Option Runbook.Decisions
  admitProgram : Bool
  refresh_valid : boundedRefresh → admittedProcedure = none
  program_valid : procedureProgram.isSome → boundedRefresh = false ∧ admittedProcedure = none
  admit_valid : admitProgram → procedureProgram.isSome ∧ admittedProcedure = none

/-- Whether there is an admission ledger. -/
def Contract.registry (contract : Contract) : Bool :=
  contract.admitProgram || contract.admittedProcedure.isSome

/-! ## The broker -/

section
variable (P : Toolbox.Platform) (contract : Contract)

/-- `operation_rows`. -/
def operationRows : Program (List (String × Row)) := do
  asked Unit
  Proc.read (.ext .operationRows) fun w => w.journal.operations.rows

/-- What is checked before the patch; the value is the one operation that is being dispatched. -/
def clear (o : String) : Program String := do
  asked Unit
  let rows ← operationRows
  match rows.filter fun row => row.2.status = .dispatching && row.2.owner = some o with
  | [(id, _)] => do
      -- the pins, the bindings and the authorization
      asked Unit
      return id
  | _ => throw (.other "RuntimeError" none none none)

/-- `Adapter.patch_service`; only a refusal under an admitted program is recorded. -/
def patchService (o ns name : String) (patch : List Op) : Program Json := do
  match ← Proc.attempt (clear o) with
  | .error _ => do
      let refusalUnavailable ← Proc.ask Bool
      throw (.dispatchNotSent (contract.admitProgram && refusalUnavailable))
  | .ok id => do
      Proc.emit (.ext (.transport id ns name patch))
      asked Json

/-- The broker of an operator process; the hooks are barriers of a test controller. -/
def broker (o : String) : ActionBroker Workspace Deed where
  self := o
  getService _ _ := asked Json
  patchService := patchService contract o
  hook _ := asked Unit
  authorize := if contract.admitProgram then some fun _ _ _ => asked Unit else none

/-- `ActionBroker(…)`: a transaction of a process that was killed is rolled back. -/
def openBroker (o : String) : Program Unit := do
  asked Unit
  Broker.ofPy contract.policy.postInit
  Proc.perform (.ext .opened) fun _ w => some ((), { w with
    writer := none, policies := Function.update w.policies o (some contract.policy) })

/-! ## Pending operations -/

/-- The operations that are not settled, in the order of their rows. -/
def pendingOf (rows : List (String × Row)) : List String :=
  (rows.filter fun row => row.2.status ∈ [Status.prepared, .dispatching, .uncertain]).map Prod.fst

def reconcileAll (o : String) : List String → Program Unit
  | [] => pure ()
  | id :: ids => do
      let _ ← (broker contract o).reconcile id
      reconcileAll o ids

/-- `reconcile_pending`. -/
def reconcilePending (o : String) : Program (List String) := do
  let rows ← operationRows
  reconcileAll contract o (pendingOf rows)
  return pendingOf rows

/-- `escalation.json`. -/
def escalate (reason : String) (ids : List String) : Program Unit := do
  asked Unit
  Proc.emit (.ext (.escalation reason ids))

/-! ## Episodes -/

/-- The tools of an episode. -/
def options : Toolbox.Options := ⟨contract.policy.runId, 40, 8192⟩

/-- `registry.start_episode`, where there is a ledger; `false` where it was refused. -/
def startEpisode : Program Bool := if contract.registry then asked Bool else pure true

/-- A new episode, whose tools are new; the value says whether it was admitted. -/
def newEpisode : Program Bool := do
  asked Unit
  if ← startEpisode contract then
    asked Unit
    Broker.ofPy (options contract).check
    setTools .newEpisode fun _ => .initial
    return true
  else return false

/-- What is run in an episode. -/
def runbook : Runbook.Program Json :=
  match contract.procedureProgram with
  | some decisions => Runbook.execute decisions
  | none => Runbook.run (contract.admittedProcedure.all fun variant => variant = .runbookFallback)
      contract.boundedRefresh

/-- `run_program`, before it runs anything. -/
def checkFresh : Program Unit := do
  asked Unit
  let tools ← getTools id
  if tools.terminal.isSome ∨ tools.callCount ≠ 0 then
    throw (.python (.valueError "Program execution requires a fresh workspace"))

/-- The claim of an episode. -/
def episode (o : String) : Program Json := do
  if contract.procedureProgram.isSome then checkFresh
  let outcome ← Dialogue.perform (answer P (broker contract o) (options contract)) .python
    (runbook contract [])
  return outcome.1

/-- The loop, for as long as the window is open. -/
def rounds (o : String) : ℕ → Program Unit
  | 0 => pure ()
  | n + 1 => do
      asked Unit
      let pending ← reconcilePending contract o
      if pending ≠ [] then escalate "unresolved_operations" pending
      else if !(← newEpisode contract) then escalate "procedure_admission_refused" []
      else do
        let outcome ← episode P contract o
        asked Unit
        -- an escalation requires explicit follow-up
        if PyEq (← Broker.ofPy (get "outcome" outcome)) (.str "escalated") then pure ()
        else rounds o n

/-- `operator`. -/
def operator (o : String) : Program Unit := do
  openBroker contract o
  let unresolved ← reconcilePending contract o
  if unresolved ≠ [] then escalate "unresolved_prior_operations" unresolved
  else rounds P contract o (← Proc.ask ℕ)

/-- The operators of a campaign on the journal `j₀`, one after another; each may be killed anywhere. -/
def campaign (j₀ : Journal) : Sequential.System (World Workspace) (Label Deed) String BrokerError Unit where
  init w := w.journal = j₀
  starts o p := p = operator P contract o
  dies _ := True

end

end AutonomyLab.Campaign
