import AutonomyLab.Broker.Program
import AutonomyLab.Runbook.Program
import AutonomyLab.Toolbox.Replay

/-!
# The tools of an episode

What the runbook is answered in a campaign: the tools of the episode, whose proposals and lookups
go to the broker of the operator process.

* `Workspace`, `Deed` — what the operator processes of a campaign have besides the journal, and
  what they are seen to do.
* `execute`, `record`, `call` — a call of a tool.
* `answer` — the answers to the questions of the runbook.

What the cluster, the services and the verifier answer may be anything, and so may the clock and
the uuids; a file that is written may fail to be.
-/

namespace AutonomyLab.Campaign

open Json Process Broker
open Toolbox (ObservationTools Options Tool Arguments tool? sourceOf refusal? denied errorPayload
  invalidArguments outcomePayload recordOf readBack)

/-- What there is besides the journal: the memory of the tools of the present episode. -/
structure Workspace where
  tools : ObservationTools

/-- What the code of a campaign is seen to do. -/
inductive Deed where
  /-- The broker of a process is created. -/
  | opened
  | operationRows
  /-- The patch leaves the process, under `audit_operation_id`. -/
  | transport (id ns name : String) (patch : List Op)
  /-- An episode begins, with tools of its own. -/
  | newEpisode
  /-- A look at the memory of the tools. -/
  | tools
  | begun
  | recorded (id : String)
  | claimed
  | escalation (reason : String) (ids : List String)

abbrev Program (α : Type) : Type 1 := Broker.Program Workspace Deed α

/-- An answer from outside, or an exception. -/
def asked (α : Type) : Program α := do
  Proc.ofExcept (← Proc.ask (Except BrokerError α))

/-- A look at the tools, in memory. -/
def getTools {α : Type} (f : ObservationTools → α) : Program α :=
  Proc.read (.ext .tools) fun w => f w.rest.tools

/-- A change of the tools, in memory. -/
def setTools (d : Deed) (f : ObservationTools → ObservationTools) : Program Unit :=
  Proc.perform (.ext d) fun _ w => some ((), { w with rest := { w.rest with tools := f w.rest.tools } })

/-! ## Payloads -/

/-- `_operation`; the times are those of the row. -/
def operationPayload (createdAt updatedAt : String) (operation : Journal.Operation) : Runbook.Dict :=
  [("operation_id", .str operation.operationId), ("run_id", .str operation.row.runId),
    ("status", .str operation.status.text), ("reason", .str operation.reason)] ++
  (operation.journalStatus.map fun s => ("journal_status", Json.str s.text)).toList ++
  [("budget_reserved", .bool operation.row.budgetReserved), ("budget_used", .int operation.budgetUsed),
    ("budget_limit", .int operation.budgetLimit), ("request", operation.row.request),
    ("result", operation.row.result.getD .null), ("reconciliation", operation.row.reconciliation.getD .null),
    ("created_at", .str createdAt), ("updated_at", .str updatedAt)]

/-- What `get_operation` answers for an operation of another run, or for none. -/
def operationNotFound (id : String) : Runbook.Dict :=
  errorPayload "operation_not_found" ++ [("operation_id", .str id)]

/-- An exception of `_execute`, as `call` tells it from others. -/
def refusalOf : BrokerError → Toolbox.Refusal
  | .operationConflict => .operationConflict
  | e => .other e.name

section
variable (P : Toolbox.Platform) (b : ActionBroker Workspace Deed) (o : Options)

/-- The payload of an operation, under the times of its row. -/
def operationOf (operation : Journal.Operation) : Program Runbook.Dict := do
  let createdAt ← Proc.ask String
  let updatedAt ← Proc.ask String
  return operationPayload createdAt updatedAt operation

/-- `get_operation`, of an operation that was found. -/
def showOperation (id : String) (operation : Journal.Operation) : Program Runbook.Dict :=
  if operation.row.runId ≠ o.runId then pure (operationNotFound id)
  else if operation.status = .uncertain ∨ operation.status = .dispatching then do
    operationOf (← b.reconcile id)
  else operationOf operation

/-- `_execute`; before it is finished, an episode may be held by its controller. -/
def execute : Arguments → Program Runbook.Dict
  | .nothing => asked Runbook.Dict
  | .proposal p => do operationOf (← b.propose P.toPlatform p.modelDump)
  | .operation id => do
      match ← Proc.attempt (b.lookup id.1) with
      | .error (.python .keyError) => return operationNotFound id.1
      | .error e => throw e
      | .ok operation => showOperation b o id.1 operation
  | .finish f => do
      asked Unit
      return ("kind", .str "claim") :: f.dumped

/-! ## Calls -/

/-- `_record`: the observation that is read back from what is written. -/
def record (source : String) (payload : Runbook.Dict) : Program Json := do
  let id ← Proc.ask String
  let timestamp ← Proc.ask String
  asked Unit
  setTools (.recorded id) fun tools => { tools with issuedIds := insert id tools.issuedIds }
  return readBack (recordOf P o id timestamp source payload)

/-- `call`, for a tool and arguments that were accepted. -/
def callTool (tool : Tool) (arguments : Arguments) : Program Json := do
  let outcome ← Proc.attempt (execute P b o arguments)
  let answer ← record P o tool.name (outcomePayload (outcome.mapError refusalOf))
  let claimed ← Broker.ofPy ((answer.subscript "payload").bind (get "kind"))
  if tool = .finish ∧ PyEq claimed (.str "claim") then
    setTools .claimed fun tools => { tools with terminal := some (answer.member "payload") }
  return answer

/-- `call`, with budget left and no claim made. -/
def openCall (tools : ObservationTools) (name : String) (args : Runbook.Dict) : Program Json :=
  match tool? (.str name) with
  | none => record P o "unknown_tool" (errorPayload "unknown_tool")
  | some tool => match tool.validate (.obj args) with
      | none => record P o tool.name (invalidArguments P tool (.obj args))
      | some arguments => match refusal? o tools arguments with
          | some error => record P o tool.name (errorPayload error)
          | none => callTool P b o tool arguments

/-- `call`. -/
def call (name : String) (args : Runbook.Dict) : Program Json := do
  let tools ← getTools id
  if tools.callCount ≥ o.maxCalls ∨ tools.terminal.isSome then
    let timestamp ← Proc.ask String
    return denied o timestamp (sourceOf (tool? (.str name))) tools.terminal.isSome
  else
    setTools .begun fun tools => { tools with callCount := tools.callCount + 1 }
    openCall P b o tools name args

/-! ## Answers -/

/-- The members of a dictionary. -/
def members : Json → Runbook.Dict
  | .obj fs => fs
  | _ => []

/-- What the runbook is answered. -/
def answer : (q : Runbook.Query) → Program q.Answer
  | .terminal => getTools fun tools => tools.terminal.map members
  | .callCount => getTools ObservationTools.callCount
  | .call name args => call P b o name args
  | .uuid4 => Proc.ask String

end

end AutonomyLab.Campaign
