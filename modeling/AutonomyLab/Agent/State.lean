import AutonomyLab.Json.Python

/-!
# What an agent remembers

The state of an incident investigation, as the agent keeps it in memory and as its
checkpoint holds it.

* `Limits`, `Usage` — the budgets, and what has been spent of them.
* `Call`, `Pending` — a function call of the model that has been checked, and how far
  the agent has got with it.
* `Preflight`, `Request` — what was counted and reserved before a request, and the
  request.
* `AgentState`, `newState` — the whole of it, and how it begins.

Times, and the digest of a request, are left out.
-/

namespace AutonomyLab.Agent

open Json

/-- A dictionary. -/
abbrev Dict := List (String × Json)

/-! ## Parameters of a run -/

inductive Variant where
  | basic
  | structured
  deriving DecidableEq

/-- `POLICIES`. -/
inductive Policy where
  | full
  | recentExchanges
  deriving DecidableEq

structure Limits where
  maxTurns : ℕ
  maxTotalTokens : ℕ
  maxOutputTokens : ℕ
  maxToolCalls : ℕ
  deriving DecidableEq

/-- Key by key the smaller of two budgets. -/
def Limits.least (a b : Limits) : Limits :=
  ⟨min a.maxTurns b.maxTurns, min a.maxTotalTokens b.maxTotalTokens,
    min a.maxOutputTokens b.maxOutputTokens, min a.maxToolCalls b.maxToolCalls⟩

/-- No budget is larger. -/
structure Limits.Le (a b : Limits) : Prop where
  turns : a.maxTurns ≤ b.maxTurns
  totalTokens : a.maxTotalTokens ≤ b.maxTotalTokens
  outputTokens : a.maxOutputTokens ≤ b.maxOutputTokens
  toolCalls : a.maxToolCalls ≤ b.maxToolCalls

theorem Limits.Le.refl (a : Limits) : a.Le a :=
  ⟨Nat.le_refl _, Nat.le_refl _, Nat.le_refl _, Nat.le_refl _⟩

theorem Limits.Le.trans {a b c : Limits} (h : a.Le b) (h' : b.Le c) : a.Le c :=
  ⟨h.turns.trans h'.turns, h.totalTokens.trans h'.totalTokens,
    h.outputTokens.trans h'.outputTokens, h.toolCalls.trans h'.toolCalls⟩

theorem Limits.least_le (a b : Limits) : (a.least b).Le a :=
  ⟨Nat.min_le_left _ _, Nat.min_le_left _ _, Nat.min_le_left _ _, Nat.min_le_left _ _⟩

/-- `_execution_contract`.  Its instruction and its own declaration are those of the
program, and left out. -/
structure Contract where
  runId : String
  releaseId : String
  contextPolicy : Policy
  externalDeclarations : Json

/-- `self == other`, for contracts of one program. -/
def Contract.Same (a b : Contract) : Prop :=
  a.runId = b.runId ∧ a.releaseId = b.releaseId ∧ a.contextPolicy = b.contextPolicy ∧
    PyEq a.externalDeclarations b.externalDeclarations

instance (a b : Contract) : Decidable (a.Same b) := inferInstanceAs (Decidable (_ ∧ _))

/-! ## What has been spent -/

structure Usage where
  modelCalls : ℕ
  toolCalls : ℕ
  totalTokens : ℕ
  unknown : Bool

/-! ## Function calls -/

/-- A function call of the model that has passed the checks: a dictionary with a name and
arguments, and with a text of some length for an identifier if it has one. -/
structure Call where
  members : Dict
  name : String
  args : Dict
  has_name : members.lookup "name" = some (.str name)
  has_args : members.lookup "args" = some (.obj args)
  has_id : ∀ v, members.lookup "id" = some v → v.isText = true

/-- The identifier of a call, if it has one. -/
def Call.id? (call : Call) : Option Json := call.members.lookup "id"

/-- How far a call has got: `"phase"`, with `"result"` where it is completed. -/
inductive Progress where
  | queued
  | dispatched
  | completed (result : Dict)

def Progress.isCompleted : Progress → Bool
  | .completed _ => true
  | _ => false

/-- An entry of the tool queue. -/
structure Pending where
  call : Call
  progress : Progress
  /-- The lookup of an operation that may have been sent. -/
  recovery : Option Progress
  /-- Whether the result is that of the lookup. -/
  recovered : Bool

def Pending.queued (call : Call) : Pending := ⟨call, .queued, none, false⟩

/-- `pending["result"]`. -/
def Pending.result (pending : Pending) : Except PyError Dict :=
  match pending.progress with
  | .completed result => .ok result
  | _ => .error .keyError

structure ToolRecord where
  name : String
  args : Dict
  result : Dict

structure ToolAttempt where
  name : String
  args : Dict
  completed : Bool

/-! ## Requests to the model -/

/-- What the thought tokens of a response are taken from. -/
structure ThoughtSource where
  responseIndex : ℕ
  tokens : ℕ
  source : String

/-- What a preflight knows of earlier usage. -/
structure PriorUsage where
  preservedThoughtTokens : ℕ
  priorResponseCount : ℕ
  retainedResponseIndices : List ℕ
  priorThoughtUsage : List ThoughtSource

inductive PreflightPhase where
  | pending
  | failed (stage errorType : String) (providerStatusCode : Option ℤ)
  | counted (inputTokens reservedInputTokens reservedOutputTokens : ℕ)

/-- An entry of `token_preflights`. -/
structure Preflight where
  requestIndex : ℕ
  model : Option String
  phase : PreflightPhase
  remainingTotalTokens : ℕ
  prior : Option PriorUsage

def Preflight.isPending (preflight : Preflight) : Bool :=
  match preflight.phase with
  | .pending => true
  | _ => false

/-- What the client is given to count, and to generate from. -/
structure Inputs where
  contents : List Dict
  systemInstruction : String
  declarations : List Json

/-- An entry of `model_requests`. -/
structure Request where
  inputs : Inputs
  maxOutputTokens : ℕ
  inputTokenCount : ℕ
  preservedThoughtTokens : ℕ
  tokenPreflightIndex : ℕ
  /-- `phase` is `received` rather than `pending`. -/
  received : Bool

def Request.reservedInputTokens (request : Request) : ℕ :=
  request.inputTokenCount + request.preservedThoughtTokens

def Request.reservedTokens (request : Request) : ℕ :=
  request.reservedInputTokens + request.maxOutputTokens

/-! ## The state -/

inductive Status where
  | running
  | completed
  | blocked
  | budgetExhausted
  | indeterminate
  | interrupted
  | error
  deriving DecidableEq

/-- `IncidentState`. -/
structure IncidentState where
  hypotheses : List String
  evidenceIds : List String
  unresolvedOperations : List String
  nextStep : String

def IncidentState.toDict (incident : IncidentState) : Dict :=
  [("hypotheses", .arr (incident.hypotheses.map .str)),
    ("evidence_ids", .arr (incident.evidenceIds.map .str)),
    ("unresolved_operations", .arr (incident.unresolvedOperations.map .str)),
    ("next_step", .str incident.nextStep)]

structure AgentState where
  variant : Variant
  model : Option String
  limits : Limits
  contract : Contract
  status : Status
  reason : Option String
  errorType : Option String
  providerStatusCode : Option ℤ
  resumeCount : ℕ
  usage : Usage
  contents : List Dict
  modelRequests : List Request
  modelResponses : List Json
  tokenPreflights : List Preflight
  toolRecords : List ToolRecord
  toolAttempts : List ToolAttempt
  recoveryEvents : List (Call × Dict)
  /-- The index of the request that is pending. -/
  pendingModel : Option ℕ
  /-- The calls of the turn that is being worked on. -/
  pendingTurn : Option (List Pending)
  terminal : Option Json
  incident : IncidentState

def firstContent : Dict :=
  [("role", .str "user"), ("parts", .arr [.obj [("text", .str
    "Investigate the current incident. Gather evidence, act only within authority, verify, and finish honestly.")]])]

/-- `_new_state`. -/
def newState (variant : Variant) (model : Option String) (limits : Limits) (contract : Contract) :
    AgentState where
  variant := variant
  model := model
  limits := limits
  contract := contract
  status := .running
  reason := none
  errorType := none
  providerStatusCode := none
  resumeCount := 0
  usage := ⟨0, 0, 0, false⟩
  contents := [firstContent]
  modelRequests := []
  modelResponses := []
  tokenPreflights := []
  toolRecords := []
  toolAttempts := []
  recoveryEvents := []
  pendingModel := none
  pendingTurn := none
  terminal := none
  incident := ⟨[], [], [], "Gather initial observations."⟩

/-- A state that is opened but not worked on: `run_agent` returns it as it is. -/
def AgentState.closed (s : AgentState) : Bool :=
  match s.status with
  | .completed | .blocked | .budgetExhausted | .indeterminate => true
  | .error => s.pendingTurn.isNone
  | .running | .interrupted => false

end AutonomyLab.Agent
