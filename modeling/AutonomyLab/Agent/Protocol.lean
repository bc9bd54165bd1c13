import AutonomyLab.Agent.Program

/-!
# What an agent does, act by act

An agent goes through a few points, and from each of them only a few changes of its state
and a few acts are possible.  `Run` lists them, with the condition under which the agent
takes each.  An agent that is killed leaves its checkpoint and nothing else.

* `Core` — states that agree on everything but notes and incidental data.
* `Point`, `Phase` — where an agent is in its work.
* `Admitted` — what has been checked of a request when it is put down.
* `Run` — the histories that agents on one checkpoint file can have.
-/

namespace AutonomyLab.Agent

open Json Process

/-- What the agents on a file did, and what the file holds. -/
abbrev Seen := View Checkpoint Act Job

/-- One act of an agent. -/
abbrev Done := Event Checkpoint Act Job

/-- The same state but for the texts of errors, terminal decisions, preflights, incident
states and records of tool calls. -/
structure Core (s s' : AgentState) : Prop where
  variant : s'.variant = s.variant
  model : s'.model = s.model
  contract : s'.contract = s.contract
  limits : s'.limits = s.limits
  status : s'.status = s.status
  usage : s'.usage = s.usage
  contents : s'.contents = s.contents
  modelRequests : s'.modelRequests = s.modelRequests
  modelResponses : s'.modelResponses = s.modelResponses
  pendingModel : s'.pendingModel = s.pendingModel
  pendingTurn : s'.pendingTurn = s.pendingTurn

theorem Core.refl (s : AgentState) : Core s s := ⟨rfl, rfl, rfl, rfl, rfl, rfl, rfl, rfl, rfl, rfl, rfl⟩

/-- Where an agent is in its work. -/
inductive Point where
  /-- A state has been made or taken from the file, and is looked at. -/
  | opened
  /-- Every message is where it belongs, and so is every progress of a call. -/
  | ready
  /-- A call is marked as dispatched. -/
  | sending (k : Key) (name : String) (args : Dict)
  /-- The call is at the toolbox. -/
  | called (k : Key) (name : String) (args : Dict)
  /-- The result of a call is here. -/
  | told (k : Key) (name : String) (args result : Dict)
  /-- In the state `s` a request has been put down. -/
  | asking (s : AgentState) (request : Request)
  /-- The request is at the provider, with its index. -/
  | asked (index : ℕ) (request : Request)
  /-- A response is here. -/
  | heard (response : Json)
  /-- The response is among the recorded ones, and its usage is not known. -/
  | recorded (response : Json)
  /-- The response is among the recorded ones, and its usage is charged. -/
  | charged (response : Json)
  /-- The content of the response is among the messages, and its calls are not queued. -/
  | spoken (response : Json)
  /-- The run has stopped or failed. -/
  | ending

inductive Phase where
  /-- There is no agent. -/
  | idle
  /-- An agent has looked for the checkpoint. -/
  | loading
  | live (p : Point) (s : AgentState)

/-- The points at which the state in memory is fit to be saved. -/
def Point.savable : Point → Prop
  | .opened | .ready | .sending _ _ _ | .asking _ _ | .ending => True
  | _ => False

/-- A status with which a run is over. -/
def Status.final : Status → Prop
  | .completed | .blocked | .budgetExhausted | .indeterminate => True
  | _ => False

/-- Whether a run may stop with a status. -/
def Point.mayStop (s : AgentState) (status : Status) : Point → Prop
  | .opened => status.final ∧ (s.pendingModel ≠ none → status = .completed ∨ status = .indeterminate)
  | .ready => status ≠ .running
  | .asked _ _ => status = .indeterminate
  | .recorded _ | .charged _ | .spoken _ => status.final
  | _ => False

/-- What may be logged while nothing changes. -/
def Passive (p : Point) (s : AgentState) : Act → Prop
  | .save s' => s' = s ∧ p.savable
  | .context s' => s' = s ∧ p = .ready ∧ s.pendingTurn = none
  | .returned status => p = .ending ∧ status = s.status ∨ p = .opened ∧ status = .blocked
  | .failure _ => p = .opened
  | .count _ | .counted _ _ => p = .ready
  | _ => False

/-- The phases of a process that does not work on a checkpoint. -/
def Phase.resting : Phase → Prop
  | .idle | .loading => True
  | .live _ _ => False

/-- What a process may log that does not work on the checkpoint it has found. -/
def Refusal (found : Checkpoint) : Act → Prop
  | .failure _ => True
  | .returned status => status = .blocked ∨ ∃ s, found = some s ∧ s.closed = true ∧ status = s.status
  | _ => False

variable (reprFloat : ℚ → String)

/-- What has been checked of a request when it is put down. -/
structure Admitted (s : AgentState) (request : Request) : Prop where
  turn : s.usage.modelCalls < s.limits.maxTurns
  idle : s.pendingTurn = none
  context : ∃ retained sources,
    requestContext reprFloat s s.contract.contextPolicy = .ok (request.inputs.contents, retained) ∧
    preservedThoughtTokens s (some retained) = .ok (request.preservedThoughtTokens, sources)
  output : request.maxOutputTokens = min s.limits.maxOutputTokens (s.limits.maxTotalTokens -
    s.usage.totalTokens - (request.inputTokenCount + request.preservedThoughtTokens))
  positive : 1 ≤ request.maxOutputTokens
  pending : request.received = false

/-- The input of a request has been counted, and since then the checkpoint was at most
written. -/
def Counted (history : List Done) (request : Request) : Prop :=
  ∃ saves e before value, history = saves ++ e :: before ∧ (∀ d ∈ saves, ∃ s, d.label = .save s) ∧
    e.label = .counted request.inputs value ∧ count? value = some request.inputTokenCount

/-- An entry of the queue of the turn: what is before it, and what comes after it. -/
def Entry (s : AgentState) (prior : List Pending) (pending : Pending) (rest : List Pending) : Prop :=
  s.pendingTurn = some (prior ++ pending :: rest)

/-- The state with another entry in the same place. -/
def AgentState.put (s : AgentState) (prior : List Pending) (pending : Pending) (rest : List Pending) :
    AgentState := s.withQueue (prior ++ pending :: rest)

/-- The histories of agents on one file, and the phase the last of them is in. -/
inductive Run : Phase → Seen → Prop
  | init : Run .idle ⟨none, []⟩
  | die {φ v} : Run φ v → Run .idle v
  | load {v} (t : ℕ) (job : Job) : Run .idle v → Run .loading (v.log t job .load v.world)
  | refuse {φ v} {l : Act} (t : ℕ) (job : Job) : Run φ v → φ.resting → Refusal v.world l →
      Run φ (v.log t job l v.world)
  | create {v} (job : Job) (contract : Contract) : Run .loading v → v.world = none →
      Run (.live .opened (newState job.variant job.model job.limits contract)) v
  | resume {v s} (job : Job) : Run .loading v → v.world = some s → s.closed = false →
      Run (.live .opened (s.resumed job.limits)) v
  -- what may happen at many points
  | note {v p s} {l : Act} (t : ℕ) (job : Job) : Run (.live p s) v → Passive p s l →
      Run (.live p s) (v.log t job l v.world)
  | touch {v p s s'} : Run (.live p s) v → Core s s' → Run (.live p s') v
  | save {v p s} (t : ℕ) (job : Job) : Run (.live p s) v → p.savable →
      Run (.live p s) (v.log t job (.save s) (some s))
  | unknown {v p s} : Run (.live p s) v → Run (.live p s.unknownUsage) v
  | stop {v p s} (status : Status) (reason : String) : Run (.live p s) v → p.mayStop s status →
      Run (.live .ending (s.stopped status reason)) v
  | fail {v p s} (e : AgentError) : Run (.live p s) v → Run (.live .ending (s.failed e)) v
  | begin {v s} : Run (.live .opened s) v → s.pendingModel = none → Run (.live .ready s.restarted) v
  -- the calls of a turn
  | dispatch {v s prior pending rest} : Run (.live .ready s) v → Entry s prior pending rest →
      pending.progress.isCompleted = false →
      (pending.call.name = "propose_repair" → pending.progress = .queued) →
      s.usage.toolCalls < s.limits.maxToolCalls →
      Run (.live (.sending ⟨s.modelResponses.length, prior.length, false⟩ pending.call.name
        pending.call.args) ((s.put prior { pending with progress := .dispatched } rest).attempted
          pending.call.name pending.call.args)) v
  | send {v s k name args} (t : ℕ) (job : Job) : Run (.live (.sending k name args) s) v → v.world = some s →
      Run (.live (.called k name args) s) (v.log t job (.call k name args) v.world)
  | answer {v s k name args} (t : ℕ) (job : Job) (result : Dict) : Run (.live (.called k name args) s) v →
      Run (.live (.told k name args result) s) (v.log t job (.answered k name args result) v.world)
  | internal {v s k args} (result : Dict) : Run (.live (.sending k "record_incident" args) s) v →
      k.lookup = false → Run (.live (.told k "record_incident" args result) s) v
  | complete {v s k name args result prior pending rest} :
      Run (.live (.told k name args result) s) v → Entry s prior pending rest →
      k = ⟨s.modelResponses.length, prior.length, false⟩ →
      Run (.live .ready (s.put prior { pending with progress := .completed result } rest)) v
  -- the lookup of an operation that may have been sent
  | look {v s prior pending rest recovery} : Run (.live .ready s) v → Entry s prior pending rest →
      pending.progress = .dispatched → recovery.isCompleted = false →
      Run (.live .ready (s.put prior { pending with recovery := some recovery } rest)) v
  | search {v s prior pending rest operationId} : Run (.live .ready s) v →
      Entry s prior pending rest → pending.progress = .dispatched →
      pending.call.args.lookup "operation_id" = some operationId →
      s.usage.toolCalls < s.limits.maxToolCalls →
      Run (.live (.sending ⟨s.modelResponses.length, prior.length, true⟩ "get_operation"
        [("operation_id", operationId)])
        ((s.put prior { pending with recovery := some .dispatched } rest).attempted "get_operation"
          [("operation_id", operationId)])) v
  | find {v s k name args result prior pending rest} :
      Run (.live (.told k name args result) s) v → Entry s prior pending rest →
      k = ⟨s.modelResponses.length, prior.length, true⟩ →
      Run (.live .ready (s.put prior { pending with recovery := some (.completed result) } rest)) v
  | requeue {v s prior pending rest operationId result payload} : Run (.live .ready s) v →
      Entry s prior pending rest → pending.recovery = some (.completed result) →
      pending.call.args.lookup "operation_id" = some operationId →
      lookupPayload operationId result = some payload → notFound payload = true →
      Run (.live .ready (s.put prior { pending with progress := .queued, recovery := none } rest)) v
  | adopt {v s prior pending rest result} : Run (.live .ready s) v → Entry s prior pending rest →
      pending.recovery = some (.completed result) →
      Run (.live .ready (s.put prior
        { pending with progress := .completed result, recovered := true } rest)) v
  | close {v s queue parts} : Run (.live .ready s) v → s.pendingTurn = some queue →
      queue.mapM functionResponse = .ok parts → Run (.live .ready (s.withResults parts)) v
  -- a request and its response
  | request {v s request} : Run (.live .ready s) v → Admitted reprFloat s request →
      Counted v.hist request → Run (.live (.asking s request) (s.requested request)) v
  | ask {v s request} (t : ℕ) (job : Job) :
      Run (.live (.asking s request) (s.requested request)) v →
      v.world = some (s.requested request) →
      Run (.live (.asked s.modelRequests.length request) (s.requested request))
        (v.log t job (.generate s.modelRequests.length request) v.world)
  | receive {v s index request} (t : ℕ) (job : Job) (response : Json) :
      Run (.live (.asked index request) s) v →
      Run (.live (.heard response) s) (v.log t job (.received index response) v.world)
  | record {v s response} : Run (.live (.heard response) s) v → totalTokenCount response = none →
      Run (.live (.recorded response) (s.responded response)) v
  | charge {v s response total} : Run (.live (.heard response) s) v →
      totalTokenCount response = some total →
      Run (.live (.charged response) ((s.responded response).charged total)) v
  | speak {v s response candidate content parts} : Run (.live (.charged response) s) v →
      candidate? response = some candidate → content? candidate = some (content, parts) →
      Run (.live (.spoken response) (s.withContent content)) v
  | queue {v s response candidate content parts tools calls} :
      Run (.live (.spoken response) s) v → candidate? response = some candidate →
      content? candidate = some (content, parts) → checkCalls tools parts = .ok calls →
      calls ≠ [] → Run (.live .ready (s.withQueue (calls.map .queued))) v

end AutonomyLab.Agent
