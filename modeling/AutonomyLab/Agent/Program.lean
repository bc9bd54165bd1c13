import AutonomyLab.Process.Sequential
import AutonomyLab.Agent.Context
import AutonomyLab.Agent.Schema
import AutonomyLab.Agent.Usage

/-!
# The agent

`run_agent`: a loop in which the model is asked and its tool calls are carried out, with
a checkpoint file from which another process goes on.

* `Job` — what `run_agent` is called with.
* `Act` — what an agent is seen to do.
* `callTool`, `recoverProposal`, `processTools` — the tool calls of a turn.
* `preflight`, `generate`, `recordResponse`, `queueCalls` — a request to the model.
* `run`, `runAgent` — the loop, and how a process starts and ends.
* `system` — agents on one checkpoint file, one after another, each of which may be
  killed anywhere.

The client and the toolbox may answer anything or raise, and so may every write of the
checkpoint, before the file is replaced or after.
-/

namespace AutonomyLab.Agent

open Json Process

/-! ## What the agent is given -/

/-- `interrupt_after_tool`. -/
inductive Interrupt where
  | tool (name : String)
  | count (n : ℕ)

/-- The arguments of `run_agent`, and what it takes from its client and its toolbox. -/
structure Job where
  releaseId : String
  variant : Variant
  maxTurns : ℕ
  maxTotalTokens : ℕ
  maxOutputTokens : ℕ
  interruptAfterTool : Option Interrupt
  contextPolicy : Policy
  model : Option String
  runId : String
  declarations : Json
  positive : 0 < maxTurns ∧ 0 < maxTotalTokens ∧ 0 < maxOutputTokens

def Job.limits (job : Job) : Limits :=
  ⟨job.maxTurns, job.maxTotalTokens, job.maxOutputTokens, job.maxTurns * maxCallsPerTurn⟩

/-- `_execution_contract`. -/
def Job.executionContract (job : Job) : Except PyError Contract := do
  if job.runId.toList.all Broker.isStripped ∨ 253 < job.runId.length then
    throw (.valueError "A bounded run identity is required")
  if job.releaseId.length ≠ 64 ∨ ¬ job.releaseId.toList.all fun c => "0123456789abcdef".toList.contains c then
    throw (.valueError "A SHA-256 release identity is required")
  return ⟨job.runId, job.releaseId, job.contextPolicy, job.declarations⟩

/-- An exception: `KeyboardInterrupt`, or one of the class `Exception`. -/
structure AgentError where
  interrupt : Bool
  name : String
  statusCode : Option ℤ

def PyError.toAgentError (e : PyError) : AgentError := ⟨false, e.name, none⟩

/-- `_error_details`. -/
def AgentError.details (e : AgentError) : String × Option ℤ :=
  (e.name, e.statusCode.filter fun code => 100 ≤ code ∧ code ≤ 599)

/-- An object from outside: a JSON value, or one that `json.dumps` refuses. -/
inductive Object where
  | json (value : Json)
  | other (isDict : Bool)

/-- `isinstance(value, dict)`. -/
def Object.isDict : Object → Bool
  | .json value => value.isDict
  | .other isDict => isDict

/-- `_copy`. -/
def Object.copy : Object → Except PyError Json
  | .json value => .ok value
  | .other _ => .error (.valueError "Out of range float values are not JSON compliant")

/-- How a call of the client may end. -/
inductive Outcome where
  | returned (response : Object)
  /-- An exception, with the attribute `response` if it has one. -/
  | raised (e : AgentError) (response : Option Object)

/-- The response that has come, if there is one the agent can record. -/
def Outcome.response? : Outcome → Option Json
  | .returned (.json response) => some response
  | .raised e (some (.json response)) => if !e.interrupt && response.isDict then some response else none
  | _ => none

/-! ## What the agent does -/

/-- A place in a tool queue: the number of responses at the time, the index of the call,
and whether it is the lookup of an operation that may have been sent. -/
structure Key where
  turn : ℕ
  index : ℕ
  lookup : Bool
  deriving DecidableEq

inductive Act where
  /-- The checkpoint is looked for, and read if there is one. -/
  | load
  /-- A write of the checkpoint, which may fail. -/
  | save (s : AgentState)
  /-- `_checkpoint_failure`. -/
  | failure (reason : String)
  /-- The loop is about to put a request together. -/
  | context (s : AgentState)
  /-- `client.count_tokens` is called. -/
  | count (inputs : Inputs)
  /-- `client.count_tokens` has returned. -/
  | counted (inputs : Inputs) (value : Json)
  /-- `client.generate` is called. -/
  | generate (index : ℕ) (request : Request)
  /-- A response is here. -/
  | received (index : ℕ) (response : Json)
  /-- `toolbox.call` is called. -/
  | call (k : Key) (name : String) (args : Dict)
  /-- `toolbox.call` has returned. -/
  | answered (k : Key) (name : String) (args result : Dict)
  /-- `run_agent` has returned. -/
  | returned (status : Status)

/-- The checkpoint file; there may be none. -/
abbrev Checkpoint := Option AgentState

/-- The memory of an agent. -/
structure Runner where
  state : AgentState
  interruptRequested : Bool

/-- Programs of an agent. -/
abbrev Program (α : Type) : Type 1 := Prog Runner Checkpoint Act AgentError α

def ofPy {α : Type} (r : Except PyError α) : Program α := .ofExcept (r.mapError PyError.toAgentError)

/-- The state in memory. -/
def state : Program AgentState := do return (← get).state

def update (f : AgentState → AgentState) : Program Unit :=
  modify fun runner => { runner with state := f runner.state }

/-- What is asked of the outside, which may raise. -/
def outside (β : Type) : Program β := do
  Prog.ofExcept (← Prog.ask (Except AgentError β))

/-! ## Changes of the state -/

namespace AgentState

variable (s : AgentState)

def stopped (status : Status) (reason : String) : AgentState :=
  { s with status := status, reason := some reason }

/-- `state.update(_error_details(error))`. -/
def withDetails (e : AgentError) : AgentState :=
  { s with
    errorType := some e.details.1
    providerStatusCode := e.details.2.or s.providerStatusCode }

def failed (e : AgentError) : AgentState :=
  (s.stopped .error "agent_execution_failed").withDetails e

/-- A saved state as it is prepared for another process. -/
def resumed (limits : Limits) : AgentState :=
  { s with limits := s.limits.least limits, resumeCount := s.resumeCount + 1 }

def restarted : AgentState :=
  { s with status := .running, reason := none, errorType := none, providerStatusCode := none }

def unknownUsage : AgentState := { s with usage := { s.usage with unknown := true } }

def withTerminal (terminal : Json) : AgentState := { s with terminal := some terminal }

def withQueue (queue : List Pending) : AgentState := { s with pendingTurn := some queue }

/-- A tool call is counted and noted as an attempt. -/
def attempted (name : String) (args : Dict) : AgentState :=
  { s with
    usage := { s.usage with toolCalls := s.usage.toolCalls + 1 }
    toolAttempts := s.toolAttempts ++ [⟨name, args, false⟩] }

/-- The last attempt has a result. -/
def recorded (name : String) (args result : Dict) : AgentState :=
  { s with
    toolAttempts := s.toolAttempts.modifyLast fun attempt => { attempt with completed := true }
    toolRecords := s.toolRecords ++ [⟨name, args, result⟩] }

def withIncident (incident : IncidentState) : AgentState := { s with incident := incident }

/-- The lookup of `call` has taken the place of its result. -/
def recoveredEvent (call : Call) (result : Dict) : AgentState :=
  { s with recoveryEvents := s.recoveryEvents ++ [(call, result)] }

/-- The results of a turn go to the model. -/
def withResults (parts : List Json) : AgentState :=
  { s with
    contents := s.contents ++ [[("role", .str "user"), ("parts", .arr parts)]]
    pendingTurn := none }

def withPreflight (preflight : Preflight) : AgentState :=
  { s with tokenPreflights := s.tokenPreflights ++ [preflight] }

def updatePreflight (f : Preflight → Preflight) : AgentState :=
  { s with tokenPreflights := s.tokenPreflights.modifyLast f }

/-- A request is put down before it is sent. -/
def requested (request : Request) : AgentState :=
  { s with
    modelRequests := s.modelRequests ++ [request]
    pendingModel := some s.modelRequests.length
    usage := { s.usage with modelCalls := s.usage.modelCalls + 1 } }

/-- The pending request has a response. -/
def responded (response : Json) : AgentState :=
  { s with
    modelResponses := s.modelResponses ++ [response]
    modelRequests := match s.pendingModel with
      | some index => s.modelRequests.modify index fun request => { request with received := true }
      | none => s.modelRequests
    pendingModel := none }

def charged (total : ℕ) : AgentState :=
  { s with usage := { s.usage with totalTokens := s.usage.totalTokens + total } }

def withContent (content : Dict) : AgentState := { s with contents := s.contents ++ [content] }

end AgentState

/-! ## The checkpoint -/

/-- How a write of the checkpoint may end. -/
inductive Written where
  | done
  /-- An exception before the file is replaced. -/
  | before (e : AgentError)
  /-- An exception after the file is replaced. -/
  | after (e : AgentError)

/-- `save`. -/
def save : Program Unit := do
  let s ← state
  match ← Prog.ask Written with
  | .done => Prog.perform (.save s) fun _ _ => some ((), some s)
  | .before e => do
      Prog.emit (.save s)
      throw e
  | .after e => do
      Prog.perform (.save s) fun _ _ => some ((), some s)
      throw e

/-- `stop`. -/
def stop (status : Status) (reason : String) : Program Unit := do
  update (·.stopped status reason)
  save

/-- `_checkpoint_failure`, and the end of the process. -/
def checkpointFailure (reason : String) : Program Unit := do
  Prog.emit (.failure reason)
  Prog.emit (.returned .blocked)

/-! ## Tools -/

/-- `self.toolbox.terminal`. -/
def toolboxTerminal : Program (Option Json) := outside (Option Json)

/-- `if self.toolbox.terminal is not None`, what it is becomes the terminal decision. -/
def takeTerminal : Program Unit := do
  match ← toolboxTerminal with
  | some terminal => update (·.withTerminal terminal)
  | none => pure ()

def incidentRejected : Dict :=
  [("kind", .str "incident_rejected"), ("reason", .str "invalid_incident_state")]

/-- The result of `record_incident`. -/
def recordIncident (args : Dict) : Program Dict := do
  match ← ofPy (checkIncident (← state).toolRecords args) with
  | none => return incidentRejected
  | some incident => do
      update (·.withIncident incident)
      return [("kind", .str "incident_recorded"), ("incident", .obj incident.toDict)]

/-- The result of a tool of the toolbox. -/
def callToolbox (k : Key) (name : String) (args : Dict) : Program Dict := do
  Prog.emit (.call k name args)
  let result ← outside Object
  if !result.isDict then ofPy (.error (.valueError "tool result must be an observation object"))
  match ← ofPy result.copy with
  | .obj result => do
      Prog.emit (.answered k name args result)
      return result
  | _ => ofPy (.error (.valueError "tool result must be an observation object"))

/-- The result of a call that is marked as dispatched. -/
def toolResult (k : Key) (name : String) (args : Dict) : Program Dict :=
  if name = "record_incident" then recordIncident args else callToolbox k name args

section
variable (job : Job)

/-- Whether the run is to be interrupted after a tool. -/
def Job.interruptsAfter (name : String) (toolCalls : ℕ) : Bool :=
  match job.interruptAfterTool with
  | none => false
  | some (.tool tool) => tool = name
  | some (.count n) => n ≤ toolCalls

/-- `call_tool`; `put` is how the queue changes with the progress of the call. -/
def callTool (k : Key) (name : String) (args : Dict) (put : Progress → AgentState → AgentState) :
    Program (Option Dict) := do
  let s ← state
  if s.usage.toolCalls ≥ s.limits.maxToolCalls then do
    stop .budgetExhausted "tool_call_budget_exhausted"
    return none
  else do
    update fun s => (put .dispatched s).attempted name args
    save
    let result ← toolResult k name args
    update fun s => (put (.completed result) s).recorded name args result
    takeTerminal
    save
    -- the boundary hook
    outside Unit
    modify fun runner => { runner with interruptRequested :=
      runner.interruptRequested || job.interruptsAfter name runner.state.usage.toolCalls }
    return some result

/-- `payload.get("operation_id") != operation_id`, for what a lookup has returned. -/
def lookupPayload (operationId : Json) (result : Dict) : Option Dict :=
  match result.lookup "payload" with
  | some (.obj payload) =>
      if PyEq ((payload.lookup "operation_id").getD .null) operationId then some payload else none
  | _ => none

/-- The broker does not know the operation. -/
def notFound (payload : Dict) : Bool :=
  payload.lookup "error" = some (.str "operation_not_found") ||
    payload.lookup "status" = some (.str "not_found")

/-- The request of the operation that was found, where its status is known. -/
def foundRequest (payload : Dict) : Option Dict :=
  match payload.lookup "status", payload.lookup "request" with
  | some (.str _), some (.obj request) => some request
  | _, _ => none

/-- What a lookup says of the call whose operation it looked for. -/
def settle (put : Pending → AgentState → AgentState) (pending : Pending) (operationId : Json)
    (result : Dict) : Program (Option Pending) := do
  match lookupPayload operationId result with
  | none => do
      stop .blocked "operation_lookup_inconclusive"
      return none
  | some payload =>
      if notFound payload then do
        -- the same arguments and identifier hold if the earlier send never arrived
        let pending := { pending with progress := .queued, recovery := none }
        update (put pending)
        save
        return some pending
      else match foundRequest payload with
        | none => do
            stop .blocked "operation_lookup_inconclusive"
            return none
        | some request =>
            if pending.call.args.any fun p => !PyEq ((request.lookup p.1).getD .null) p.2 then do
              stop .blocked "operation_id_content_conflict"
              return none
            else do
              let pending := { pending with progress := .completed result, recovered := true }
              update fun s => (put pending s).recoveredEvent pending.call result
              save
              return some pending

/-- `recover_proposal`. -/
def recoverProposal (k : Key) (put : Pending → AgentState → AgentState) (pending : Pending) :
    Program (Option Pending) := do
  let operationId ← ofPy (subscript "operation_id" (.obj pending.call.args))
  match pending.recovery with
  | some (.completed result) => settle put pending operationId result
  | recovery => do
      let pending := { pending with recovery := some (recovery.getD .queued) }
      update (put pending)
      let s ← state
      if s.usage.toolCalls ≥ s.limits.maxToolCalls then do
        stop .indeterminate "unreconciled_mutation_tool_budget_exhausted"
        return none
      else
        match ← callTool job { k with lookup := true } "get_operation" [("operation_id", operationId)]
            (fun progress => put { pending with recovery := some progress }) with
        | none => return none
        | some result =>
            settle put { pending with recovery := some (.completed result) } operationId result

/-- Stop if an interrupt has been requested. -/
def unlessInterrupted (pending : Pending) : Program (Option Pending) := do
  if (← get).interruptRequested then do
    stop .interrupted "requested_after_tool"
    return none
  else return some pending

/-- The call of an entry whose fate is known. -/
def dispatch (k : Key) (put : Pending → AgentState → AgentState) (pending : Pending) :
    Program (Option Pending) := do
  if pending.progress.isCompleted then unlessInterrupted pending
  else
    match ← callTool job k pending.call.name pending.call.args
        (fun progress => put { pending with progress := progress }) with
    | none => return none
    | some result => unlessInterrupted { pending with progress := .completed result }

/-- An entry of the queue that is not completed. -/
def processCall (k : Key) (put : Pending → AgentState → AgentState) (pending : Pending) :
    Program (Option Pending) := do
  match pending.progress with
  | .dispatched =>
      if pending.call.name = "propose_repair" then
        match ← recoverProposal job k put pending with
        | none => return none
        | some pending =>
            match ← unlessInterrupted pending with
            | none => return none
            | some pending => dispatch job k put pending
      else dispatch job k put pending
  | _ => dispatch job k put pending

/-- The result of a `record_incident` that was rejected. -/
def Pending.rejectedIncident (pending : Pending) : Bool :=
  match pending.progress with
  | .completed result => pending.call.name = "record_incident" &&
      result.lookup "kind" = some (.str "incident_rejected")
  | _ => false

/-- The loop over the queue, of which `prior` is done. -/
def processCalls (turn : ℕ) (prior : List Pending) : List Pending → Program (Option (List Pending))
  | [] => return some prior
  | pending :: rest =>
      if pending.progress.isCompleted then processCalls turn (prior ++ [pending]) rest
      else if pending.call.name = "propose_repair" ∧ prior.any Pending.rejectedIncident then do
        stop .blocked "repair_after_rejected_incident"
        return none
      else do
        match ← processCall job ⟨turn, prior.length, false⟩
            (fun pending s => s.withQueue (prior ++ pending :: rest)) pending with
        | none => return none
        | some pending => processCalls turn (prior ++ [pending]) rest

/-- The part of a message that reports the result of a call. -/
def functionResponse (pending : Pending) : Except PyError Json := do
  let result ← pending.result
  let members : Dict := [("name", .str pending.call.name), ("response", .obj result)]
  return .obj [("functionResponse", .obj (match pending.call.id? with
    | some id => members ++ [("id", id)]
    | none => members))]

/-- `process_tools`. -/
def processTools (queue : List Pending) : Program Bool := do
  match ← processCalls job (← state).modelResponses.length [] queue with
  | none => return false
  | some queue => do
      let parts ← ofPy (queue.mapM functionResponse)
      update (·.withResults parts)
      save
      return true

end

/-! ## Requests to the model -/

/-- The preflight has failed; only an `Exception` is handled. -/
def failPreflight (stage : String) (e : AgentError) : Program Unit := do
  if e.interrupt then throw e
  else do
    update fun s => (s.updatePreflight fun preflight => { preflight with
      phase := .failed stage e.details.1 e.details.2 }).withDetails e
    stop .blocked "token_preflight_failed"

/-- What earlier responses reserve, noted in the preflight. -/
def reserve (retained : List ℕ) : Program ℕ := do
  let s ← state
  let (tokens, sources) ← ofPy (preservedThoughtTokens s (some retained))
  update (·.updatePreflight fun preflight => { preflight with
    prior := some ⟨tokens, s.modelResponses.length, retained, sources⟩ })
  save
  return tokens

/-- `client.count_tokens`. -/
def countTokens (inputs : Inputs) : Program ℕ := do
  Prog.emit (.count inputs)
  let value ← outside Json
  Prog.emit (.counted inputs value)
  match count? value with
  | some n => return n
  | none => ofPy (.error (.valueError "invalid provider input token count"))

section
variable (reprFloat : ℚ → String) (declarations : List Json)

/-- What is counted and reserved before a request, with `remaining` tokens left. -/
def preflight (remaining : ℕ) : Program (Option Request) := do
  let s ← state
  Prog.emit (.context s)
  let (context, retained) ← ofPy (requestContext reprFloat s s.contract.contextPolicy)
  let inputs : Inputs := ⟨context, instruction reprFloat s, declarations⟩
  update (·.withPreflight ⟨s.modelRequests.length, s.model, .pending, remaining, none⟩)
  save
  match ← (reserve retained).attempt with
  | .error e => do
      failPreflight "prior_usage" e
      return none
  | .ok preserved =>
      match ← (countTokens inputs).attempt with
      | .error e => do
          failPreflight "count_tokens" e
          return none
      | .ok inputTokens => do
          let output := min s.limits.maxOutputTokens (remaining - (inputTokens + preserved))
          update (·.updatePreflight fun preflight => { preflight with
            phase := .counted inputTokens (inputTokens + preserved) output })
          save
          if output < 1 then do
            stop .budgetExhausted "input_and_output_token_budget_exhausted"
            return none
          else return some ⟨inputs, output, inputTokens, preserved, s.tokenPreflights.length, false⟩

end

/-- `client.generate`. -/
def clientGenerate (index : ℕ) (request : Request) : Program Outcome := do
  Prog.emit (.generate index request)
  let outcome ← Prog.ask Outcome
  match outcome.response? with
  | some response => Prog.emit (.received index response)
  | none => pure ()
  return outcome

/-- `record_response`. -/
def recordResponse (response : Object) : Program Bool := do
  let response ← ofPy response.copy
  update (·.responded response)
  match totalTokenCount response with
  | none => do
      update (·.unknownUsage)
      stop .blocked "provider_usage_unknown"
      return false
  | some total => do
      update (·.charged total)
      let s ← state
      if s.usage.totalTokens > s.limits.maxTotalTokens then do
        stop .budgetExhausted "provider_response_exceeded_token_budget"
        return false
      else match preservedThoughtTokens s none with
        | .error _ => do
            stop .blocked "provider_thought_usage_unknown"
            return false
        | .ok _ => return true

/-- The request is put down, sent, and its response recorded. -/
def generate (request : Request) : Program (Option Json) := do
  let index := (← state).modelRequests.length
  update (·.requested request)
  save
  match ← clientGenerate index request with
  | .returned response =>
      if ← recordResponse response then some <$> ofPy response.copy else return none
  | .raised e response =>
      if e.interrupt then throw e
      else do
        update (·.withDetails e)
        match response.filter Object.isDict with
        | some response => do
            if ← recordResponse response then stop .blocked "provider_generation_failed"
            return none
        | none => do
            update (·.unknownUsage)
            stop .indeterminate "provider_request_failed_no_automatic_retry"
            return none

/-- The only candidate of a response. -/
def candidate? (response : Json) : Option Dict :=
  match response.field? "candidates" with
  | some (.arr [.obj candidate]) => some candidate
  | _ => none

/-- The content of a candidate that is complete, and its parts. -/
def content? (candidate : Dict) : Option (Dict × List Json) :=
  match candidate.lookup "finishReason", candidate.lookup "content" with
  | some (.str "STOP"), some (.obj content) =>
      match content.lookup "parts" with
      | some (.arr parts) => some (content, parts)
      | _ => none
  | _, _ => none

/-- The calls of a response become the tool queue. -/
def queueCalls (tools : Dict) (response : Json) : Program Bool := do
  match candidate? response with
  | none => do
      stop .blocked "malformed_model_response"
      return false
  | some candidate =>
      match content? candidate with
      | none => do
          stop .blocked "incomplete_model_response"
          return false
      | some (content, parts) => do
          update (·.withContent content)
          match checkCalls tools parts with
          | .error .attributeError => ofPy (.error .attributeError)
          | .error .indexError => ofPy (.error .indexError)
          | .error _ => do
              stop .blocked "malformed_tool_arguments_or_sequence"
              return false
          | .ok [] => do
              stop .blocked "model_returned_no_tool_call"
              return false
          | .ok calls => do
              update (·.withQueue (calls.map .queued))
              save
              return true

/-! ## The loop -/

section
variable (reprFloat : ℚ → String) (job : Job) (declarations : List Json) (tools : Dict)

/-- `state.get("terminal") or self.toolbox.terminal`. -/
def terminalDecision : Program (Option Json) := do
  match (← state).terminal with
  | some terminal => if terminal.truthy then return some terminal else toolboxTerminal
  | none => toolboxTerminal

/-- A request, and the queue of its calls. -/
def askModel (remaining : ℕ) : Program Bool := do
  match ← preflight reprFloat declarations remaining with
  | none => return false
  | some request =>
      match ← generate request with
      | none => return false
      | some response => queueCalls tools response

/-- The loop from the tool queue on, until the run ends or another queue is there. -/
def continueTurn : Program Bool := do
  match ← terminalDecision with
  | some terminal => do
      update (·.withTerminal terminal)
      stop .completed "toolbox_terminal_recorded"
      return false
  | none => do
      let s ← state
      if s.usage.modelCalls ≥ s.limits.maxTurns then do
        stop .budgetExhausted "model_call_budget_exhausted"
        return false
      else if s.limits.maxTotalTokens ≤ s.usage.totalTokens then do
        stop .budgetExhausted "token_budget_exhausted"
        return false
      else askModel reprFloat declarations tools (s.limits.maxTotalTokens - s.usage.totalTokens)

/-- The body of the loop; whether it goes on. -/
def turn : Program Bool := do
  match (← state).pendingTurn with
  | some queue =>
      if ← processTools job queue then continueTurn reprFloat declarations tools else return false
  | none => continueTurn reprFloat declarations tools

/-- `while True`, at most `n` times. -/
def loop : ℕ → Program Unit
  | 0 => pure ()
  | n + 1 => do if ← turn reprFloat job declarations tools then loop n

/-- A model turn was recorded and its calls were not. -/
def AgentState.unqueued (s : AgentState) : Bool :=
  s.pendingTurn.isNone && !s.modelResponses.isEmpty &&
    (s.contents.getLast?.any (hasRole "model") ||
      s.contents.countP (hasRole "model") ≠ s.modelResponses.length)

/-- `run`.  Every turn but the last is charged a model call, so the loop is over when it has
been gone through once more than there are calls. -/
def run : Program Unit := do
  takeTerminal
  let s ← state
  if s.terminal.isSome then stop .completed "toolbox_terminal_recorded"
  else if s.pendingModel.isSome then do
    update (·.unknownUsage)
    stop .indeterminate "pending_model_request_no_automatic_retry"
  else if s.tokenPreflights.getLast?.any Preflight.isPending then
    stop .blocked "pending_token_preflight_no_automatic_retry"
  else if s.closed then pure ()
  else if s.unqueued then stop .blocked "unqueued_model_turn"
  else if s.usage.totalTokens > s.limits.maxTotalTokens ∨ s.usage.modelCalls > s.limits.maxTurns then
    stop .budgetExhausted "resumed_budget_already_exceeded"
  else do
    update (·.restarted)
    save
    loop reprFloat job declarations tools (s.limits.maxTurns + 1)

end

/-! ## Processes -/

section
variable (reprFloat : ℚ → String) (job : Job)

/-- The work on a state that is in memory, within the `try` of `run_agent`. -/
def work (contract : Contract) : Program Unit := do
  let declarations ← ofPy (declarationsOf contract job.variant)
  let tools ← ofPy (schemas declarations)
  match job.interruptAfterTool with
  | some (.tool name) =>
      if (tools.lookup name).isNone then checkpointFailure "invalid_interrupt_tool"
      else do
        save
        run reprFloat job declarations tools
        Prog.emit (.returned (← state).status)
  | _ => do
      save
      run reprFloat job declarations tools
      Prog.emit (.returned (← state).status)

/-- The handler of `run_agent`. -/
def handle (e : AgentError) : Program Unit := do
  update (·.failed e)
  match ← save.attempt with
  | .ok () => Prog.emit (.returned .error)
  | .error e => if e.interrupt then throw e else Prog.emit (.returned .error)

/-- `_validate_resume_shape`, of what the types do not say. -/
def AgentState.resumable (s : AgentState) : Bool :=
  !s.contents.isEmpty && 0 < s.limits.maxTurns && 0 < s.limits.maxTotalTokens &&
    0 < s.limits.maxOutputTokens && 0 < s.limits.maxToolCalls

/-- A checkpoint that is there. -/
def resume (contract : Contract) (saved : AgentState) : Program Unit := do
  if ← Prog.ask Bool then checkpointFailure "unreadable_existing_checkpoint"
  else if !saved.resumable then checkpointFailure "invalid_existing_checkpoint"
  else if ¬ saved.contract.Same contract then checkpointFailure "checkpoint_execution_contract_changed"
  else if saved.variant ≠ job.variant ∨ saved.model ≠ job.model then
    checkpointFailure "checkpoint_configuration_changed"
  else if saved.closed then Prog.emit (.returned saved.status)
  else do
    update fun _ => saved.resumed job.limits
    tryCatch (work reprFloat job saved.contract) handle

/-- `run_agent`, once it has the lock. -/
def runAgent : Program Unit := do
  match job.executionContract with
  | .error _ => checkpointFailure "invalid_execution_contract"
  | .ok contract => do
      let found : Checkpoint ← Prog.perform .load fun _ w => some (w, w)
      match found with
      | some saved => resume reprFloat job contract saved
      | none => do
          update fun _ => newState job.variant job.model job.limits contract
          tryCatch (work reprFloat job contract) handle

end

/-- The memory of a process that has not looked for its checkpoint. -/
def Job.blank (job : Job) : Runner :=
  ⟨newState job.variant job.model job.limits ⟨job.runId, job.releaseId, job.contextPolicy,
    job.declarations⟩, false⟩

/-- The agents on one checkpoint file, one after another: each may be killed anywhere. -/
def system (reprFloat : ℚ → String) :
    Sequential.System Checkpoint Act Job (AgentError × Runner) (Unit × Runner) where
  init w := w = none
  starts job p := p = runAgent reprFloat job job.blank
  dies _ := True

end AutonomyLab.Agent
