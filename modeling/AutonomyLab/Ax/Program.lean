import Mathlib.Data.Nat.Notation
import AutonomyLab.Json.Encode
import AutonomyLab.Json.Ascii
import AutonomyLab.Process.Concurrent

/-!
# The durable mailbox

The agent in its AX task has no connection to the host.  It leaves each request as a file on a
durable volume and waits for a file with the answer; the host looks for requests, carries them
out and writes the answers.  Either side may be killed at any time.  An AX task that was
suspended and resumed starts a fresh agent process, which publishes a boot identity of its own,
and the host serves the requests of the last boot only.

* `Request`, `Response`, `Boot`, `Transition`, `Budget`, `World` — what the files hold.
* `call`, `main` — the agent's side: `MailboxChannel.call` and the process around it.
* `chargeRpc`, `poll`, `serve`, `connect`, `runAxAgent` — the host's side.
* `system` — agent processes come and go as they like; the host makes one call of
  `run_ax_agent` at a time.
-/

namespace AutonomyLab.Ax

open Json Process

/-- What the platform computes. -/
structure Platform where
  reprFloat : ℚ → String

def maxFrameBytes : ℕ := 8 * 1024 * 1024

/-- `len(json.dumps(value, allow_nan=False).encode())`. -/
@[irreducible] def frameBytes (P : Platform) (value : Json) : ℕ :=
  (encode (dumps P.reprFloat { item := ", ", key := ": " } value).toList).length

/-- `re.fullmatch(r'[a-f0-9]{32}', identity)`. -/
def hex32 (identity : String) : Bool :=
  identity.length = 32 && identity.toList.all fun c => ('a' ≤ c && c ≤ 'f') || ('0' ≤ c && c ≤ '9')

/-! ## Files -/

/-- A `.request` file. -/
structure Request where
  id : String
  bootId : String
  method : String
  arguments : Json
  deriving DecidableEq

def Request.toJson (r : Request) : Json :=
  .obj [("id", .str r.id), ("boot_id", .str r.bootId), ("method", .str r.method),
    ("arguments", r.arguments)]

/-- A `.response` file, with its `'result'` or its `'error'`. -/
structure Response where
  id : String
  outcome : Except Json Json

def Response.toJson (r : Response) : Json :=
  match r.outcome with
  | .ok value => .obj [("id", .str r.id), ("result", value)]
  | .error record => .obj [("id", .str r.id), ("error", record)]

/-- An item of `agent-boots.json`. -/
structure Boot where
  bootId : String
  uid : ℕ

/-- `item['state']` of a resume. -/
inductive Transition where
  | started | suspended | complete
  deriving DecidableEq

/-- `rpc-budget.json`. -/
structure Budget where
  count : ℕ
  limit : ℕ

/-- The files of both sides. -/
structure World where
  /-- `record['resumes']` of the host's `ax-session.json`. -/
  session : Option (List Transition)
  budget : Option Budget
  /-- Whether there is a `config.json`. -/
  config : Bool
  boots : List Boot
  /-- The requests, by the names of their files. -/
  requests : List (String × Request)
  responses : List (String × Response)
  result : Option Json
  agentError : Option Json
  /-- The identities that were drawn, and the thread that drew each of them. -/
  drawn : List (String × ℕ)
  /-- The call of `run_ax_agent` that is in progress. -/
  host : Option ℕ

def World.start : World := ⟨none, none, false, [], [], [], none, none, [], none⟩

/-- A file is replaced. -/
def put {α : Type} (name : String) (value : α) (files : List (String × α)) : List (String × α) :=
  (name, value) :: files.filter fun file => file.1 ≠ name

/-- What is seen of a process. -/
inductive Act where
  /-- A file is read, or waited for. -/
  | look
  | draw (identity : String)
  /-- The boot list is replaced by one of length `rank` that ends in this identity. -/
  | booted (bootId : String) (rank : ℕ)
  | published (request : Request)
  /-- A call of the channel has read its answer. -/
  | received (request : Request) (outcome : Except Json Json)
  /-- One of the files is replaced that only say where the agent is. -/
  | file
  /-- A call of `run_ax_agent` begins. -/
  | enter
  | leave
  | saved (resumes : List Transition)
  | charged
  /-- The host begins to carry out a request. -/
  | dispatched (request : Request)
  | returned (request : Request) (outcome : Except Json Json)
  | responded (request : Request) (outcome : Except Json Json)

/-- How a process may end other than by returning. -/
inductive Failure where
  | runtimeError (message : String)
  | timeoutError (message : String)
  | valueError (message : String)
  /-- `RemoteError(record)`. -/
  | remoteError (record : Json)
  /-- Another exception of the platform. -/
  | platform

/-- Who acts. -/
inductive Party where
  /-- `run_ax_agent`, with `options['max_turns']`. -/
  | host (maxTurns : ℕ)
  /-- An agent process. -/
  | guest

abbrev Program (α : Type) : Type 1 := Proc World Act Failure α

/-- Something of which only matters that it may raise. -/
def mayFail : Program Unit := do
  match ← Proc.ask (Option Failure) with
  | none => pure ()
  | some e => throw e

/-- `if refused: raise e`. -/
def refuse (refused : Prop) [Decidable refused] (e : Failure) : Program Unit :=
  if refused then throw e else pure ()

def look {α : Type} (f : World → α) : Program α := Proc.read .look f

/-- A file is replaced at once; before and after that an exception may be raised. -/
def write (l : Act) (f : World → World) : Program Unit := do
  mayFail
  Proc.perform l fun _ w => some ((), f w)
  mayFail

/-- `uuid.uuid4().hex`. -/
def uuid4 : Program String := do
  let identity ← Proc.ask String
  Proc.perform (.draw identity) fun t w =>
    if hex32 identity ∧ identity ∉ w.drawn.map Prod.fst then
      some (identity, { w with drawn := (identity, t) :: w.drawn })
    else none

/-! ## The agent -/

section
variable (P : Platform)

/-- The loop of `call`, for so many turns. -/
def awaitResponse (identity : String) : ℕ → Program Unit
  | 0 => throw (.timeoutError "Mailbox response deadline")
  | turns + 1 => do
      unless ← look fun w => (w.responses.lookup identity).isSome do
        awaitResponse identity turns

/-- `MailboxChannel.call`. -/
def call (bootId method : String) (arguments : Json) : Program Json := do
  let identity ← uuid4
  let request : Request := ⟨identity, bootId, method, arguments⟩
  refuse (frameBytes P request.toJson > maxFrameBytes) (.valueError "Mailbox frame too large")
  write (.published request) fun w => { w with requests := put identity request w.requests }
  awaitResponse identity (← Proc.ask ℕ)
  match ← look fun w => w.responses.lookup identity with
  | none => throw .platform
  | some response =>
      refuse (frameBytes P response.toJson > maxFrameBytes) (.valueError "Mailbox response too large")
      refuse (response.id ≠ identity) (.valueError "Mailbox response identity mismatch")
      Proc.emit (.received request response.outcome)
      Proc.ofExcept (response.outcome.mapError .remoteError)

/-- `run_agent`, as far as the channel knows it: calls of its choice, one after another. -/
def agent (bootId : String) : ℕ → Program Unit
  | 0 => mayFail
  | calls + 1 => do
      let (method, arguments) ← Proc.ask (String × Json)
      let _ ← (call P bootId method arguments).attempt
      agent bootId calls

/-- `_main`, after the checks of its boundary. -/
def start : Program Unit := do
  mayFail
  Proc.perform .look fun _ w => if w.config then some ((), w) else none
  mayFail
  let boots ← look World.boots
  let bootId ← uuid4
  let uid ← Proc.ask ℕ
  write (.booted bootId (boots.length + 1)) fun w => { w with boots := boots ++ [⟨bootId, uid⟩] }
  agent P bootId (← Proc.ask ℕ)
  let result ← Proc.ask Json
  write .file fun w => { w with result := some result }

/-- `main`. -/
def main : Program Json := do
  (start P).tryCatch fun e => do
    let record ← Proc.ask Json
    let _ ← (write .file fun w => { w with agentError := some record }).attempt
    throw e
  return .null

end

/-! ## The host -/

/-- `save(session, record)`. -/
def save (resumes : List Transition) : Program Unit :=
  write (.saved resumes) fun w => { w with session := some resumes }

/-- `charge_rpc`. -/
def chargeRpc (maximum : ℕ) : Program Unit := do
  let record ← look fun w => w.budget.getD ⟨0, maximum⟩
  let limit := min record.limit maximum
  refuse (record.count ≥ limit) (.valueError "Durable RPC budget exhausted")
  write .charged fun w => { w with budget := some ⟨record.count + 1, limit⟩ }

/-- `error_record(ValueError('Unknown AX RPC method'))`. -/
def unknownMethod : Json := .obj [("error_type", .str "ValueError")]

def Request.known (r : Request) : Bool :=
  r.method = "tool" || r.method = "generate" || r.method = "count_tokens"

/-- A request is carried out, by the toolbox or by the relay. -/
def dispatch (request : Request) : Program (Except Json Json) :=
  if request.known then Proc.ask (Except Json Json) else pure (.error unknownMethod)

/-- A request is charged, carried out, and answered. -/
def answer (maximum : ℕ) (request : Request) : Program Unit := do
  chargeRpc maximum
  Proc.emit (.dispatched request)
  let outcome ← dispatch request
  Proc.emit (.returned request outcome)
  write (.responded request outcome) fun w =>
    { w with responses := put request.id ⟨request.id, outcome⟩ w.responses }

section
variable (P : Platform)

/-- The requests of a boot that have no answer, in the order of their names. -/
def pending (bootId : String) (w : World) : List (String × Request) :=
  (w.requests.filter fun file => (w.responses.lookup file.1).isNone &&
    decide (frameBytes P file.2.toJson ≤ maxFrameBytes) && file.2.bootId = bootId).mergeSort
      fun a b => a.1 ≤ b.1

/-- What the host is told of the mailbox. -/
inductive Message where
  | agentError (record : Json)
  | result (result : Json)
  | request (file : String) (request : Request)
  | nothing

/-- The script `read`. -/
def poll (expectedBoots : ℕ) : Program Message := do
  mayFail
  match ← look World.agentError with
  | some record => return .agentError record
  | none =>
  match ← look World.result with
  | some result => return .result result
  | none =>
  let boots ← look World.boots
  if boots.length < expectedBoots then return .nothing
  else do
    refuse (boots.length ≠ expectedBoots) (.runtimeError "AX command failed: ssh")
    match boots.getLast? with
    | none => throw (.runtimeError "AX command failed: ssh")
    | some boot =>
    match ← look (pending P boot.bootId) with
    | [] => return .nothing
    | (file, request) :: _ => return .request file request

/-- The branch of the loop for a result. -/
def finish (result : Json) : Program Json := do
  mayFail
  let boots ← look World.boots
  match ← look World.session with
  | none => throw .platform
  | some resumes =>
      let checks ← Proc.ask Bool
      refuse (¬checks) (.valueError "AX process isolation check failed")
      refuse (boots.length ≠ resumes.length + 1 ∨ ¬(boots.map Boot.bootId).Nodup)
        (.valueError "AX did not reconstruct exactly one fresh agent process")
      refuse (boots.any fun b => b.uid = 0) (.valueError "AX agent process retained root identity")
      save resumes
      return result

/-- The loop of `_run_ax_agent`, for so many turns. -/
def serve (maximum expectedBoots : ℕ) : ℕ → Program Json
  | 0 => throw (.timeoutError "AX agent deadline")
  | turns + 1 => do
      match ← poll P expectedBoots with
      | .agentError _ => throw (.runtimeError "AX agent reported an error")
      | .result result => finish result
      | .nothing => serve maximum expectedBoots turns
      | .request file request =>
          refuse (¬hex32 request.id ∨ file ≠ request.id) (.valueError "Invalid AX RPC identity")
          answer maximum request
          serve maximum expectedBoots turns

/-- The wait for the mailbox directory, for so many turns. -/
def awaitDirectory : ℕ → Program Unit
  | 0 => throw (.timeoutError "AX mailbox directory deadline")
  | turns + 1 => do
      mayFail
      let error ← look World.agentError
      refuse error.isSome (.runtimeError "AX agent reported an error")
      unless ← Proc.ask Bool do awaitDirectory turns

/-- The task is created, or suspended and resumed; an earlier transition that is not complete is
not retried. -/
def connect : Program Bool := do
  match ← look World.session with
  | none =>
      mayFail
      save []
      awaitDirectory (← Proc.ask ℕ)
      write .file fun w => { w with config := true }
      return true
  | some resumes =>
      if resumes.any fun state => state ≠ .complete then return false
      else do
        write .file fun w => { w with config := true }
        write .file fun w => { w with result := none }
        save (resumes ++ [.started])
        mayFail
        save (resumes ++ [.suspended])
        mayFail
        save (resumes ++ [.complete])
        return true

/-- What is returned when an AX transition was cut short. -/
def indeterminate : Json :=
  .obj [("status", .str "indeterminate"),
    ("reason", .str "incomplete_AX_transition_no_automatic_retry")]

/-- `_run_ax_agent`. -/
def attend (maxTurns : ℕ) : Program Json := do
  if ← connect then
    mayFail
    match ← look World.session with
    | none => throw .platform
    | some resumes => serve P (maxTurns * 12) (resumes.length + 1) (← Proc.ask ℕ)
  else return indeterminate

/-- `run_ax_agent`; its caller makes one call at a time. -/
def runAxAgent (maxTurns : ℕ) : Program Json := do
  Proc.perform .enter fun t w => if w.host = none then some ((), { w with host := some t }) else none
  let outcome ← (attend P maxTurns).attempt
  Proc.perform .leave fun _ w => some ((), { w with host := none })
  Proc.ofExcept outcome

/-- Agent processes and calls of `run_ax_agent` start at any time, and may be killed wherever they
are. -/
def system : System World Act Party Failure Json where
  init w := w = .start
  calls _ i p := match i with
    | .host maxTurns => p = runAxAgent P maxTurns
    | .guest => p = main P
  stop c D w := w = { c.view.world with host := c.view.world.host.filter fun t => !D t }
  env _ _ := False

end

end AutonomyLab.Ax
