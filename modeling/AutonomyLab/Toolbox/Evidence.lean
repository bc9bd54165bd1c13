import Mathlib.Data.Finset.Insert
import AutonomyLab.Json.Ascii
import AutonomyLab.Json.Python
import AutonomyLab.Process.Sequential
import AutonomyLab.Store.Lines
import AutonomyLab.Toolbox.Arguments

/-!
# The evidence log

`ObservationTools`, the tools of one run with the log of what they observed.  Every call
that is within the budget appends one line; a process that is killed may leave a part of
a line, which the next one moves to a file of its own before it goes on.

* `Directory`, `ObservationTools`, `Options` — the files of a run, the memory of the
  tools, and what they are created with.
* `replayLine`, `create` — reading the log back, and cutting off a torn line.
* `record`, `call` — appending an observation, and the tools; `session` is a process
  that creates the tools and calls them.
-/

namespace AutonomyLab.Toolbox

open Json Process

abbrev Bytes : Type := List UInt8

/-- A `datetime`, in microseconds. -/
inductive Datetime where
  | naive (μs : ℤ)
  | aware (μs : ℤ)
  deriving DecidableEq, Repr

/-- What the platform computes. -/
structure Platform extends AutonomyLab.Platform where
  parseFloat : String → Option ℚ
  /-- `line.decode(json.detect_encoding(line), "surrogatepass")`. -/
  decode : Bytes → Option (List Char)
  fromisoformat : String → Except PyError Datetime
  /-- The `loc` of each error that pydantic finds in the arguments of a tool. -/
  errorFields : Tool → Json → List String

/-- What is documented of the platform: floats are written in ASCII and read back, and
bytes that are ASCII are read as ASCII. -/
structure Platform.Documented (P : Platform) : Prop where
  float : FloatText P.reprFloat P.parseFloat
  printable : ∀ q, Printable (P.reprFloat q).toList
  decode : ∀ text, Printable text → P.decode (encode text) = some text

/-- `timestamp.replace("Z", "+00:00")`. -/
def replaceZ (timestamp : String) : String :=
  String.ofList (timestamp.toList.flatMap fun c => if c = 'Z' then "+00:00".toList else [c])

/-- A text that `datetime.now(UTC).isoformat()` may return: it reads back with its zone. -/
abbrev Now (P : Platform) : Type :=
  { text : String // ∃ μs, P.fromisoformat (replaceZ text) = .ok (.aware μs) }

/-- The files of a run. -/
structure Directory where
  /-- `evidence.jsonl`, where it exists. -/
  log : Option Bytes
  /-- The files beside it that hold torn lines. -/
  torn : List (String × Bytes)
  /-- The texts of the uuids that were ever drawn. -/
  drawn : List String

/-- The memory of the tools. -/
structure ObservationTools where
  issuedIds : Finset String
  callCount : ℕ
  terminal : Option Json
  recoveredTailPath : Option String

def ObservationTools.initial : ObservationTools := ⟨∅, 0, none, none⟩

structure Options where
  runId : String
  maxCalls : ℤ
  maxResultBytes : ℤ

/-- The checks of `__init__`. -/
def Options.check (o : Options) : Except PyError Unit :=
  if o.runId.toList.all Broker.isStripped ∨ o.runId.length > 253 then
    .error (.valueError "run_id must be a nonempty bounded string")
  else if o.maxCalls < 1 then
    .error (.valueError "max_calls must be a positive integer")
  else if o.maxResultBytes < 1024 then
    .error (.valueError "max_result_bytes must be an integer of at least 1024")
  else .ok ()

/-- What a process is seen to do. -/
inductive Act where
  /-- `self.path.exists()` and `self.path.read_bytes()`. -/
  | read
  /-- A uuid is drawn. -/
  | draw (text : String)
  /-- A file for a torn line is created. -/
  | quarantine (path : String)
  /-- A byte is written to it. -/
  | keep (path : String) (b : UInt8)
  /-- The log is cut. -/
  | truncate (length : ℕ)
  /-- The log is opened for appending. -/
  | openLog
  /-- A byte is appended to the log. -/
  | append (b : UInt8)
  /-- The byte that ends a line is appended to the log; the line holds `record`. -/
  | commit (record : Json)
  /-- `__init__` has returned. -/
  | opened (tools : ObservationTools)
  /-- `call` has returned. -/
  | answered (tools : ObservationTools)

/-- How a constructor or a call may end other than by returning. -/
inductive Failure where
  | python (e : PyError)
  | jsonDecodeError
  | fileExistsError

/-- How `_execute` may end other than by returning. -/
inductive Refusal where
  | operationConflict
  /-- Any other exception, by the name of its type. -/
  | other (name : String)

/-- Programs of the tools. -/
abbrev Program (α : Type) : Type 1 := Prog ObservationTools Directory Act Failure α

def ofPy {α : Type} (r : Except PyError α) : Program α := .ofExcept (r.mapError .python)

/-- `b"\n"`. -/
def newline : UInt8 := 10

/-- The text of a uuid; none is drawn twice. -/
def uuid4 : Program String := do
  let text ← Prog.ask String
  Prog.perform (.draw text) fun _ d =>
    if text = "" ∨ text ∈ d.drawn then none else some (text, { d with drawn := text :: d.drawn })

/-! ## Reading the log back -/

section
variable (P : Platform)

/-- `json.loads(line)`. -/
def parseLine (line : Bytes) : Option Json := (P.decode line).bind (loads P.parseFloat)

/-- The exception for a complete line that is no record. -/
def corrupt (name : String) : PyError :=
  .valueError ("Evidence log has a corrupt complete record: " ++ name)

/-- The claim in a payload, as far as `FinishArguments` is concerned. -/
def claimArguments (payload : List (String × Json)) : Option FinishArguments :=
  FinishArguments.modelValidate (.obj (eraseField "kind" payload))

/-- Whether a payload is a terminal claim. -/
def isClaim (source : String) (payload : List (String × Json)) : Bool :=
  source = "finish" ∧ PyEq ((payload.lookup "kind").getD .null) (.str "claim")

/-- What `_replay` does with a record. -/
def replayRecord (run : String) (tools : ObservationTools) (record : Json) :
    Except PyError ObservationTools :=
  match record.member "observation_id", record.member "source", record.member "timestamp",
      record.member "payload" with
  | .str id, .str source, .str timestamp, .obj payload => do
      if id = "" then throw (.valueError "Malformed evidence envelope")
      let .aware _ ← P.fromisoformat (replaceZ timestamp)
        | throw (.valueError "Evidence timestamp has no timezone")
      if ¬PyEq (record.member "run_id") (.str run) then
        throw (.valueError "Evidence directory belongs to a different run")
      if id ∈ tools.issuedIds then
        throw (.valueError "Evidence log contains duplicate observation IDs")
      if isClaim source payload ∧ (claimArguments payload).isNone then
        throw (corrupt "ValidationError")
      return { tools with
        issuedIds := insert id tools.issuedIds
        callCount := tools.callCount + 1
        terminal := if isClaim source payload then some (.obj payload) else tools.terminal }
  | _, _, _, _ => throw (.valueError "Malformed evidence envelope")

/-- What `_replay` does with a complete line. -/
def replayLine (run : String) (tools : ObservationTools) (line : Bytes) :
    Except PyError ObservationTools :=
  match P.decode line with
  | none => .error (corrupt "UnicodeDecodeError")
  | some text => match loads P.parseFloat text with
      | none => .error (corrupt "JSONDecodeError")
      | some record => replayRecord P run tools record

/-- `evidence.jsonl.torn-….bin`. -/
def quarantinePath (text : String) : String := "evidence.jsonl.torn-" ++ text ++ ".bin"

/-- Write `bytes` to the file for a torn line. -/
def keepAll (path : String) : Bytes → Program Unit
  | [] => pure ()
  | b :: bytes => do
      Prog.perform (.keep path b) fun _ d => some ((), { d with
        torn := d.torn.map fun f => if f.1 = path then (f.1, f.2 ++ [b]) else f })
      keepAll path bytes

/-- The log is read; there may be none. -/
def readLog : Program (Option Bytes) := Prog.perform .read fun _ d => some (d.log, d)

/-- `os.open(path, os.O_WRONLY | os.O_CREAT | os.O_EXCL, 0o600)`. -/
def createExclusive (path : String) : Program Unit := do
  let created ← Prog.perform (.quarantine path) fun _ d =>
    if d.torn.any fun f => f.1 = path then some (false, d)
    else some (true, { d with torn := d.torn ++ [(path, [])] })
  unless created do throw .fileExistsError

/-- `stream.read() != data`. -/
def checkUnchanged (data : Bytes) : Program Unit := do
  if (← readLog) ≠ some data then
    ofPy (.error (.valueError "Evidence log changed during tail recovery"))

/-- `stream.truncate(length)`. -/
def truncateLog (length : ℕ) : Program Unit :=
  Prog.perform (.truncate length) fun _ d =>
    some ((), { d with log := d.log.map fun bytes => bytes.take length })

/-- The end of `_replay`, for a log that ends with a torn line. -/
def recoverTail (data : Bytes) : Program Unit := do
  let text ← uuid4
  createExclusive (quarantinePath text)
  keepAll (quarantinePath text) (Store.Lines.tail newline data)
  checkUnchanged data
  truncateLog (Store.Lines.complete newline data).length
  modify fun tools => { tools with recoveredTailPath := some (quarantinePath text) }

/-- `_replay`, of a log that holds `data`. -/
def replay (run : String) (data : Bytes) : Program Unit := do
  -- the committed lines are all read before anything is changed
  set (← ofPy ((Store.Lines.entries newline data).foldlM (replayLine P run) .initial))
  unless Store.Lines.tail newline data = [] do recoverTail data

/-- `ObservationTools(…, run_dir, run_id, …)`. -/
def create (o : Options) : Program Unit := do
  ofPy o.check
  set ObservationTools.initial
  match ← readLog with
  | none => pure ()
  | some data => replay P o.runId data

/-! ## Calling a tool -/

/-- The layout of a line. -/
def lineLayout : Layout := { sortKeys := true }

/-- The record of an observation. -/
def envelope (id run timestamp source : String) (payload : List (String × Json)) : Json :=
  .obj [("observation_id", .str id), ("run_id", .str run), ("timestamp", .str timestamp),
    ("source", .str source), ("payload", .obj payload)]

def serialized (record : Json) : String := dumps P.reprFloat lineLayout record

/-- What takes the place of a payload that is too large. -/
def tooLarge (record : Json) : List (String × Json) := [
  ("kind", .str "error"), ("error", .str "result_too_large"),
  ("original_bytes", .int (encode (serialized P record).toList).length),
  ("content_sha256", .str (P.sha256 (serialized P record))),
  ("message", .str
    "Observation exceeded the declared output limit; its contents are unavailable.")]

/-- The payload that is recorded. -/
def boundedPayload (o : Options) (id timestamp source : String) (payload : List (String × Json)) :
    List (String × Json) :=
  let record := envelope id o.runId timestamp source payload
  if (encode (serialized P record).toList).length > o.maxResultBytes then tooLarge P record
  else payload

/-- The record that `_record` writes. -/
def recordOf (o : Options) (id timestamp source : String) (payload : List (String × Json)) : Json :=
  envelope id o.runId timestamp source (boundedPayload P o id timestamp source payload)

/-- Append `bytes` to the log. -/
def appendAll : Bytes → Program Unit
  | [] => pure ()
  | b :: bytes => do
      Prog.perform (.append b) fun _ d => some ((), { d with log := some (d.log.getD [] ++ [b]) })
      appendAll bytes

/-- `stream.write(serialized + "\n")`. -/
def appendLine (record : Json) : Program Unit := do
  Prog.perform .openLog fun _ d => some ((), { d with log := some (d.log.getD []) })
  appendAll (encode (serialized P record).toList)
  Prog.perform (.commit record) fun _ d =>
    some ((), { d with log := some (d.log.getD [] ++ [newline]) })

/-- `json.loads(text)`. -/
@[irreducible] def parse (text : String) : Program Json :=
  match loads P.parseFloat text.toList with
  | some value => pure value
  | none => throw .jsonDecodeError

/-- `_record`. -/
def record (o : Options) (source : String) (payload : List (String × Json)) : Program Json := do
  let id ← uuid4
  let timestamp ← Prog.ask (Now P)
  let record := recordOf P o id timestamp.1 source payload
  appendLine P record
  modify fun tools => { tools with issuedIds := insert id tools.issuedIds }
  parse P (serialized P record)

/-- What `call` answers once the work is finished or the budget is used up. -/
def denied (o : Options) (timestamp source : String) (finished : Bool) : Json := .obj [
  ("observation_id", .null), ("evidence_eligible", .bool false), ("run_id", .str o.runId),
  ("timestamp", .str timestamp), ("source", .str source), ("payload", .obj [
    ("kind", .str "error"),
    ("error", .str (if finished then "task_already_finished" else "tool_budget_exhausted"))])]

/-- The payload of an error. -/
def errorPayload (error : String) : List (String × Json) :=
  [("kind", .str "error"), ("error", .str error)]

/-- The payload for arguments that are not accepted. -/
def invalidArguments (tool : Tool) (args : Json) : List (String × Json) :=
  errorPayload "invalid_arguments" ++ [("fields", .arr (((P.errorFields tool args).take 10).map
    fun loc => .str (String.ofList (loc.toList.take 80))))]

/-- `_execute`: what the cluster, the broker, the services and the verifier answer may be
anything. -/
def execute : Arguments → Program (Except Refusal (List (String × Json)))
  | .finish f => pure (.ok (("kind", .str "claim") :: f.dumped))
  | _ => do
      let answer ← Prog.ask (Except Refusal { payload : List (String × Json) // Distinct (.obj payload) })
      return answer.map fun payload => payload.1

/-- The payload that is recorded for the outcome of a tool. -/
def outcomePayload : Except Refusal (List (String × Json)) → List (String × Json)
  | .ok payload => payload
  | .error .operationConflict => errorPayload "operation_id_conflict"
  | .error (.other name) => errorPayload "tool_unavailable" ++ [("error_type", .str name)]

/-- `call`, for a tool and arguments that were accepted. -/
def callTool (o : Options) (tool : Tool) (arguments : Arguments) : Program Json := do
  let payload := outcomePayload (← execute arguments)
  let answer ← record P o tool.name payload
  let claimed ← ofPy ((answer.subscript "payload").bind (get "kind"))
  if tool = .finish ∧ PyEq claimed (.str "claim") then
    let terminal ← parse P (dumps P.reprFloat {} (answer.member "payload"))
    modify fun tools => { tools with terminal := some terminal }
  return answer

/-- Why `call` does not run a tool with arguments of the right form. -/
def refusal? (o : Options) (tools : ObservationTools) (arguments : Arguments) : Option String :=
  if arguments.otherRun o.runId then some "run_id_mismatch"
  else if arguments.evidenceIds.any fun id => id ∉ tools.issuedIds then some "unknown_evidence_id"
  else none

/-- `call`. -/
def call (o : Options) (name args : Json) : Program Json := do
  let tools ← get
  if tools.callCount ≥ o.maxCalls ∨ tools.terminal.isSome then
    let timestamp ← Prog.ask (Now P)
    return denied o timestamp.1 (sourceOf (tool? name)) tools.terminal.isSome
  modify fun tools => { tools with callCount := tools.callCount + 1 }
  match tool? name with
  | none => record P o "unknown_tool" (errorPayload "unknown_tool")
  | some tool => match tool.validate args with
      | none => record P o tool.name (invalidArguments P tool args)
      | some arguments => match refusal? o tools arguments with
          | some error => record P o tool.name (errorPayload error)
          | none => callTool P o tool arguments

/-- One call after another; an exception is an answer like any other. -/
def serve (o : Options) : List (Json × Json) → Program Unit
  | [] => pure ()
  | (name, args) :: requests => do
      let _ ← (call P o name args).attempt
      Prog.emit (.answered (← get))
      serve o requests

/-- A process that creates the tools and calls them. -/
def session (o : Options) (requests : List (Json × Json)) :
    Proc Directory Act (Failure × ObservationTools) (Unit × ObservationTools) :=
  (do create P o
      Prog.emit (.opened (← get))
      serve P o requests) .initial

/-- The processes on one directory, one after another; each may be killed anywhere.  They
differ in their limits, but belong to one run. -/
def evidence (run : String) (init : Directory → Prop) :
    Sequential.System Directory Act Options (Failure × ObservationTools) (Unit × ObservationTools) where
  init := init
  starts o p := o.runId = run ∧ ∃ requests, p = session P o requests
  dies _ := True

end

end AutonomyLab.Toolbox
