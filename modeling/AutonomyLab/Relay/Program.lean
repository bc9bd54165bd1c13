import AutonomyLab.Json.Python
import AutonomyLab.Process.Sequential

/-!
# The model relay

`ModelRelay`, the host's gate between the agent in its container and the provider
of the model.  The agent chooses the methods, the order and the contents of its
calls; the relay counts an input, reserves what a generation may cost, marks the
request as pending in its file, sends it, and accounts for the answer.

* `RelayState`, `ModelRelay`, `Options` — what the file holds, the memory of a
  relay, and the limits it is created with.
* `reservedThoughts` — the tokens of earlier thoughts that a request carries.
* `call`, `generate`, `record` — the relay; `session` is a host process that
  creates a relay and passes on calls.
-/

namespace AutonomyLab.Relay

open Json Process

/-- `self.state`, and what the file holds. -/
structure RelayState where
  calls : ℕ
  tokens : ℕ
  pending : Bool
  responses : List Json
  counts : ℕ
  deriving DecidableEq

/-- The state of a relay that finds no file. -/
def RelayState.initial : RelayState := ⟨0, 0, false, [], 0⟩

/-- The limits of a run. -/
structure Options where
  maxTurns : ℕ
  maxTotalTokens : ℕ
  maxOutputTokens : ℕ
  deriving DecidableEq

/-- The memory of a relay. -/
structure ModelRelay where
  state : RelayState
  /-- The arguments of the last count, and what was counted. -/
  preflight : Option (Json × ℤ)

/-- What a generation may cost: the counted input, the thoughts it carries, and the
output it asks for. -/
structure Reservation where
  count : ℤ
  thoughts : ℤ
  output : ℤ
  deriving DecidableEq

def Reservation.total (r : Reservation) : ℤ := r.count + r.thoughts + r.output

/-- The relay's file; there may be none. -/
abbrev World := Option RelayState

/-- What a relay that reads the file starts from. -/
def World.state (w : World) : RelayState := w.getD .initial

/-- What a relay is seen to do. -/
inductive Act where
  /-- The file is read. -/
  | load
  /-- The file is replaced. -/
  | save (s : RelayState)
  /-- `client.count_tokens` is called. -/
  | count (arguments : Json)
  /-- `client.count_tokens` has returned. -/
  | counted (arguments : Json) (count : ℤ)
  /-- `client.generate` is called. -/
  | generate (arguments : Json) (r : Reservation)
  /-- The provider's response to a request for which `r` was reserved is here. -/
  | received (response : Json) (r : Reservation)

/-- How a call may end other than by returning. -/
inductive CallError where
  | python (e : PyError)
  /-- An exception of the provider's client. -/
  | client

/-- How `client.generate` may end: it returns, or raises an exception with an attribute
`response`, which is `None` where there is no such attribute. -/
inductive Outcome where
  | returned (response : Json)
  | raised (response : Json)

/-- The response of the provider, if one has come. -/
def Outcome.response? : Outcome → Option Json
  | .returned response => some response
  | .raised response => if response.isDict then some response else none

/-- Programs of a relay. -/
abbrev Program (α : Type) : Type 1 := Prog ModelRelay World Act CallError α

def ofPy {α : Type} (r : Except PyError α) : Program α := .ofExcept (r.mapError .python)

/-- `raise ValueError(message)`. -/
def refuse {α : Type} (message : String) : Program α := ofPy (.error (.valueError message))

/-! ## What a request may cost -/

/-- `response.get("candidates", [{}])[0].get("content")`. -/
def contentOf (response : Json) : Except PyError Json := do
  (← first (← getD "candidates" (.arr [.obj []]) response)).get "content"

/-- `content.get("role") == "model"`. -/
def isModel (content : Json) : Except PyError Bool :=
  (content.get "role").map fun role => PyEq role (.str "model")

/-- The contents of a request that the model has written. -/
def submitted : List Json → Except PyError (List Json)
  | [] => .ok []
  | c :: cs => do
      let own ← isModel c
      let rest ← submitted cs
      return if own then c :: rest else rest

/-- Whether a part carries a thought signature. -/
def signed (part : Json) : Except PyError Bool :=
  anyTrue [part.contains "thoughtSignature", part.contains "thought_signature"]

/-- A signature in a content that the model has not written is refused. -/
def checkSignatures : List Json → Except PyError Unit
  | [] => .ok ()
  | c :: cs => do
      unless ← isModel c do
        let parts ← iterate (← getD "parts" (.arr []) c)
        if ← anyTrue (parts.map signed) then
          throw (.valueError "Signature attached to unrecognized history")
      checkSignatures cs

/-- The thought tokens of a response, as reported or as the rest of its total. -/
def thoughtTokens (response : Json) : Except PyError ℤ := do
  let usage ← response.subscript "usageMetadata"
  let reported ← usage.get "thoughtsTokenCount"
  let value ← if reported = .null then do
      let known ← sub (← usage.subscript "totalTokenCount") (← usage.subscript "promptTokenCount")
      sub known (← usage.subscript "candidatesTokenCount")
    else pure reported
  match value with
  | .int n => if n < 0 then throw (.valueError "Invalid prior thought usage") else return n
  | _ => throw (.valueError "Invalid prior thought usage")

/-- The thought tokens of the responses that are among the submitted contents. -/
def sumThoughts (submitted : List Json) : List Json → Except PyError ℤ
  | [] => .ok 0
  | response :: responses => do
      let content ← contentOf response
      let own ← if isIn content submitted then do
          let value ← thoughtTokens response
          let content ← (← first (← response.subscript "candidates")).subscript "content"
          pure (value * (submitted.filter fun c => PyEq c content).length)
        else pure 0
      return own + (← sumThoughts submitted responses)

/-- The tokens of earlier thoughts that a request with these inputs carries. -/
def reservedThoughts (responses : List Json) (inputs : Json) : Except PyError ℤ := do
  let prior ← responses.mapM contentOf
  let contents ← iterate (← inputs.subscript "contents")
  let submitted ← submitted contents
  checkSignatures contents
  if submitted.any fun c => !isIn c prior then
    throw (.valueError "Unrecognized model history at provider relay")
  sumThoughts submitted responses

/-- The arguments of a generation without the output limit. -/
def inputsOf : Json → Except PyError Json
  | .obj fs => .ok (.obj (eraseField "max_output_tokens" fs))
  | _ => .error .attributeError

/-- The output limit of a generation whose inputs are the counted ones. -/
def outputOf (o : Options) (arguments inputs counted : Json) : Except PyError ℤ := do
  let output ← arguments.get "max_output_tokens"
  let changed : PyError := .valueError "Provider request changed after counting"
  match output with
  | .int n =>
      if ¬PyEq inputs counted ∨ ¬(1 ≤ n ∧ n ≤ o.maxOutputTokens) then throw changed else return n
  | _ => throw changed

/-- The tokens a response reports in total. -/
def usageOf (response : Json) : Except PyError ℕ := do
  let usage ← (← getD "usageMetadata" (.obj []) response).get "totalTokenCount"
  match usage with
  | .int (.ofNat n) => return n
  | _ => throw (.valueError "Unknown provider usage")

/-! ## The relay -/

/-- `save(self.path, self.state)`. -/
def save : Program Unit := do
  let relay ← get
  Prog.perform (.save relay.state) fun _ _ => some ((), some relay.state)

/-- `ModelRelay(client, path, options)`. -/
def create : Program Unit := do
  let w : World ← Prog.perform .load fun _ w => some (w, w)
  set (⟨w.state, none⟩ : ModelRelay)

/-- `client.count_tokens(**arguments)`. -/
def clientCount (arguments : Json) : Program ℤ := do
  unless arguments.isDict do ofPy (.error .typeError)
  Prog.emit (.count arguments)
  match ← Prog.ask (Option ℤ) with
  | none => throw .client
  | some count =>
      Prog.emit (.counted arguments count)
      return count

/-- `client.generate(**arguments)`. -/
def clientGenerate (arguments : Json) (r : Reservation) : Program Outcome := do
  Prog.emit (.generate arguments r)
  let outcome ← Prog.ask Outcome
  match outcome.response? with
  | none => pure ()
  | some response => Prog.emit (.received response r)
  return outcome

/-- `record`. -/
def record (response : Json) (reservation : ℤ) : Program Unit := do
  let usage ← ofPy (usageOf response)
  modify fun relay => { relay with state := { relay.state with
    responses := relay.state.responses ++ [response]
    tokens := relay.state.tokens + usage
    pending := false } }
  save
  if usage > reservation then
    -- fail closed on provider accounting overrun
    modify fun relay => { relay with state := { relay.state with pending := true } }
    save
    refuse "Provider usage exceeded reservation"

/-- The branch of `call` for a count. -/
def countTokens (o : Options) (arguments : Json) : Program Json := do
  if (← get).state.counts ≥ o.maxTurns * 2 then
    refuse "Model count budget exhausted"
  modify fun relay => { relay with state := { relay.state with counts := relay.state.counts + 1 } }
  save
  let count ← clientCount arguments
  modify fun relay => { relay with preflight := some (arguments, count) }
  return .int count

/-- The branch of `call` for a generation after the count `counted`. -/
def generate (o : Options) (arguments : Json) (counted : Json × ℤ) : Program Json := do
  let inputs ← ofPy (inputsOf arguments)
  modify fun relay => { relay with preflight := none }
  let output ← ofPy (outputOf o arguments inputs counted.1)
  let relay ← get
  let thoughts ← ofPy (reservedThoughts relay.state.responses inputs)
  let r : Reservation := ⟨counted.2, thoughts, output⟩
  if relay.state.calls ≥ o.maxTurns ∨ relay.state.tokens + r.total > o.maxTotalTokens then
    refuse "Host model budget exhausted"
  modify fun relay => { relay with state := { relay.state with
    calls := relay.state.calls + 1
    pending := true } }
  save
  match ← clientGenerate arguments r with
  | .raised response =>
      if response.isDict then record response r.total
      throw .client
  | .returned response =>
      record response r.total
      return response

/-- `call`. -/
def call (o : Options) (method : String) (arguments : Json) : Program Json := do
  let relay ← get
  if relay.state.pending then
    refuse "Uncertain provider request cannot be retried"
  if method = "count_tokens" then
    countTokens o arguments
  else match relay.preflight with
    | some counted =>
        if method = "generate" then generate o arguments counted
        else refuse "Provider generation requires a counted input"
    | none => refuse "Provider generation requires a counted input"

/-- One request after another; an exception is an answer like any other. -/
def serve (o : Options) : List (String × Json) → Program Unit
  | [] => pure ()
  | (method, arguments) :: requests => do
      let _ ← (call o method arguments).attempt
      serve o requests

/-- A host process: it creates a relay and passes on the calls of an agent. -/
def session (o : Options) (requests : List (String × Json)) :
    Proc World Act (CallError × ModelRelay) (Unit × ModelRelay) :=
  (create >>= fun _ => serve o requests) ⟨.initial, none⟩

/-- The relays on one file, one after another: each is created with options of which `O`
holds, and may be killed wherever `dies` holds. -/
def system (O : Options → Prop) (dies : View World Act Options → Prop) :
    Sequential.System World Act Options (CallError × ModelRelay) (Unit × ModelRelay) where
  init w := w = none
  starts o p := O o ∧ ∃ requests, p = session o requests
  dies := dies

end AutonomyLab.Relay
