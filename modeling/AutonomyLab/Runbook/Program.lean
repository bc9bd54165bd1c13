import AutonomyLab.Broker.Proposal
import AutonomyLab.Process.Dialogue

/-!
# The runbook

The deterministic actor: it looks at the Service, at the backend and at the application, and at
most repairs the route between them.  It is a dialogue with its tools, whose observations may be
any JSON values.

* `Decisions` — the choices that a procedure leaves open.
* `Backend`, `Scope` — what it needs to know of a backend that works, and of a Service that is in
  its scope; `backend?` and `serviceScope` read them.
* `call`, `finish` — a call of a tool, with the evidence it is issued.
* `refreshProposal` — whether a rejected proposal is made once more, and how.
* `execute` — the runbook.
-/

namespace AutonomyLab.Runbook

open Json Process

abbrev Dict := List (String × Json)

/-! ## Decisions -/

inductive BackendUnavailable where
  | escalate
  | verify
  deriving DecidableEq, Repr

inductive RepairableRouting where
  | escalate
  | repair
  deriving DecidableEq, Repr

inductive ConditionalRejection where
  | escalate
  | refresh
  deriving DecidableEq, Repr

structure Decisions where
  backendUnavailable : BackendUnavailable
  repairableRouting : RepairableRouting
  conditionalRejection : ConditionalRejection
  deriving DecidableEq, Repr

/-! ## Observations -/

/-- `value == text`, for a member of a dictionary. -/
def isText (fs : Dict) (key text : String) : Bool := PyEq ((fs.lookup key).getD .null) (.str text)

/-- The values of a backend observation that shows a backend at work. -/
structure Backend where
  sku : String
  quantity : ℤ
  unitPriceMinor : ℤ
  stock : ℤ
  currency : String
  backendPort : ℤ
  sku_ne : sku ≠ ""
  quantity_pos : 0 < quantity
  price_nonneg : 0 ≤ unitPriceMinor
  stock_nonneg : 0 ≤ stock

/-- `product["available"]`. -/
def Backend.available (b : Backend) : Bool := b.quantity ≤ b.stock

/-- `_backend_works`, and the values it has looked at. -/
def backendOf (payload : Dict) : Option Backend := do
  guard (isText payload "kind" "response")
  guard (PyEq ((payload.lookup "status_code").getD .null) (.int 200))
  let .obj body ← payload.lookup "body" | none
  let .str sku ← payload.lookup "sku" | none
  let .int quantity ← payload.lookup "quantity" | none
  guard (isText body "sku" sku)
  let .int unitPriceMinor ← body.lookup "unit_price_minor" | none
  let .int stock ← body.lookup "stock" | none
  let .bool available ← body.lookup "available" | none
  guard (available = decide (quantity ≤ stock))
  let .str currency ← body.lookup "currency" | none
  let .int backendPort ← payload.lookup "backend_port" | none
  if h : sku ≠ "" ∧ 0 < quantity ∧ 0 ≤ unitPriceMinor ∧ 0 ≤ stock then
    some ⟨sku, quantity, unitPriceMinor, stock, currency, backendPort, h.1, h.2.1, h.2.2.1, h.2.2.2⟩
  else none

/-- `_backend_works`: only a dictionary has a `get`. -/
def backend? : Json → Except PyError (Option Backend)
  | .obj payload => .ok (backendOf payload)
  | _ => .error .attributeError

/-- `_application_matches`: the members have the expected types and values. -/
def applicationMatches (application : Json) (b : Backend) : Except PyError Bool :=
  match application with
  | .obj payload =>
      if !isText payload "kind" "response" ||
          !PyEq ((payload.lookup "status_code").getD .null) (.int 200) then .ok false
      else match payload.lookup "body" with
        | some (.obj body) => .ok ([("sku", .str b.sku), ("quantity", .int b.quantity),
            ("unit_price_minor", .int b.unitPriceMinor), ("total_minor", .int (b.unitPriceMinor * b.quantity)),
            ("available", .bool b.available), ("currency", .str b.currency)].all
              fun p : String × Json => body.lookup p.1 = some p.2)
        | _ => .ok false
  | _ => .error .attributeError

/-- The metadata and the port of a Service that is in the scope of the runbook. -/
structure Scope where
  ns : String
  uid : String
  resourceVersion : String
  targetPort : ℤ
  ns_ne : ns ≠ ""
  uid_ne : uid ≠ ""
  resourceVersion_ne : resourceVersion ≠ ""

/-- The Service of a dictionary, if it is in scope. -/
def scopeOf (service : Dict) : Option Scope := do
  let .obj metadata := (service.lookup "metadata").getD (.obj []) | none
  let .obj spec := (service.lookup "spec").getD (.obj []) | none
  let .arr rawPorts ← spec.lookup "ports" | none
  let [.obj port] := rawPorts | none
  guard (isText port "name" "http")
  guard (isText metadata "name" "inventory")
  guard (PyEq ((spec.lookup "selector").getD .null) (.obj [("app", .str "inventory")]))
  guard (PyEq ((port.lookup "port").getD .null) (.int 80))
  guard (isText port "protocol" "TCP")
  let .int targetPort ← port.lookup "targetPort" | none
  let .str uid ← metadata.lookup "uid" | none
  let .str resourceVersion ← metadata.lookup "resourceVersion" | none
  let .str ns ← metadata.lookup "namespace" | none
  if h : ns ≠ "" ∧ uid ≠ "" ∧ resourceVersion ≠ "" then
    some ⟨ns, uid, resourceVersion, targetPort, h.1, h.2.1, h.2.2⟩
  else none

/-- `_service_scope`. -/
def serviceScope (observation : Json) : Except PyError (Option Scope) :=
  (get "service" observation).map fun service => match service with
    | .obj service => scopeOf service
    | _ => none

/-! ## Tools -/

/-- What the runbook asks for. -/
inductive Query where
  /-- `toolbox.terminal`. -/
  | terminal
  /-- `toolbox.call_count`. -/
  | callCount
  /-- `toolbox.call`. -/
  | call (name : String) (args : Dict)
  /-- `uuid.uuid4()`. -/
  | uuid4

/-- What it may be answered; where the tools raise an exception the dialogue is over. -/
def Query.Answer : Query → Type
  | .terminal => Option Dict
  | .callCount => ℕ
  | .call _ _ => Json
  | .uuid4 => String

/-- Programs of the runbook; their memory is the list `evidence`. -/
abbrev Program (α : Type) : Type := StateT (List String) (Dialogue Query Query.Answer PyError) α

def query (q : Query) : Program q.Answer := StateT.lift (Dialogue.question q)

/-- Raise what a walk through a document raises. -/
def ofPy {α : Type} (r : Except PyError α) : Program α := StateT.lift (Dialogue.ofExcept r)

/-- The identifier under which an observation may be cited. -/
def issued (observation : Json) : Except PyError (Option String) := do
  let id ← get "observation_id" observation
  let eligible ← getD "evidence_eligible" (.bool true) observation
  return match id with
    | .str id => if (id.toList.any fun c => !Broker.isStripped c) ∧ eligible = .bool true then some id else none
    | _ => none

/-- The payload of an observation, which becomes evidence. -/
def receive (observation : Json) : Program Json := do
  let id ← ofPy (issued observation)
  modify fun evidence => evidence ++ id.toList
  ofPy (subscript "payload" observation)

def call (name : String) (args : Dict) : Program Json := do
  receive (← query (.call name args))

/-- `evidence[:]`. -/
def cited (evidence : List String) : Json := .arr (evidence.map .str)

def finish (outcome reason : String) : Program Json := do
  let evidence ← get
  let result ← call "finish"
    [("outcome", .str outcome), ("reason", .str reason), ("evidence_ids", cited evidence)]
  match ← query .terminal with
  | some claim => return .obj claim
  | none => return result

/-- `verification.get("verdict") == "verified_success"`. -/
def verified (verification : Json) : Except PyError Bool :=
  (get "verdict" verification).map fun verdict => PyEq verdict (.str "verified_success")

/-! ## The repair -/

/-- A proposal. -/
def proposal (runId : Json) (operationId : String) (scope : Scope) (b : Backend) (evidence : List String) :
    Dict := [
  ("run_id", runId), ("operation_id", .str operationId), ("namespace", .str scope.ns),
  ("service_name", .str "inventory"), ("service_uid", .str scope.uid),
  ("resource_version", .str scope.resourceVersion), ("port_name", .str "http"),
  ("expected_target_port", .int scope.targetPort), ("target_port", .int b.backendPort),
  ("evidence_ids", cited evidence)]

/-- The same proposal for another version of the Service. -/
def refreshed (original : Dict) (operationId resourceVersion : String) (evidence : List String) : Dict :=
  setField "evidence_ids" (cited evidence)
    (setField "resource_version" (.str resourceVersion) (setField "operation_id" (.str operationId) original))

/-- The members of a proposal. -/
def memberOf (fs : Dict) (key : String) : Json := (fs.lookup key).getD .null

/-- Whether an operation is the rejection of the proposal by the API, with budget left. -/
def isRejection (original : Dict) (operation : Json) : Except PyError Bool :=
  match operation with
  | .obj fs =>
      if !((fs.lookup "result").isSome && (fs.lookup "reconciliation").isSome) then .ok false
      else if !isText fs "status" "rejected" then .ok false
      else do
        if !(← inSet (memberOf fs "reason") ["api_rejected_409", "api_rejected_422"]) then return false
        if !PyEq (memberOf fs "operation_id") (memberOf original "operation_id") ||
            !PyEq (memberOf fs "run_id") (memberOf original "run_id") ||
            !PyEq (memberOf fs "request") (.obj original) then return false
        if memberOf fs "result" ≠ .null || memberOf fs "reconciliation" ≠ .null ||
            memberOf fs "journal_status" ≠ .null || memberOf fs "budget_reserved" ≠ .bool true then return false
        match memberOf fs "budget_used", memberOf fs "budget_limit" with
        | .int used, .int limit => return 1 ≤ used && used < limit
        | _, _ => return false
  | _ => .error .attributeError

/-- Whether the second look at the Service and the backend shows the same fault under another
version. -/
def isSameFault (original : Dict) (observed : Json) (scope : Scope) (b : Backend) : Except PyError Bool := do
  let runId ← get "run_id" observed
  return PyEq runId (memberOf original "run_id") &&
    PyEq (.str scope.ns) (memberOf original "namespace") &&
    PyEq (.str "inventory") (memberOf original "service_name") &&
    PyEq (.str scope.uid) (memberOf original "service_uid") &&
    !PyEq (.str scope.resourceVersion) (memberOf original "resource_version") &&
    PyEq (.int scope.targetPort) (memberOf original "expected_target_port") &&
    PyEq (.int b.backendPort) (memberOf original "target_port") && scope.targetPort ≠ b.backendPort

/-- Whether the application reports that the inventory is unavailable. -/
def isUnavailable : Json → Except PyError Bool
  | .obj fs => .ok (isText fs "kind" "response" && memberOf fs "status_code" = .int 503 &&
      PyEq (memberOf fs "body") (.obj [("detail", .str "inventory unavailable")]))
  | _ => .error .attributeError

/-- `_refresh_proposal`: a new proposal, and its operation. -/
def refreshProposal (original : Dict) (operation : Json) : Program (Option (String × Dict)) := do
  if !(← ofPy (isRejection original operation)) then return none
  let evidenceCount := (← get).length
  let observed ← call "observe_service" []
  let backend ← call "probe_backend" []
  let application ← call "probe_application" []
  let scope ← ofPy (serviceScope observed)
  if (← get).length ≠ evidenceCount + 3 then return none
  match scope with
  | none => return none
  | some scope => match ← ofPy (backend? backend) with
      | none => return none
      | some b => do
          if !(← ofPy (isSameFault original observed scope b)) then return none
          if !(← ofPy (isUnavailable application)) then return none
          let operationId ← query .uuid4
          let evidence ← get
          return some (operationId, refreshed original operationId scope.resourceVersion evidence)

/-- `operation.get("status")` is that of an operation whose outcome is open, or there is none. -/
def isOpen (operation : Json) : Except PyError Bool := do
  if ← inSet (← get "status" operation) ["uncertain", "dispatching", "prepared"] then return true
  return PyEq (← get "kind" operation) (.str "error")

/-- `uncertain_desired`. -/
def uncertainDesired (operation : Json) : Except PyError Bool := do
  if !PyEq (← get "status" operation) (.str "uncertain") then return false
  let reconciliation ← get "reconciliation" operation
  let observation ← get "observation" (if reconciliation.truthy then reconciliation else .obj [])
  return PyEq observation (.str "desired_state_observed")

/-- Independent verification, after the operation has been looked at. -/
def confirm (isUncertain : Bool) : Program Json := do
  let verification ← call "verify_recovery" []
  if !(← ofPy (verified verification)) then
    finish "escalated" "The operation was inspected, but independent verification did not establish recovery."
  else
    finish "resolved" ("Application recovery was independently verified." ++
      if isUncertain then " The mutation outcome remains uncertain and actor attribution is not established."
      else "")

/-- The operation again, where its outcome is open. -/
def lookAgain (operationId : String) (operation : Json) : Program Json := do
  if ← ofPy (isOpen operation) then call "get_operation" [("operation_id", .str operationId)]
  else return operation

/-- What is left to be done with an operation. -/
def inspect (operationId : String) (operation : Json) : Program Json := do
  let operation ← lookAgain operationId operation
  let isUncertain ← ofPy (uncertainDesired operation)
  let status ← ofPy (get "status" operation)
  if !PyEq status (.str "acknowledged") && !isUncertain then
    finish "escalated" "The operation is rejected, unsent, or unresolved. No further mutation was attempted."
  else confirm isUncertain

section
variable (decisions : Decisions)

/-- The proposal, and the one that may follow its rejection. -/
def repair (observation : Json) (scope : Scope) (b : Backend) : Program Json := do
  let operationId ← query .uuid4
  let runId ← ofPy (subscript "run_id" observation)
  let original := proposal runId operationId scope b (← get)
  let operation ← call "propose_repair" original
  if decisions.conditionalRejection = .refresh then
    match ← refreshProposal original operation with
    | some (operationId, again) => inspect operationId (← call "propose_repair" again)
    | none => inspect operationId operation
  else inspect operationId operation

/-- Independent verification where no repair is called for. -/
def verifyHealth (healthy escalated : String) : Program Json := do
  let verification ← call "verify_recovery" []
  if ← ofPy (verified verification) then finish "healthy" healthy else finish "escalated" escalated

/-- What the three observations call for. -/
def diagnose (observation application : Json) (scope : Scope) (b : Backend) : Program Json := do
  let correctApplication ← ofPy (applicationMatches application b)
  let targetMatches := decide (scope.targetPort = b.backendPort)
  if correctApplication && targetMatches then
    verifyHealth "Initial health was independently verified; no mutation was needed."
      "Initial probe passed, but the independent verification did not establish health."
  else if correctApplication || targetMatches then
    finish "escalated"
      "The observations do not identify a Service target-port repair that can resolve the failure."
  else if decisions.repairableRouting ≠ .repair then
    finish "escalated" "The procedure declines this diagnosed routing repair."
  else repair decisions observation scope b

/-- The backend could not be observed at work. -/
def withoutBackend (backend : Json) : Program Json := do
  let kind ← ofPy (get "kind" backend)
  if decisions.backendUnavailable = .verify ∧ PyEq kind (.str "error") then
    verifyHealth
      "Backend observation was unavailable, but independent verification established health without mutation."
      "Backend observation was unavailable and independent verification did not establish health. No repair was attempted."
  else
    finish "escalated"
      "Required Service or direct-backend evidence is unavailable or outside the permitted repair scope."

/-- `execute`. -/
def execute : Program Json := do
  match ← query .terminal with
  | some claim => return .obj claim
  | none =>
      let callCount : ℕ ← query .callCount
      if callCount ≠ 0 then
        ofPy (.error (.valueError "Runbook requires a fresh workspace; mid-run resumption is unsupported"))
      else
        let observation ← call "observe_service" []
        let backend ← call "probe_backend" []
        let application ← call "probe_application" []
        match ← ofPy (serviceScope observation) with
        | none =>
            finish "escalated"
              "Required Service or direct-backend evidence is unavailable or outside the permitted repair scope."
        | some scope => match ← ofPy (backend? backend) with
            | none => withoutBackend decisions backend
            | some b => diagnose decisions observation application scope b

end

/-- `run`. -/
def run (verificationFallback boundedRefresh : Bool) : Program Json :=
  execute ⟨if verificationFallback then .verify else .escalate, .repair,
    if boundedRefresh then .refresh else .escalate⟩

end AutonomyLab.Runbook
