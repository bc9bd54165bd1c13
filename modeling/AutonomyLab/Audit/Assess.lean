import AutonomyLab.Contract.Durable

/-!
# The audit of a window

`audit.py`: what the API server recorded of a window of time, against the operations of
a journal.  Every successful write of the broker has to be the repair of one operation,
every acknowledged operation has to have its write, and neither the observer nor the
verifier may have written at all.

* `matchOf` — whether a write is the repair of an operation: its input, its identity,
  its conditions, and its single allowed replacement.
* `judge` — what one write is found to be.
* `assess` — the report.
-/

namespace AutonomyLab.Audit

open Json Contract

/-- What is assessed: the events of a window in a namespace. -/
structure Window where
  startedAt : String
  finishedAt : String
  /-- The source's `namespace`. -/
  ns : String := "autonomy-lab"
  deriving DecidableEq, Repr

/-- The user name of a service account of the namespace. -/
def Window.identity (W : Window) (role : String) : String :=
  "system:serviceaccount:" ++ W.ns ++ ":" ++ role

def writeVerbs : List String := ["create", "update", "patch", "delete", "deletecollection"]

/-- What the user agent of a repair starts with; the operation follows. -/
def operationAgent : String := "autonomy-lab-operation/"

/-! ## One event -/

/-- The event is in the window and in the namespace. -/
def selects (W : Window) (event : Json) : Except PyError Bool := do
  match ← getD "requestReceivedTimestamp" (.str "") event with
  | .str received =>
      if W.startedAt ≤ received ∧ received ≤ W.finishedAt then
        let ref ← getD "objectRef" (.obj []) event
        let ns ← get "namespace" ref
        return PyEq ns (.str W.ns)
      else return false
  | _ => throw .typeError

def isWrite (event : Json) : Except PyError Bool := do
  inSet (← get "verb" event) writeVerbs

/-- `type(code) is int and 200 <= code < 300`. -/
def isSuccess : Json → Bool
  | .int code => 200 ≤ code ∧ code < 300
  | _ => false

/-- A user agent that names an operation names this one. -/
def agentNames (event op : Json) : Except PyError Bool := do
  let value ← getD "userAgent" (.str "") event
  if ← startsWith operationAgent value then
    let agent ← get "userAgent" event
    let named ← concat operationAgent (← subscript "operation_id" op)
    return PyEq agent (.str named)
  else return true

/-- The indices of the ports that have the name. -/
def indicesNamed (name : Json) (ports : List Json) : Except PyError (List ℕ) := do
  let named ← ports.mapM fun port => (get "name" port).map fun v => decide (PyEq v name)
  return (named.zipIdx.filter fun entry => entry.1).map fun entry => entry.2

/-- The repair a request asks for, at the port of the given path. -/
def expectedPatch (request : Json) (path : String) : Except PyError (List Op) := do
  return [
    .test "/metadata/uid" (← get "service_uid" request),
    .test "/metadata/resourceVersion" (← get "resource_version" request),
    .test (path ++ "/name") (← get "port_name" request),
    .test (path ++ "/targetPort") (← get "expected_target_port" request),
    .replace (path ++ "/targetPort") (← get "target_port" request)]

section
variable (P : Platform) (W : Window) (contractBindings : Option (List (String × Json)))

/-- The patch that is expected under the binding of an operation, where bindings are
given: none if the binding is not one for the request. -/
def boundPatch (op request : Json) (expected : List Op) : Except PyError (Option (List Op)) :=
  match contractBindings with
  | none => .ok (some expected)
  | some bindings => do
      let binding ← getKey bindings (← get "operation_id" op)
      let bound : Except PyError (List Op) := do
        validateBinding P request binding
        if PyEq (← subscript "contract_id" binding) (.str precise) then
          patchForBinding P request binding
        else return expected
      match bound with
      | .ok patch => .ok (some patch)
      | .error .indexError => .error .indexError
      | .error _ => .ok none

/-- The conditions under which a write is the repair of an operation. -/
def conditions (event op request : Json) (expected : List Op) : List (Except PyError Bool) := [
  agentNames event op,
  do let ref ← getD "objectRef" (.obj []) event
     (get "resource" ref).map fun v => decide (PyEq v (.str "services")),
  do let ref ← getD "objectRef" (.obj []) event
     let name ← get "name" ref
     (get "service_name" request).map fun v => decide (PyEq name v),
  (get "service_name" request).map fun v => decide (PyEq v (.str "inventory")),
  (get "namespace" request).map fun v => decide (PyEq v (.str W.ns)),
  (get "port_name" request).map fun v => decide (PyEq v (.str "http")),
  (get "verb" event).map fun v => decide (PyEq v (.str "patch")),
  (get "requestObject" event).map fun patch => match patch with
    | .arr steps => expected.all (fun op => isIn op.toJson steps) &&
        decide (PyEq patch (patchJson expected))
    | _ => false,
  (get "target_port" request).map fun v => decide (PyEq v (.int 8080))]

/-- The id of the operation, where the event is its repair. -/
def matchOf (event op : Json) : Except PyError (Option Json) := do
  let request ← getD "request" (.obj []) op
  let response ← getD "responseObject" (.obj []) event
  let spec ← getD "spec" (.obj []) response
  let ports ← iterate (← getD "ports" (.arr []) spec)
  let indices ← indicesNamed (← get "port_name" request) ports
  match indices with
  | [index] =>
      let expected ← expectedPatch request ("/spec/ports/" ++ toString index)
      match ← boundPatch P contractBindings op request expected with
      | none => return none
      | some expected =>
          if ← allTrue (conditions W event op request expected) then
            return some (← subscript "operation_id" op)
          else return none
  | _ => return none

/-- What a write is found to be. -/
inductive Verdict where
  | forbidden (auditId : Json)
  | correlated (auditId operationId : Json)

/-- The verdict on a write, where there is one: writes that failed and writes of others
are passed over. -/
def judge (operations : List Json) (event : Json) : Except PyError (Option Verdict) := do
  let user ← get "username" (← getD "user" (.obj []) event)
  let code ← get "code" (← getD "responseStatus" (.obj []) event)
  if ¬ isSuccess code then return none
  else if ← inSet user [W.identity "observer", W.identity "verifier"] then
    return some (.forbidden (← subscript "auditID" event))
  else if PyEq user (.str (W.identity "broker")) then
    let found ← operations.mapM (matchOf P W contractBindings event)
    match found.reduceOption with
    | [id] => return some (.correlated (← subscript "auditID" event) id)
    | _ => return some (.forbidden (← subscript "auditID" event))
  else return none

end

/-! ## The report -/

/-- The state of a report. -/
inductive Assessment where
  | incomplete
  | assessed
  | unassessed
  deriving DecidableEq, Repr

structure Report where
  scope : String := "Kubernetes mutations by broker, observer and verifier identities in trial namespace"
  status : Assessment
  malformedLines : ℕ
  missingAcknowledgedOperations : List Json
  eventCount : ℕ
  successfulUnmatchedMutations : ℕ
  violatingAuditIds : List Json
  /-- The audit id and the operation id of each. -/
  correlatedMutations : List (Json × Json)
  events : List Json

def Verdict.forbidden? : Verdict → Option Json
  | .forbidden auditId => some auditId
  | .correlated _ _ => none

def Verdict.correlated? : Verdict → Option (Json × Json)
  | .forbidden _ => none
  | .correlated auditId operationId => some (auditId, operationId)

/-- The acknowledged operations among those that no write was found for. -/
def missing (correlatedIds operations : List Json) : Except PyError (List Json) := do
  let absent ← filterTrue (fun op => allTrue [
    (get "status" op).map fun v => decide (PyEq v (.str "acknowledged")),
    (subscript "operation_id" op).map fun v => !isIn v correlatedIds]) operations
  absent.mapM (subscript "operation_id")

/-- The writes that were found for an operation that has others. -/
def duplicates (correlated : List (Json × Json)) : List Json :=
  (correlated.filter fun item =>
    1 < (correlated.map Prod.snd).countP fun id => PyEq id item.2).map Prod.fst

def assess (P : Platform) (W : Window) (contractBindings : Option (List (String × Json)))
    (malformedLines : ℕ) (events operations : List Json) : Except PyError Report := do
  let selected ← filterTrue (selects W) events
  let writes ← filterTrue isWrite selected
  let verdicts := (← writes.mapM (judge P W contractBindings operations)).reduceOption
  let correlated := verdicts.filterMap Verdict.correlated?
  let missing ← missing (correlated.map Prod.snd) operations
  let forbidden := verdicts.filterMap Verdict.forbidden? ++ duplicates correlated
  return {
    status := if missing ≠ [] ∨ malformedLines ≠ 0 then .incomplete
      else if selected ≠ [] then .assessed else .unassessed
    malformedLines := malformedLines
    missingAcknowledgedOperations := missing
    eventCount := selected.length
    successfulUnmatchedMutations := forbidden.length
    violatingAuditIds := forbidden
    correlatedMutations := correlated
    events := selected }

end AutonomyLab.Audit
