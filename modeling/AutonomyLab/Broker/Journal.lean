import AutonomyLab.Broker.Proposal
import AutonomyLab.Store.Table

/-!
# The operation journal

The tables of the journal and the transactions on them.  A transaction is a function
of the journal: it returns a value and the journal it commits, or raises and commits
nothing.

* `Row`, `Entry`, `Journal` — the three tables.  The text of a stored binding is kept
  as what decoding it gives, `none` where it cannot be decoded.
* `propose`, `recordConditions`, `rejectPrepared`, `claim`, `finish`, `reconcile` —
  the transactions that write.  The claim transaction asks for an authorization
  before it commits, so it is in two parts, `claimReason` and `claim`.
* `lookup`, `binding` — the reads.
-/

namespace AutonomyLab.Broker

open Json Contract Store

/-! ## Tables -/

inductive Status where
  | prepared
  | dispatching
  | acknowledged
  | rejected
  | uncertain
  deriving DecidableEq, Repr

def Status.text : Status → String
  | .prepared => "prepared"
  | .dispatching => "dispatching"
  | .acknowledged => "acknowledged"
  | .rejected => "rejected"
  | .uncertain => "uncertain"

/-- The names of journal events; a change of status is recorded under the status. -/
inductive EventName where
  | status (s : Status)
  | budgetReleased
  | conditionsRecorded
  | preflightUnavailable
  | reconciled
  deriving DecidableEq, Repr

def EventName.text : EventName → String
  | .status s => s.text
  | .budgetReleased => "budget_released"
  | .conditionsRecorded => "conditions_recorded"
  | .preflightUnavailable => "preflight_unavailable"
  | .reconciled => "reconciled"

/-- A row of `operations`. -/
structure Row where
  runId : String
  digest : String
  request : Json
  status : Status
  reason : String
  budgetReserved : Bool
  owner : Option String := none
  result : Option Json := none
  reconciliation : Option Json := none

/-- A row of `operation_events`; the sequence is the order of the rows. -/
structure Entry where
  operationId : String
  event : EventName
  details : List (String × Json)

structure Journal where
  operations : Table String Row
  events : List Entry
  contracts : Table String (Option Json)

/-- The exceptions that end a call, or that its handlers tell apart. -/
inductive BrokerError where
  | python (e : PyError)
  | validation
  | operationConflict
  | integrity
  | permission
  /-- `Refused`, with the reason given to `require`. -/
  | refused (reason : String)
  /-- `DispatchNotSent`. -/
  | dispatchNotSent (refusalUnavailable : Bool)
  /-- `PatchRejected`. -/
  | patchRejected (reason : String)
  /-- Any other exception, with the status codes it may carry. -/
  | other (name : String) (statusCode status responseStatusCode : Option ℤ)
  deriving DecidableEq, Repr

/-- `type(error).__name__`. -/
def BrokerError.name : BrokerError → String
  | .python e => e.name
  | .validation => "ValidationError"
  | .operationConflict => "OperationConflict"
  | .integrity => "IntegrityError"
  | .permission => "PermissionError"
  | .refused _ => "Refused"
  | .dispatchNotSent _ => "DispatchNotSent"
  | .patchRejected _ => "PatchRejected"
  | .other name _ _ _ => name

/-- The code of an API status error: the first one that is there and not zero. -/
def BrokerError.code : BrokerError → Option ℤ
  | .other _ statusCode status responseStatusCode =>
      [statusCode, status, responseStatusCode].findSome? fun code => code.filter (· ≠ 0)
  | _ => none

namespace Journal

/-- A file that has just been created. -/
def empty : Journal := ⟨∅, [], ∅⟩

def addEvent (id : String) (event : EventName) (details : List (String × Json)) (j : Journal) :
    Journal :=
  { j with events := j.events ++ [⟨id, event, details⟩] }

def updateRow (id : String) (f : Row → Row) (j : Journal) : Journal :=
  { j with operations := j.operations.update id f }

/-- `_used`. -/
def used (runId : String) (j : Journal) : ℕ :=
  j.operations.count fun _ row => row.runId = runId && row.budgetReserved

/-- `_binding`. -/
def binding (id : String) (j : Journal) : Json := ((j.contracts.find? id).join).getD .null

/-- The status of an operation. -/
def status? (id : String) (j : Journal) : Option Status := (j.operations.find? id).map Row.status

/-! ## Reads -/

/-- What `lookup` returns. -/
structure Operation where
  operationId : String
  row : Row
  status : Status
  reason : String
  journalStatus : Option Status
  budgetUsed : ℕ
  budgetLimit : ℕ

/-- `lookup`: a dispatch of another instance whose outcome is not recorded is shown as
uncertain. -/
def lookup (self : String) (policy : BrokerPolicy) (id : String) (j : Journal) :
    Except BrokerError Operation :=
  match j.operations.find? id with
  | none => .error (.python .keyError)
  | some row =>
      let foreign := row.status = .dispatching ∧ row.owner ≠ some self
      .ok {
        operationId := id
        row := row
        status := if foreign then .uncertain else row.status
        reason := if foreign then "dispatch_outcome_unrecorded" else row.reason
        journalStatus := if foreign then some .dispatching else none
        budgetUsed := j.used row.runId
        budgetLimit := policy.maxDispatches }

/-! ## Transactions -/

section
variable (P : Platform)

/-- The row `propose` inserts for a proposal that is new to the journal. -/
def newRow (policy : BrokerPolicy) (p : Proposal) (used : ℕ) : Row :=
  let reason := (policy.policyReason p).or
    (if policy.maxDispatches ≤ used then some "budget_exhausted" else none)
  { runId := p.runId.1
    digest := digest P p.modelDump
    request := p.modelDump
    status := if reason.isSome then .rejected else .prepared
    reason := reason.getD "intent_recorded"
    budgetReserved := reason.isNone }

/-- The transaction of `propose`; the value says whether the operation is left to be
resumed. -/
def propose (policy : BrokerPolicy) (p : Proposal) (j : Journal) :
    Except BrokerError (Bool × Journal) :=
  let id := p.operationId.1
  match j.operations.find? id with
  | some existing =>
      if existing.digest ≠ digest P p.modelDump then .error .operationConflict else .ok (false, j)
  | none =>
      if ¬ Contract.contracts.contains policy.operationContract then
        .error (.python (.valueError "Unknown operation contract"))
      else
        let row := newRow P policy p (j.used p.runId.1)
        match bindingFor P p.modelDump (.str policy.operationContract) .null with
        | .error e => .error (.python e)
        | .ok binding =>
            match j.operations.insert id row, j.contracts.insert id (some binding) with
            | some operations, some contracts =>
                .ok (row.budgetReserved,
                  { (j.addEvent id (.status row.status) [("reason", .str row.reason)]) with
                    operations, contracts })
            | _, _ => .error .integrity

/-- `_contract_reason`. -/
def contractReason (policy : BrokerPolicy) (p : Proposal) (binding : Json) : Option String :=
  let check : Except PyError (Option String) := do
    validateBinding P p.modelDump binding
    let contractId ← subscript "contract_id" binding
    if ¬ PyEq contractId (.str policy.operationContract) then
      return some "operation_contract_changed"
    else do
      let snapshot ← subscript "snapshot" binding
      if snapshot ≠ .null then
        let _ ← patchForBinding P p.modelDump binding
      return none
  match check with
  | .ok reason => reason
  | .error _ => some "operation_binding_invalid"

/-- Whether the conditions of an operation may still be recorded. -/
def recordable (p : Proposal) (j : Journal) : Except PyError Bool := do
  let current := j.binding p.operationId.1
  validateBinding P p.modelDump current
  match j.status? p.operationId.1 with
  -- a row that is not there is subscripted as `None`
  | none => .error .typeError
  | some state =>
      if state = .prepared then
        let snapshot ← subscript "snapshot" current
        let contractId ← subscript "contract_id" current
        return snapshot = .null ∧ PyEq contractId (.str precise)
      else return false

/-- `_record_conditions`: the value is the binding in force. -/
def recordConditions (p : Proposal) (candidate : Json) (j : Journal) :
    Except BrokerError (Json × Journal) :=
  let id := p.operationId.1
  match recordable P p j with
  | .error e => .error (.python e)
  | .ok false =>
      -- another resume may already have recorded conditions; its immutable snapshot wins
      .ok (j.binding id, j)
  | .ok true => match subscript "binding_sha256" candidate with
      | .error e => .error (.python e)
      | .ok sum => .ok (candidate,
          { (j.addEvent id .conditionsRecorded [("binding_sha256", sum)]) with
            contracts := j.contracts.update id fun _ => some candidate })

end

/-- `_reject_prepared`. -/
def rejectPrepared (id : String) (reason : String) (expected : Option Json) (j : Journal) :
    Journal :=
  if expected.any fun binding => ¬ PyEq (j.binding id) binding then j
  else match j.status? id with
    | some .prepared =>
        ((j.updateRow id fun row =>
          { row with status := .rejected, reason := reason, budgetReserved := false }).addEvent id
            (.status .rejected) [("reason", .str reason)]).addEvent id
              .budgetReleased [("reason", .str reason)]
    | _ => j

/-- The checks of the claim transaction that come before the authorization. -/
def claimReason (P : Platform) (policy : BrokerPolicy) (id : String) (p : Proposal)
    (binding : Json) (j : Journal) : Option String :=
  let current := j.binding id
  (policy.policyReason p).or <| (contractReason P policy p current).or <|
    if ¬ PyEq current binding then some "operation_conditions_changed"
    else if policy.maxDispatches < j.used p.runId.1 then some "budget_revoked"
    else none

/-- The update the claim transaction commits; the value says whether a row changed. -/
def claim (self id : String) (reason : Option String) (j : Journal) : Bool × Journal :=
  match j.status? id with
  | some .prepared =>
      let status : Status := if reason.isSome then .rejected else .dispatching
      let j := (j.updateRow id fun row =>
        { row with
          status := status
          reason := reason.getD "dispatch_started"
          budgetReserved := reason.isNone
          owner := some self }).addEvent id (.status status)
            [("reason", .str (reason.getD "dispatch_started"))]
      (true, match reason with
        | some reason => j.addEvent id .budgetReleased [("reason", .str reason)]
        | none => j)
  | _ => (false, j)

/-- What a dispatch came to. -/
structure Outcome where
  status : Status
  reason : String
  result : Option Json := none

/-- `_finish`. -/
def finish (self id : String) (o : Outcome) (j : Journal) : Journal :=
  match j.operations.find? id with
  | some row =>
      if (row.status = .dispatching ∨ row.status = .uncertain) ∧ row.owner = some self then
        (j.updateRow id fun row =>
          { row with status := o.status, reason := o.reason, result := o.result }).addEvent id
            (.status o.status) [("reason", .str o.reason), ("result", o.result.getD .null)]
      else j
  | none => j

/-- The transaction of `reconcile`. -/
def reconcile (id : String) (observed : List (String × Json)) (j : Journal) : Journal :=
  (j.updateRow id fun row =>
    { row with
      reconciliation := some (.obj observed)
      status := if row.status = .dispatching then .uncertain else row.status
      reason := if row.status = .dispatching then "dispatch_outcome_unrecorded" else row.reason
      }).addEvent id .reconciled observed

end Journal

end AutonomyLab.Broker
