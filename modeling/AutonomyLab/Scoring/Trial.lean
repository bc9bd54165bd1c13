import AutonomyLab.Broker.Proposal
import AutonomyLab.Toolbox.Evidence

/-!
# The records of a trial

What a trial is scored on: the claim of the actor, the verdict of the final verification,
the records of the operation journal, and the observations in the order of the evidence
log.

* `Observation`, `Claim`, `Trial` — records that have passed validation.
* `validate` — the checks, and the records read by them.
-/

namespace AutonomyLab.Scoring

open Json

/-- A `dict`. -/
abbrev Dict : Type := List (String × Json)

/-- `d.get(key)`. -/
def fetch (key : String) (d : Dict) : Json := (d.lookup key).getD .null

def VERDICTS : List String := ["verified_success", "verified_failure", "indeterminate"]

def STATUSES : List String := ["prepared", "dispatching", "acknowledged", "uncertain", "rejected"]

def VARIANTS : List String := ["runbook", "runbook_fallback", "basic", "structured", "no_agent",
  "program", "program_adverse", "desired_state"]

def EXPECTED : List String := ["repair", "healthy", "escalate", "reconcile", "reconcile_escalate"]

/-- An entry of the evidence log. -/
structure Observation where
  observationId : String
  source : String
  payload : Dict
  runId : String
  /-- The instant of its timestamp. -/
  time : ℤ
  deriving DecidableEq

structure Claim where
  outcome : String
  reason : String
  evidenceIds : List String
  deriving DecidableEq

/-- `operation["operation_id"]`, which is a string. -/
def operationId (operation : Dict) : String :=
  match fetch "operation_id" operation with
  | .str s => s
  | _ => ""

/-- The arguments of `score_trial`, after `_validate`. -/
structure Trial where
  claim : Option Claim
  verdict : Option String
  operations : List Dict
  observations : List Observation
  operationsNodup : (operations.map operationId).Nodup
  nodup : (observations.map Observation.observationId).Nodup
  deriving DecidableEq

inductive Failure where
  | python (e : PyError)
  /-- `pydantic.ValidationError`. -/
  | validationError
  deriving DecidableEq

def refuse {α : Type} (message : String) : Except Failure α := .error (.python (.valueError message))

/-- How the platform reads a timestamp. -/
abbrev FromIsoFormat : Type := String → Except PyError Toolbox.Datetime

/-- `_time`. -/
def time (fromisoformat : FromIsoFormat) (value : Json) : Except Failure ℤ :=
  match value with
  | .str s => match fromisoformat (Toolbox.replaceZ s) with
      | .ok (.aware μs) => .ok μs
      | .ok (.naive _) => refuse "Observation timestamps must include a timezone"
      | .error (.valueError _) => refuse "Observation timestamps must be timezone-aware ISO strings"
      | .error e => .error (.python e)
  | _ => refuse "Observation timestamps must be timezone-aware ISO strings"

/-! ## The claim and the verdict -/

/-- A string that is not empty. -/
def text? : Json → Option String
  | .str s => if s ≠ "" then some s else none
  | _ => none

def claim? : Json → Option Claim
  | .obj fs => match fetch "outcome" fs, fetch "reason" fs, fetch "evidence_ids" fs with
      | .str outcome, .str reason, .arr ids => do
          guard (outcome ∈ ["resolved", "healthy", "escalated"])
          guard (¬ reason.toList.all Broker.isStripped)
          return ⟨outcome, reason, ← ids.mapM text?⟩
      | _, _, _ => none
  | _ => none

def validateClaim : Json → Except Failure (Option Claim)
  | .null => .ok none
  | claim => match claim? claim with
      | some c => .ok (some c)
      | none => refuse "Claim must have an outcome, reason, and evidence ID list"

def validateVerification : Json → Except Failure (Option String)
  | .obj fs => match fetch "verdict" fs with
      | .null => .ok none
      | .str s => if s ∈ VERDICTS then .ok (some s)
          else refuse "Verification must contain a known verdict or be missing"
      | _ => refuse "Verification must contain a known verdict or be missing"
  | _ => refuse "Verification must contain a known verdict or be missing"

/-! ## Operation records -/

/-- What a loop that looks for new ids keeps. -/
theorem nodup_cons_of_new {α : Type} {f : α → String} {x : α} {xs : List α} {ids : List String}
    (hx : f x ∉ ids) (hnodup : (xs.map f).Nodup) (hnew : ∀ y ∈ xs, f y ∉ f x :: ids) :
    ((x :: xs).map f).Nodup ∧ ∀ y ∈ x :: xs, f y ∉ ids := by
  refine ⟨?_, fun y hy => ?_⟩
  · rw [List.map_cons, List.nodup_cons]
    refine ⟨fun hmem => ?_, hnodup⟩
    obtain ⟨y, hy, heq⟩ := List.mem_map.1 hmem
    exact hnew y hy (heq ▸ List.mem_cons_self)
  · rcases List.mem_cons.1 hy with rfl | hy
    · exact hx
    · exact fun hmem => hnew y hy (List.mem_cons_of_mem _ hmem)

/-- The shape of an operation record. -/
def isOperation (fs : Dict) : Bool :=
  (text? (fetch "operation_id" fs)).isSome &&
  (match fetch "status" fs with | .str s => s ∈ STATUSES | _ => false) &&
  (match fs.lookup "reason" with | none | some (.str _) => true | some _ => false) &&
  (match fetch "request" fs with | .null | .obj _ => true | _ => false) &&
  (match fs.lookup "budget_reserved" with | none | some (.bool _) => true | some _ => false) &&
  (match fs.lookup "run_id" with | none | some (.str _) => true | some _ => false)

/-- One round of the loop over the operations; the runs the record names are returned. -/
def validateOperation (operation : Json) (ids : List String) :
    Except Failure ({ fs : Dict // operationId fs ∉ ids } × List String) :=
  match operation with
  | .obj fs =>
      if ¬ isOperation fs then refuse "Malformed operation record"
      else if h : operationId fs ∈ ids then refuse "Operation records must have unique IDs"
      else
        let runIds := (text? (fetch "run_id" fs)).toList
        match fetch "request" fs with
        | .null => .ok (⟨fs, h⟩, runIds)
        | value => match Broker.Proposal.modelValidate value with
            | none => .error .validationError
            | some request =>
                if request.operationId.1 ≠ operationId fs then
                  refuse "Operation request ID does not match its durable record"
                else if runIds.any (· ≠ request.runId.1) then
                  refuse "Operation request run does not match its durable record"
                else .ok (⟨fs, h⟩, request.runId.1 :: runIds)
  | _ => refuse "Malformed operation record"

/-- The loop over the operations, where `ids` are the ids it has seen. -/
def validateOperations (ids : List String) : List Json →
    Except Failure ({ fss : List Dict // (fss.map operationId).Nodup ∧
      ∀ fs ∈ fss, operationId fs ∉ ids } × List String)
  | [] => .ok (⟨[], List.nodup_nil, nofun⟩, [])
  | operation :: operations => do
      let (⟨fs, h⟩, runIds) ← validateOperation operation ids
      let (⟨rest, hnodup, hnew⟩, runIds') ← validateOperations (operationId fs :: ids) operations
      return (⟨fs :: rest, nodup_cons_of_new h hnodup hnew⟩, runIds ++ runIds')

/-! ## Observations -/

def observation? (fs : Dict) : Option (String × String × Dict × String) :=
  match text? (fetch "observation_id" fs), fetch "source" fs, fetch "payload" fs, text? (fetch "run_id" fs) with
  | some observationId, .str source, .obj payload, some runId =>
      some (observationId, source, payload, runId)
  | _, _, _, _ => none

/-- The members of a payload that are strings where they are there. -/
def payloadTexts : List String := ["reason", "error", "status", "verdict", "operation_id"]

def validateObservation (fromisoformat : FromIsoFormat) (observation : Json) :
    Except Failure Observation := do
  match observation with
  | .obj fs => match observation? fs with
      | some (observationId, source, payload, runId) =>
          let μs ← time fromisoformat (fetch "timestamp" fs)
          if payloadTexts.any fun key =>
              match payload.lookup key with | none | some (.str _) => false | some _ => true then
            refuse "Observation status, identity, and reason fields must be strings"
          else if match payload.lookup "request" with | none | some (.obj _) => false | some _ => true then
            refuse "Observation operation request must be a mapping"
          else .ok ⟨observationId, source, payload, runId, μs⟩
      | none => refuse "Malformed observation envelope"
  | _ => refuse "Malformed observation envelope"

/-- The loop over the observations, where `ids` are the ids it has seen. -/
def validateObservations (fromisoformat : FromIsoFormat) (ids : List String) : List Json →
    Except Failure { os : List Observation // (os.map Observation.observationId).Nodup ∧
      ∀ o ∈ os, o.observationId ∉ ids }
  | [] => .ok ⟨[], List.nodup_nil, nofun⟩
  | observation :: observations => do
      let o ← validateObservation fromisoformat observation
      if h : o.observationId ∈ ids then refuse "Observation records must have unique IDs"
      else
        let ⟨rest, hnodup, hnew⟩ ←
          validateObservations fromisoformat (o.observationId :: ids) observations
        return ⟨o :: rest, nodup_cons_of_new h hnodup hnew⟩

/-- `_validate`. -/
def validate (fromisoformat : FromIsoFormat) (expectedBehavior variant : String)
    (claim verification operations observations : Json) : Except Failure Trial := do
  if expectedBehavior ∉ EXPECTED then refuse "Unknown expected behavior"
  if variant ∉ VARIANTS then refuse "Unknown variant"
  let verdict ← validateVerification verification
  let claim ← validateClaim claim
  match operations, observations with
  | .arr operations, .arr observations =>
      let (⟨operations, hoperations, _⟩, runIds) ← validateOperations [] operations
      let ⟨observations, hnodup, _⟩ ← validateObservations fromisoformat [] observations
      if (runIds ++ observations.map Observation.runId).dedup.length > 1 then
        refuse "Scoring inputs must describe a single run"
      else return ⟨claim, verdict, operations, observations, hoperations, hnodup⟩
  | _, _ => refuse "Operations and observations must be lists"

end AutonomyLab.Scoring
