import AutonomyLab.Broker.Proposal
import AutonomyLab.Agent.State

/-!
# What is checked of a function call

The calls of a response are checked before any of them is carried out: against the
declarations of the tools, and as a sequence.

* `schemas` — the tools of a run and the schemas of their arguments.
* `validateSchema` — arguments against a schema.
* `checkCall`, `checkCalls` — the calls of a response.
* `IncidentState.modelValidate`, `checkIncident` — the arguments of `record_incident`.
-/

namespace AutonomyLab.Agent

open Json

/-! ## Declarations -/

def externalTools : List String := ["observe_service", "probe_backend", "probe_application",
  "observe_events", "propose_repair", "get_operation", "verify_recovery", "finish"]

def maxCallsPerTurn : ℕ := 8

def incidentDeclaration : Json :=
  let texts (bound : ℤ) : Json :=
    .obj [("type", .str "ARRAY"), ("items", .obj [("type", .str "STRING")]), ("maxItems", .int bound)]
  .obj [("name", .str "record_incident"),
    ("description", .str
      "Save current hypotheses, observed evidence IDs, unresolved operations, and next step."),
    ("parameters", .obj [("type", .str "OBJECT"),
      ("properties", .obj [("hypotheses", texts 10), ("evidence_ids", texts 100),
        ("unresolved_operations", texts 100),
        ("next_step", .obj [("type", .str "STRING"), ("maxLength", .int 1000)])]),
      ("required", .arr [.str "hypotheses", .str "evidence_ids", .str "unresolved_operations",
        .str "next_step"])])]

/-- `set(values) <= texts`, for values that may have no hash. -/
def subsetOf (texts : List String) (values : List Json) : Except PyError Bool :=
  if values.all isHashable then .ok (values.all fun value => texts.any fun s => value = .str s)
  else .error .typeError

/-- `self.declarations`. -/
def declarationsOf (contract : Contract) (variant : Variant) : Except PyError (List Json) := do
  let items ← iterate contract.externalDeclarations
  let names ← items.mapM (subscript "name")
  let known ← subsetOf externalTools names
  unless names.Nodup ∧ known do throw (.valueError "invalid toolbox declarations")
  if names.contains (.str "propose_repair") && !names.contains (.str "get_operation") then
    throw (.valueError "propose_repair requires get_operation for recovery")
  return match variant with
    | .basic => items
    | .structured => items ++ [incidentDeclaration]

/-- `self.schemas`. -/
def schemas (declarations : List Json) : Except PyError Dict :=
  declarations.mapM fun item => do
    match ← item.subscript "name" with
    | .str name => return (name, ← getD "parameters" (.obj []) item)
    | _ => throw .typeError

/-! ## Schemas -/

/-- `bound <= n` or `n <= bound`, where there is a bound. -/
def bounded (le : ℚ → Bool) (bound : Option Json) : Except PyError Bool :=
  match bound with
  | none => .ok true
  | some value => do
      match ← numeric value with
      | .inl n => return le n
      | .inr q => return le q

/-- `schema.get(low, …) <= n <= schema.get(high, …)`. -/
def inRange (low high : String) (n : ℚ) (schema : Json) : Except PyError Bool :=
  allTrue [bounded (fun b => b ≤ n) (schema.field? low), bounded (fun b => n ≤ b) (schema.field? high)]

/-- `value in container`. -/
def inContainer (value : Json) : Json → Except PyError Bool
  | .arr xs => .ok (isIn value xs)
  | .obj fs => if value.isHashable then .ok (fs.any fun p => value = .str p.1) else .error .typeError
  | .str s => match value with
      | .str t => .ok (decide (t.toList <:+: s.toList))
      | _ => .error .typeError
  | _ => .error .typeError

/-- `valid.get(expected, False)`. -/
def hasType (expected : String) (value : Json) : Bool :=
  match value with
  | .obj _ => expected = "OBJECT"
  | .arr _ => expected = "ARRAY"
  | .str _ => expected = "STRING"
  | .int _ => expected = "INTEGER" || expected = "NUMBER"
  | .float _ => expected = "NUMBER"
  | .bool _ => expected = "BOOLEAN"
  | .null => expected = "NULL"

/-- The type of a value, and its place in an enumeration. -/
def checkKind (value schema : Json) : Except PyError Unit := do
  let expected ← match ← getD "type" (.str "") schema with
    | .str s => pure s.toUpper
    | _ => throw .attributeError
  if expected ≠ "" ∧ hasType expected value = false then
    throw (.valueError "invalid argument type")
  match schema.field? "enum" with
  | none => pure ()
  | some options => unless ← inContainer value options do throw (.valueError "invalid argument enum")

/-- The names of an object. -/
def checkNames (fs : Dict) (schema : Json) : Except PyError Unit := do
  let required ← iterate (← getD "required" (.arr []) schema)
  unless ← subsetOf (fs.map Prod.fst) required do throw (.valueError "missing required arguments")
  if schema.field? "additionalProperties" = some (.bool false) then
    let properties ← iterate (← getD "properties" (.obj []) schema)
    unless properties.all isHashable do throw .typeError
    unless fs.all fun p => isIn (.str p.1) properties do throw (.valueError "unexpected arguments")

mutual

/-- `_validate_schema`. -/
def validateSchema (value schema : Json) : Except PyError Unit := do
  checkKind value schema
  match value with
  | .obj fs =>
      checkNames fs schema
      validateMembers fs (← getD "properties" (.obj []) schema)
  | .arr xs =>
      unless ← inRange "minItems" "maxItems" xs.length schema do
        throw (.valueError "invalid array size")
      validateItems xs ((schema.field? "items").getD (.obj []))
  | .str s =>
      unless ← inRange "minLength" "maxLength" s.length schema do
        throw (.valueError "invalid text length")
  | .int n =>
      unless ← inRange "minimum" "maximum" n schema do throw (.valueError "invalid numeric range")
  | .float q =>
      unless ← inRange "minimum" "maximum" q schema do throw (.valueError "invalid numeric range")
  | .bool _ | .null => pure ()

def validateItems : List Json → Json → Except PyError Unit
  | [], _ => pure ()
  | x :: xs, schema => do
      validateSchema x schema
      validateItems xs schema

def validateMembers : List (String × Json) → Json → Except PyError Unit
  | [], _ => pure ()
  | (k, v) :: fs, properties => do
      if ← properties.contains k then validateSchema v (← properties.subscript k)
      validateMembers fs properties

end

/-! ## The calls of a response -/

/-- A call that is well formed and named in `tools`. -/
def call? (tools : Dict) : Json → Except PyError Call
  | .obj members =>
      match hname : members.lookup "name" with
      | some (.str name) =>
          if (tools.lookup name).isNone then throw (.valueError "invalid function call")
          else match hargs : members.lookup "args" with
          | some (.obj args) =>
              if hid : ∀ v, members.lookup "id" = some v → v.isText = true then
                return ⟨members, name, args, hname, hargs, hid⟩
              else throw (.valueError "invalid function ID")
          | _ => throw (.valueError "invalid function call")
      | some (.arr _) | some (.obj _) => throw .typeError
      | _ => throw (.valueError "invalid function call")
  | _ => throw (.valueError "invalid function call")

/-- A part of a response as a call, if it is one. -/
def checkCall (tools : Dict) (part : Json) : Except PyError (Option Call) := do
  unless part.isDict do throw (.valueError "invalid content part")
  match part.field? "functionCall" with
  | none => return none
  | some value => do
      let call ← call? tools value
      validateSchema (.obj call.args) ((tools.lookup call.name).getD .null)
      if call.name = "propose_repair" then
        match call.args.lookup "operation_id" with
        | some (.str s) =>
            if s.toList.all Broker.isStripped then throw (.valueError "repair requires operation ID")
        | _ => throw (.valueError "repair requires operation ID")
      return some call

/-- The calls among the parts of a response. -/
def checkCalls (tools : Dict) (parts : List Json) : Except PyError (List Call) := do
  let calls := (← parts.mapM (checkCall tools)).reduceOption
  if maxCallsPerTurn < calls.length ∨ calls.dropLast.any (fun call => call.name = "finish") then
    throw (.valueError "invalid function call sequence")
  unless (calls.filterMap Call.id?).Nodup do throw (.valueError "duplicate function call IDs")
  return calls

/-! ## The incident state -/

/-- A list of strings read strictly, with at most `bound` entries. -/
def texts? (bound : ℕ) : Json → Option (List String)
  | .arr xs => do
      guard (xs.length ≤ bound)
      xs.mapM fun
        | .str s => some s
        | _ => none
  | _ => none

/-- `IncidentState.model_validate`. -/
def IncidentState.modelValidate (args : Dict) : Option IncidentState := do
  -- extra fields are forbidden
  guard (args.all fun p => ["hypotheses", "evidence_ids", "unresolved_operations", "next_step"].contains p.1)
  let nextStep ← match ← args.lookup "next_step" with
    | .str s => if s.length ≤ 1000 then some s else none
    | _ => none
  return {
    hypotheses := ← texts? 10 (← args.lookup "hypotheses")
    evidenceIds := ← texts? 100 (← args.lookup "evidence_ids")
    unresolvedOperations := ← texts? 100 (← args.lookup "unresolved_operations")
    nextStep := nextStep }

/-- The observations that have been issued. -/
def observed (records : List ToolRecord) : Except PyError (List Json) :=
  records.mapM fun record =>
    let value := (record.result.lookup "observation_id").getD .null
    if value.isHashable then .ok value else .error .typeError

/-- The incident state that `record_incident` saves; `none` is a rejection. -/
def checkIncident (records : List ToolRecord) (args : Dict) : Except PyError (Option IncidentState) :=
  match IncidentState.modelValidate args with
  | none => .ok none
  | some incident =>
      if incident.hypotheses.any (fun s => 500 < s.length) ∨
          (incident.evidenceIds ++ incident.unresolvedOperations).any
            (fun s => s = "" ∨ 253 < s.length) then .ok none
      else do
        let issued ← observed records
        return if incident.evidenceIds.all fun s => issued.contains (.str s) then some incident else none

end AutonomyLab.Agent
