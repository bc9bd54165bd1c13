import AutonomyLab.Contract.Durable

/-!
# Proposals and policies

The data a broker decides on: the one action it can be asked for, and the trusted
policy it is asked under.

* `Proposal` — a repair of one port of one service.  Its fields carry their own
  bounds (`Identifier`, `Port`, `EvidenceIds`), so every proposal there is has
  passed validation.
* `Proposal.modelValidate`, `Proposal.modelDump` — reading and writing a proposal;
  `modelValidate_modelDump` says that what is written reads back as what it was.
* `BrokerPolicy` — with `policyReason`, the first reason for which a policy refuses
  a proposal.
-/

namespace AutonomyLab.Broker

open Json

/-! ## Validated fields -/

/-- The characters the pattern `\S` excludes. -/
def isSpace (c : Char) : Bool :=
  let n := c.toNat
  9 ≤ n && n ≤ 13 || 8192 ≤ n && n ≤ 8202 ||
    [32, 133, 160, 5760, 8232, 8233, 8239, 8287, 12288].contains n

/-- The characters `strip` takes away, which are a few more. -/
def isStripped (c : Char) : Bool := isSpace c || 28 ≤ c.toNat && c.toNat ≤ 31

/-- `Identifier`. -/
abbrev Identifier : Type :=
  { s : String // 1 ≤ s.length ∧ s.length ≤ 253 ∧ s.toList.any fun c => !isSpace c }

/-- `Port`. -/
abbrev Port : Type := { n : ℤ // 1 ≤ n ∧ n ≤ 65535 }

abbrev EvidenceIds : Type := { ids : List Identifier // 1 ≤ ids.length ∧ ids.length ≤ 100 }

/-- A string read strictly. -/
def identifier? : Json → Option Identifier
  | .str s => if h : 1 ≤ s.length ∧ s.length ≤ 253 ∧ s.toList.any fun c => !isSpace c then
      some ⟨s, h⟩ else none
  | _ => none

/-- An integer read strictly: a boolean is none. -/
def port? : Json → Option Port
  | .int n => if h : 1 ≤ n ∧ n ≤ 65535 then some ⟨n, h⟩ else none
  | _ => none

def evidenceIds? : Json → Option EvidenceIds
  | .arr xs => do
      let ids ← xs.mapM identifier?
      if h : 1 ≤ ids.length ∧ ids.length ≤ 100 then some ⟨ids, h⟩ else none
  | _ => none

@[simp] theorem identifier?_str (s : Identifier) : identifier? (.str s.1) = some s := by
  simp [identifier?, s.2]

@[simp] theorem port?_int (n : Port) : port? (.int n.1) = some n := by
  simp [port?, n.2]

/-- Evidence ids as they are written. -/
def EvidenceIds.toJson (ids : EvidenceIds) : Json := .arr (ids.1.map fun s => .str s.1)

theorem mapM_identifier? (l : List Identifier) :
    (l.map fun s => Json.str s.1).mapM identifier? = some l := by
  induction l with
  | nil => rfl
  | cons s l ih => rw [List.map_cons, List.mapM_cons, identifier?_str, ih]; rfl

@[simp] theorem evidenceIds?_toJson (ids : EvidenceIds) : evidenceIds? ids.toJson = some ids := by
  rw [EvidenceIds.toJson, evidenceIds?, mapM_identifier?]
  exact dif_pos ids.2

/-! ## Proposals -/

/-- The complete allowed action; arbitrary patches are forbidden. -/
structure Proposal where
  runId : Identifier
  operationId : Identifier
  /-- The source's `namespace`. -/
  ns : Identifier
  serviceName : Identifier
  serviceUid : Identifier
  resourceVersion : Identifier
  portName : Identifier
  expectedTargetPort : Port
  targetPort : Port
  evidenceIds : EvidenceIds
  deriving DecidableEq

namespace Proposal

def fields : List String := [
  "run_id", "operation_id", "namespace", "service_name", "service_uid", "resource_version",
  "port_name", "expected_target_port", "target_port", "evidence_ids"]

/-- `Proposal.model_validate`. -/
def modelValidate : Json → Option Proposal
  | .obj fs => do
      -- extra fields are forbidden
      guard (fs.all fun p => fields.contains p.1)
      return {
        runId := ← identifier? (← fs.lookup "run_id")
        operationId := ← identifier? (← fs.lookup "operation_id")
        ns := ← identifier? (← fs.lookup "namespace")
        serviceName := ← identifier? (← fs.lookup "service_name")
        serviceUid := ← identifier? (← fs.lookup "service_uid")
        resourceVersion := ← identifier? (← fs.lookup "resource_version")
        portName := ← identifier? ((fs.lookup "port_name").getD (.str "http"))
        expectedTargetPort := ← port? (← fs.lookup "expected_target_port")
        targetPort := ← port? (← fs.lookup "target_port")
        evidenceIds := ← evidenceIds? (← fs.lookup "evidence_ids") }
  | _ => none

/-- `model_dump`. -/
def modelDump (p : Proposal) : Json := .obj [
  ("run_id", .str p.runId.1), ("operation_id", .str p.operationId.1), ("namespace", .str p.ns.1),
  ("service_name", .str p.serviceName.1), ("service_uid", .str p.serviceUid.1),
  ("resource_version", .str p.resourceVersion.1), ("port_name", .str p.portName.1),
  ("expected_target_port", .int p.expectedTargetPort.1), ("target_port", .int p.targetPort.1),
  ("evidence_ids", p.evidenceIds.toJson)]

/-- **What is written reads back as what it was.** -/
theorem modelValidate_modelDump (p : Proposal) : modelValidate p.modelDump = some p := by
  simp [modelValidate, modelDump, lookup_cons_eq, fields]

end Proposal

/-! ## Policies -/

/-- Trusted controller policy.  Changing `enabled` revokes future dispatch. -/
structure BrokerPolicy where
  runId : String
  ns : String
  serviceName : String
  serviceUid : String
  allowedTargetPorts : List ℤ := [8080]
  maxDispatches : ℕ := 1
  enabled : Bool := true
  portName : String := "http"
  operationContract : String := Contract.legacy
  deriving DecidableEq, Repr

namespace BrokerPolicy

/-- `__post_init__`; the bound on `max_dispatches` is in its type. -/
def postInit (policy : BrokerPolicy) : Except PyError Unit :=
  if ¬ Contract.contracts.contains policy.operationContract then
    .error (.valueError "Unknown operation contract")
  else if policy.allowedTargetPorts = [] ∨
      policy.allowedTargetPorts.any (fun port => !decide (1 ≤ port ∧ port ≤ 65535)) then
    .error (.valueError "allowed_target_ports must contain valid integer ports")
  else if [policy.runId, policy.ns, policy.serviceName, policy.serviceUid, policy.portName].any
      (fun value => value.toList.all isStripped) then
    .error (.valueError "policy identity fields must be nonempty strings")
  else .ok ()

/-- The identity fields, as a proposal and as a policy have them. -/
def scope (policy : BrokerPolicy) (p : Proposal) : List (String × String × String) := [
  ("run_id", p.runId.1, policy.runId), ("namespace", p.ns.1, policy.ns),
  ("service_name", p.serviceName.1, policy.serviceName),
  ("service_uid", p.serviceUid.1, policy.serviceUid), ("port_name", p.portName.1, policy.portName)]

/-- `_scope_reason`. -/
def scopeReason (policy : BrokerPolicy) (p : Proposal) : Option String :=
  ((policy.scope p).find? fun f => f.2.1 ≠ f.2.2).map fun f => "scope_mismatch:" ++ f.1

/-- `_policy_reason`. -/
def policyReason (policy : BrokerPolicy) (p : Proposal) : Option String :=
  if ¬ Contract.contracts.contains policy.operationContract then some "operation_contract_unknown"
  else if ¬ policy.enabled then some "policy_disabled"
  else match policy.scopeReason p with
    | some reason => some reason
    | none =>
        if ¬ policy.allowedTargetPorts.contains p.targetPort.1 then some "target_port_not_allowed"
        else if p.targetPort = p.expectedTargetPort then some "no_change"
        else none

/-- A policy that has no objection is about the run of the proposal. -/
theorem runId_of_policyReason {policy : BrokerPolicy} {p : Proposal}
    (h : policy.policyReason p = none) : policy.runId = p.runId.1 := by
  unfold policyReason at h
  split at h
  · cases h
  · split at h
    · cases h
    · split at h
      · cases h
      · rename_i hs
        rw [scopeReason, Option.map_eq_none_iff, List.find?_eq_none] at hs
        have hrun := hs ("run_id", p.runId.1, policy.runId) List.mem_cons_self
        rw [decide_eq_true_eq, not_not] at hrun
        exact hrun.symm

end BrokerPolicy

end AutonomyLab.Broker
