import AutonomyLab.Broker.Proposal

/-!
# The tools and their arguments

The tools a decision actor may call, and what is accepted as their arguments.

* `Tool`, `tool?` — `TOOL_MODELS`, and the tool a name stands for.
* `FinishArguments` — a terminal claim; `modelValidate_modelDump` says that a claim
  that is written reads back as what it was.
* `validate` — the arguments of a call, read strictly.
-/

namespace AutonomyLab.Toolbox

open Json Broker

/-- The keys of `TOOL_MODELS`. -/
inductive Tool where
  | observeService
  | probeBackend
  | probeApplication
  | observeEvents
  | proposeRepair
  | getOperation
  | verifyRecovery
  | finish
  deriving DecidableEq, Repr

namespace Tool

def name : Tool → String
  | .observeService => "observe_service"
  | .probeBackend => "probe_backend"
  | .probeApplication => "probe_application"
  | .observeEvents => "observe_events"
  | .proposeRepair => "propose_repair"
  | .getOperation => "get_operation"
  | .verifyRecovery => "verify_recovery"
  | .finish => "finish"

def all : List Tool := [.observeService, .probeBackend, .probeApplication, .observeEvents,
  .proposeRepair, .getOperation, .verifyRecovery, .finish]

end Tool

/-- The tool a name stands for, if it is a name of one. -/
def tool? : Json → Option Tool
  | .str s => Tool.all.find? fun t => t.name = s
  | _ => none

/-- `source`. -/
def sourceOf (tool : Option Tool) : String :=
  match tool with
  | some t => t.name
  | none => "unknown_tool"

theorem sourceOf_eq_finish {tool : Option Tool} : sourceOf tool = "finish" ↔ tool = some .finish := by
  cases tool with
  | none => decide
  | some t => cases t <;> decide

/-! ## Fields -/

/-- A string with a length in the given bounds. -/
abbrev Text (lo hi : ℕ) : Type := { s : String // lo ≤ s.length ∧ s.length ≤ hi }

/-- A string read strictly. -/
def text? (lo hi : ℕ) : Json → Option (Text lo hi)
  | .str s => if h : lo ≤ s.length ∧ s.length ≤ hi then some ⟨s, h⟩ else none
  | _ => none

/-- `Identifier`; unlike the one of a proposal it may be blank. -/
abbrev Identifier : Type := Text 1 253

@[simp] theorem text?_str {lo hi : ℕ} (s : Text lo hi) : text? lo hi (.str s.1) = some s := by
  rw [text?, dif_pos s.2]

inductive Outcome where
  | resolved
  | healthy
  | escalated
  deriving DecidableEq, Repr

namespace Outcome

def name : Outcome → String
  | .resolved => "resolved"
  | .healthy => "healthy"
  | .escalated => "escalated"

/-- The `Literal` of the outcomes. -/
def parse? : Json → Option Outcome
  | .str s => [resolved, healthy, escalated].find? fun o => o.name = s
  | _ => none

@[simp] theorem parse?_str (o : Outcome) : parse? (.str o.name) = some o := by
  cases o <;> rfl

end Outcome

/-! ## Terminal claims -/

/-- `FinishArguments`. -/
structure FinishArguments where
  outcome : Outcome
  reason : Text 1 2000
  evidenceIds : { ids : List Identifier // ids.length ≤ 100 }

namespace FinishArguments

def fields : List String := ["outcome", "reason", "evidence_ids"]

def evidenceIds? : Json → Option { ids : List Identifier // ids.length ≤ 100 }
  | .arr xs => do
      let ids ← xs.mapM (text? 1 253)
      if h : ids.length ≤ 100 then some ⟨ids, h⟩ else none
  | _ => none

/-- `FinishArguments.model_validate`. -/
def modelValidate : Json → Option FinishArguments
  | .obj fs => do
      -- extra fields are forbidden
      guard (fs.all fun p => fields.contains p.1)
      return {
        outcome := ← Outcome.parse? (← fs.lookup "outcome")
        reason := ← text? 1 2000 (← fs.lookup "reason")
        evidenceIds := ← evidenceIds? (← fs.lookup "evidence_ids") }
  | _ => none

/-- The members of `model_dump`. -/
def dumped (f : FinishArguments) : List (String × Json) := [
  ("outcome", .str f.outcome.name), ("reason", .str f.reason.1),
  ("evidence_ids", .arr (f.evidenceIds.1.map fun s => .str s.1))]

theorem mapM_text? (l : List Identifier) :
    (l.map fun s => Json.str s.1).mapM (text? 1 253) = some l := by
  induction l with
  | nil => rfl
  | cons s l ih => rw [List.map_cons, List.mapM_cons, text?_str, ih]; rfl

theorem evidenceIds?_map (ids : { ids : List Identifier // ids.length ≤ 100 }) :
    evidenceIds? (.arr (ids.1.map fun s => .str s.1)) = some ids := by
  rw [evidenceIds?, mapM_text?]
  exact dif_pos ids.2

/-- **What is written reads back as what it was**, in whatever order its members are. -/
theorem modelValidate_of_lookup {f : FinishArguments} {fs : List (String × Json)}
    (h : ∀ k, fs.lookup k = f.dumped.lookup k) : modelValidate (.obj fs) = some f := by
  have hfields : (fs.all fun p => fields.contains p.1) = true := by
    rw [List.all_eq_true]
    intro p hp
    have hsome : (fs.lookup p.1).isSome := List.lookup_isSome_iff.2 ⟨p, hp, beq_self_eq_true _⟩
    rw [h, List.lookup_isSome_iff] at hsome
    obtain ⟨q, hq, hqp⟩ := hsome
    rw [beq_iff_eq] at hqp
    simp only [dumped, List.mem_cons, List.not_mem_nil, or_false] at hq
    rw [hqp]
    rcases hq with rfl | rfl | rfl <;> rfl
  have hout : fs.lookup "outcome" = some (.str f.outcome.name) := h _
  have hreason : fs.lookup "reason" = some (.str f.reason.1) := h _
  have hids : fs.lookup "evidence_ids" = some (.arr (f.evidenceIds.1.map fun s => .str s.1)) := h _
  rw [modelValidate, hfields, hout, hreason, hids]
  simp only [guard, if_true, Option.bind_eq_bind, Option.bind_some, Option.pure_def,
    Outcome.parse?_str, text?_str, evidenceIds?_map]

end FinishArguments

/-! ## Arguments -/

/-- Validated arguments, as the models of the tools have them. -/
inductive Arguments where
  | nothing
  | operation (operationId : Identifier)
  | proposal (p : Proposal)
  | finish (f : FinishArguments)

/-- `OperationArguments.model_validate`. -/
def operationArguments? : Json → Option Identifier
  | .obj fs => do
      guard (fs.all fun p => p.1 = "operation_id")
      text? 1 253 (← fs.lookup "operation_id")
  | _ => none

/-- `TOOL_MODELS[name].model_validate(args)`. -/
def Tool.validate (tool : Tool) (args : Json) : Option Arguments :=
  match tool with
  | .proposeRepair => (Proposal.modelValidate args).map .proposal
  | .getOperation => (operationArguments? args).map .operation
  | .finish => (FinishArguments.modelValidate args).map .finish
  | _ => if args = .obj [] then some .nothing else none

/-- The evidence ids of a proposal or a claim. -/
def Arguments.evidenceIds : Arguments → List String
  | .proposal p => p.evidenceIds.1.map fun s => s.1
  | .finish f => f.evidenceIds.1.map fun s => s.1
  | _ => []

/-- Whether a proposal belongs to another run. -/
def Arguments.otherRun (run : String) : Arguments → Bool
  | .proposal p => p.runId.1 ≠ run
  | _ => false

end AutonomyLab.Toolbox
