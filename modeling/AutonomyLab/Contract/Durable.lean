import AutonomyLab.Contract.Operation
import AutonomyLab.Json.Encode

/-!
# Durable bindings

`durable_contract.py`: an operation is bound to the conditions under which it may
be sent.  A binding names the operation, the digest of its request and the contract
in force, and, once they have been recorded, the conditions: a snapshot of the
service.  It carries its own digest, so that what is read back from the journal can
be checked against the request alone.

* `bindingFor`, `validateBinding` — building a binding, and checking one.
* `patchForBinding` — the patch of a binding whose conditions have been recorded.
* `validate_bindingFor` — every binding that is built is valid for its request.
* `snapshot_of_patchForBinding` — only recorded conditions have a patch.
-/

namespace AutonomyLab

/-- What the platform computes: hashes, and the text of a floating-point number. -/
structure Platform where
  /-- `hashlib.sha256(text.encode()).hexdigest()`. -/
  sha256 : String → String
  reprFloat : ℚ → String

namespace Contract

open Json

def legacy : String := "service-resource-version-v1"

def precise : String := "service-routing-heartbeat-v1"

/-- `CONTRACTS`. -/
def contracts : List String := [legacy, precise]

section
variable (P : Platform)

def encoded (value : Json) : String := dumps P.reprFloat .compact value

def digest (value : Json) : String := P.sha256 (encoded P value)

def bindingFor (request contractId snapshot : Json) : Except PyError Json :=
  if ¬ contracts.any (fun c => PyEq contractId (.str c)) ∨
      (PyEq contractId (.str legacy) ∧ snapshot ≠ .null) then
    .error (.valueError "Invalid operation contract")
  else do
    let operationId ← subscript "operation_id" request
    let value := [("operation_id", operationId), ("request_sha256", .str (digest P request)),
      ("contract_id", contractId), ("snapshot", snapshot)]
    return .obj (value ++ [("binding_sha256", .str (digest P (.obj value)))])

def validateBinding (request binding : Json) : Except PyError Unit :=
  let mismatch : PyError := .valueError "Operation conditions do not match their durable binding"
  if ¬ binding.isDict then .error mismatch
  else do
    let contractId ← get "contract_id" binding
    let snapshot ← get "snapshot" binding
    let expected ← bindingFor P request contractId snapshot
    if PyEq binding expected then .ok () else .error mismatch

/-- The action the precise contract covers. -/
def preciseAction : List (String × Json) := [
  ("namespace", .str "autonomy-lab"), ("service_name", .str "inventory"),
  ("port_name", .str "http"), ("expected_target_port", .int 9999), ("target_port", .int 8080)]

/-- The members of the service's metadata that a proposal repeats. -/
def sharedFields : List (String × String) := [
  ("uid", "service_uid"), ("resourceVersion", "resource_version"),
  ("namespace", "namespace"), ("name", "service_name")]

/-- Recognize this complete versioned action, never a partial patch allowlist. -/
def patchForBinding (request binding : Json) : Except PyError (List Op) := do
  validateBinding P request binding
  let snapshot ← subscript "snapshot" binding
  let contractId ← subscript "contract_id" binding
  if ¬ PyEq contractId (.str precise) ∨ ¬ snapshot.isDict then
    .error (.valueError "Precise conditions have not been recorded")
  else do
    -- type and value have to agree, which is equality of representations
    preciseAction.forM fun p => do
      let value ← get p.1 request
      if value = p.2 then .ok () else .error (.valueError "Action outside the precise contract")
    sharedFields.forM fun p => do
      let metadata ← getD "metadata" (.obj []) snapshot
      let found ← get p.1 metadata
      let expected ← subscript p.2 request
      if PyEq found expected then .ok ()
      else .error (.valueError "Conditions differ from the original proposal")
    repairPatch snapshot .contract

end

/-! ## What bindings are -/

variable {P : Platform} {request contractId snapshot binding : Json}

theorem bindingFor_eq_ok (h : bindingFor P request contractId snapshot = .ok binding) :
    (∃ c ∈ contracts, contractId = .str c) ∧ (contractId = .str legacy → snapshot = .null) ∧
      ∃ operationId sum, subscript "operation_id" request = .ok operationId ∧
        binding = .obj [("operation_id", operationId), ("request_sha256", .str (digest P request)),
          ("contract_id", contractId), ("snapshot", snapshot), ("binding_sha256", .str sum)] := by
  unfold bindingFor at h
  split at h
  · cases h
  · rename_i hc
    rw [not_or, not_not, List.any_eq_true] at hc
    obtain ⟨⟨c, hmem, hc⟩, hs⟩ := hc
    rw [decide_eq_true_eq, pyEq_str_iff] at hc
    obtain ⟨operationId, hop, h⟩ := bind_eq_ok.1 h
    cases h
    refine ⟨⟨c, hmem, hc⟩, fun hl => ?_, operationId, _, hop, rfl⟩
    by_contra hn
    exact hs ⟨hl ▸ PyEq.refl _, hn⟩

/-- The snapshot a binding was built with is the one it holds. -/
theorem subscript_bindingFor (h : bindingFor P request contractId snapshot = .ok binding) :
    subscript "snapshot" binding = .ok snapshot ∧
      subscript "contract_id" binding = .ok contractId := by
  obtain ⟨-, -, operationId, sum, -, rfl⟩ := bindingFor_eq_ok h
  exact ⟨rfl, rfl⟩

/-- **What is built for a request is valid for it.** -/
theorem validate_bindingFor (h : bindingFor P request contractId snapshot = .ok binding) :
    validateBinding P request binding = .ok () := by
  obtain ⟨-, -, operationId, sum, -, hb⟩ := bindingFor_eq_ok h
  have hc : get "contract_id" binding = .ok contractId := by rw [hb]; rfl
  have hs : get "snapshot" binding = .ok snapshot := by rw [hb]; rfl
  have hd : binding.isDict = true := by rw [hb]; rfl
  simpa [validateBinding, hd, hc, hs, h, bind, Except.bind] using PyEq.refl binding

/-- Only bindings whose conditions have been recorded, under the precise contract,
have a patch. -/
theorem snapshot_of_patchForBinding {ops : List Op}
    (h : patchForBinding P request binding = .ok ops) :
    validateBinding P request binding = .ok () ∧
      subscript "contract_id" binding = .ok (.str precise) ∧
      ∃ snapshot, subscript "snapshot" binding = .ok snapshot ∧ snapshot.isDict = true ∧
        repairPatch snapshot .contract = .ok ops := by
  obtain ⟨_, hv, h⟩ := bind_eq_ok.1 h
  obtain ⟨snapshot, hs, h⟩ := bind_eq_ok.1 h
  obtain ⟨contractId, hc, h⟩ := bind_eq_ok.1 h
  split at h
  · cases h
  · rename_i hcond
    rw [not_or, not_not, not_not, pyEq_str_iff] at hcond
    obtain ⟨_, -, h⟩ := bind_eq_ok.1 h
    obtain ⟨_, -, h⟩ := bind_eq_ok.1 h
    exact ⟨hv, hcond.1 ▸ hc, snapshot, hs, hcond.2, h⟩

end Contract

end AutonomyLab
