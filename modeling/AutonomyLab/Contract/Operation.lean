import AutonomyLab.Json.Patch
import AutonomyLab.Json.Python

/-!
# The repair patch

`operation_contract.py`: the patch that sets the target port of the inventory
service, built from a trusted observation of the service.

* `repairPatch` — the patch of an arm.  The `version` arm conditions the change on
  the version of the resource; the `contract` arm on everything in the resource but
  the bookkeeping of the server and the value of one heartbeat annotation, which it
  masks with constants for the comparison and then restores.
* `outsideScope` — the conditions under which an observation is refused: whatever a
  repair of this one fault cannot have been observed on.
* `normalizedMetadata` — the constants by which the parts left out of the comparison
  are replaced.
-/

namespace AutonomyLab.Contract

open Json

def heartbeat : String := "autonomy-lab/contract-heartbeat"

def authority : String := "autonomy-lab/authority"

def scratch : String := "autonomyLabContractScratch"

/-- `ARMS`. -/
inductive Arm where
  | version
  | contract
  deriving DecidableEq, Repr

/-- A name as a part of a JSON pointer. -/
def pointer (value : String) : String := String.ofList (Pointer.escape value.toList)

/-- Metadata with what the comparison leaves out set to constants. -/
def normalizedMetadata (metadata : Json) : Except PyError Json :=
  match metadata with
  | .obj fs => do
      let fs := setField "resourceVersion" (.str "<current-version>") fs
      let fs := setField "managedFields" (.arr []) fs
      match ← subscript "annotations" (.obj fs) with
      | .obj annotations =>
          .ok (.obj (setField "annotations"
            (.obj (setField heartbeat (.str "<current-heartbeat>") annotations)) fs))
      | _ => .error .typeError
  | _ => .error .typeError

/-- The port the contract repairs. -/
def frozenPort : Json :=
  .obj [("name", .str "http"), ("port", .int 80), ("targetPort", .int 9999), ("protocol", .str "TCP")]

/-- The conditions under which a snapshot is outside the frozen scope. -/
def outsideScope (snapshot metadata : Json) : List (Except PyError Bool) := [
  (get "apiVersion" snapshot).map fun v => !decide (PyEq v (.str "v1")),
  (get "kind" snapshot).map fun v => !decide (PyEq v (.str "Service")),
  (get "namespace" metadata).map fun v => !decide (PyEq v (.str "autonomy-lab")),
  (get "name" metadata).map fun v => !decide (PyEq v (.str "inventory")),
  (get "uid" metadata).map fun v => !v.isText,
  (get "resourceVersion" metadata).map fun v => !v.isText,
  do let annotations ← getD "annotations" (.obj []) metadata
     (get heartbeat annotations).map fun v => match v with | .str _ => false | _ => true,
  do let annotations ← getD "annotations" (.obj []) metadata
     (get authority annotations).map fun v => !decide (PyEq v (.str "enabled")),
  do let spec ← getD "spec" (.obj []) snapshot
     (get "selector" spec).map fun v => !decide (PyEq v (.obj [("app", .str "inventory")])),
  do let spec ← subscript "spec" snapshot
     (get "ports" spec).map fun v => !decide (PyEq v (.arr [frozenPort])),
  (contains "status" snapshot).map fun b => !b,
  contains scratch snapshot]

/-- Build the patch of an arm from a trusted observation. -/
def repairPatch (snapshot : Json) (arm : Arm) : Except PyError (List Op) := do
  let metadata ← subscript "metadata" snapshot
  if ← anyTrue (outsideScope snapshot metadata) then
    .error (.valueError "Snapshot outside frozen feasibility scope")
  else match arm with
    | .version =>
        let uid ← subscript "uid" metadata
        let resourceVersion ← subscript "resourceVersion" metadata
        return [
          .test "/metadata/uid" uid,
          .test "/metadata/resourceVersion" resourceVersion,
          .test "/spec/ports/0/name" (.str "http"),
          .test "/spec/ports/0/targetPort" (.int 9999),
          .replace "/spec/ports/0/targetPort" (.int 8080)]
    | .contract =>
        let tests ← ["apiVersion", "kind", "spec", "status"].mapM fun key =>
          (subscript key snapshot).map fun value => Op.test ("/" ++ key) value
        let normalized ← normalizedMetadata metadata
        -- the copy holds the current metadata of the API, not the stale observation;
        -- the move restores it before the actual repair
        return tests ++ [
          .copy "/metadata" ("/" ++ scratch),
          .replace "/metadata/resourceVersion" (.str "<current-version>"),
          .add "/metadata/managedFields" (.arr []),
          .remove ("/metadata/annotations/" ++ pointer heartbeat),
          .add ("/metadata/annotations/" ++ pointer heartbeat) (.str "<current-heartbeat>"),
          .test "/metadata" normalized,
          .move ("/" ++ scratch) "/metadata",
          .replace "/spec/ports/0/targetPort" (.int 8080)]

end AutonomyLab.Contract
