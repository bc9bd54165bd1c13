import AutonomyLab.Broker.Journal

/-!
# The admission ledger

`Registry` and `ProgramRegistry`: which version of a program is admitted, which episode
has selected it, and which operations have been authorized under it.  The ledger is a
database of its own, so a transaction on it never commits together with one on the
journal of operations.

* `Registry` — the tables.
* `recordPromotion`, `withdraw`, `pinEpisode`, `authorize` — the transactions that write.
* `executionConditions`, `authorization` — what an authorization covers, and the check of
  an authorization just before it is used.
* `Keeps` — what every transaction leaves alone: rows of selections and authorizations are
  never changed, and what has been withdrawn stays withdrawn.
-/

namespace AutonomyLab.Admission

open Json Store Broker
open Contract (legacy digest validateBinding)

/-! ## Tables -/

/-- A row of `versions`. -/
structure Version where
  definition : Json
  withdrawn : Bool := false

/-- A row of `authorizations`. -/
structure Authorization where
  episode : String
  version : String
  activationRevision : ℕ
  decisionRevision : ℕ
  programVersion : Json
  requestSha256 : String

/-- A row of `authorization_conditions`. -/
structure Conditions where
  binding : String
  patch : String
  deriving DecidableEq

/-- The row of `state`. -/
structure State where
  revision : ℕ := 0
  active : Option String := none
  activeRevision : Option ℕ := none

structure Registry where
  state : State
  versions : Table String Version
  /-- The kind of a decision and its receipt, by revision. -/
  decisions : Table ℕ (String × Json)
  /-- The version and the revision an episode has selected. -/
  pins : Table String (String × ℕ)
  /-- The action that was refused, and the details. -/
  refusals : List (String × Json)
  authorizations : Table String Authorization
  conditions : Table String Conditions

/-- What an episode has selected. -/
structure Pin where
  episode : String
  version : String
  revision : ℕ
  programVersion : Json

/-- What the evaluation of a candidate comes to. -/
structure Receipt where
  version : String
  eligible : Bool
  definition : Json

def Receipt.toJson (receipt : Receipt) : Json := .obj [
  ("version", .str receipt.version), ("eligible", .bool receipt.eligible),
  ("definition", receipt.definition)]

def Receipt.kind (receipt : Receipt) : String :=
  if receipt.eligible then "promoted" else "rejected"

/-- An administrative decision. -/
structure Decision where
  revision : ℕ
  kind : String
  version : String

/-- `require`. -/
def require (condition : Prop) [Decidable condition] (reason : String) : Except BrokerError Unit :=
  if condition then .ok () else .error (.refused reason)

/-- What a walk through a document raises. -/
def walk {α : Type} (r : Except PyError α) : Except BrokerError α := r.mapError .python

/-! ## What an authorization covers -/

section
variable (P : Platform)

/-- `procedures.encoded`. -/
def encoded (value : Json) : String := dumps P.reprFloat ⟨", ", ": ", true⟩ value

/-- `request_digest`. -/
def requestDigest (p : Proposal) : String := digest P p.modelDump

/-- The index in `/spec/ports/(0|[1-9][0-9]*)/name`. -/
def portIndex? (path : String) : Option String :=
  let before := "/spec/ports/".toList
  let after := "/name".toList
  let rest := path.toList.drop before.length
  let index := rest.take (rest.length - after.length)
  if before ++ index ++ after = path.toList ∧ index ≠ [] ∧ (index.all fun c => c.isDigit) ∧
      (index = ['0'] ∨ index.head? ≠ some '0') then
    some (String.ofList index)
  else none

/-- The patch that is admitted for a proposal, at the port of the given path. -/
def expectedPatch (p : Proposal) (path : String) : List Op := [
  .test "/metadata/uid" (.str p.serviceUid.1),
  .test "/metadata/resourceVersion" (.str p.resourceVersion.1),
  .test (path ++ "/name") (.str p.portName.1),
  .test (path ++ "/targetPort") (.int p.expectedTargetPort.1),
  .replace (path ++ "/targetPort") (.int p.targetPort.1)]

/-- The path of the third of five operations. -/
def namedPath? : List Op → Option String
  | [_, _, named, _, _] => match field? "path" named.toJson with
      | some (.str path) => some path
      | _ => none
  | _ => none

/-- The stored binding has to be one for the proposal. -/
def checkBinding (p : Proposal) (binding : Json) : Except BrokerError Unit :=
  match validateBinding P p.modelDump binding with
  | .error .attributeError => .error (.python .attributeError)
  | .error _ => .error (.refused "Durable binding does not match the proposal")
  | .ok _ => .ok ()

/-- `execution_conditions`: only the calibrated legacy semantics are admitted. -/
def executionConditions (p : Proposal) (binding : Json) (patch : List Op) :
    Except BrokerError Conditions := do
  checkBinding P p binding
  let contractId ← walk (subscript "contract_id" binding)
  require (PyEq contractId (.str legacy)) "Execution contract has not been admitted"
  match (namedPath? patch).bind portIndex? with
  | none => .error (.refused "Dispatch patch differs from admitted semantics")
  | some index =>
      require (encoded P (patchJson patch) =
          encoded P (patchJson (expectedPatch p ("/spec/ports/" ++ index))))
        "Dispatch patch differs from admitted semantics"
      return ⟨encoded P binding, encoded P (patchJson patch)⟩

end

namespace Registry

/-- A file that has just been created. -/
def empty : Registry := ⟨{}, ∅, ∅, ∅, [], ∅, ∅⟩

/-! ## Transactions -/

/-- A row of `refusals`. -/
def recordRefusal (action : String) (details : Json) (r : Registry) : Registry :=
  { r with refusals := r.refusals ++ [(action, details)] }

/-- `_record_promotion`. -/
def recordPromotion (receipt : Receipt) (expectedRevision : Json) (r : Registry) :
    Except BrokerError (Decision × Registry) := do
  require (expectedRevision = .int r.state.revision) "Stale admission decision"
  require ((r.versions.find? receipt.version).all fun old => !old.withdrawn)
    "Procedure was withdrawn"
  let revision := r.state.revision + 1
  match r.decisions.insert revision (receipt.kind, receipt.toJson) with
  | none => .error .integrity
  | some decisions => .ok (⟨revision, receipt.kind, receipt.version⟩,
      if receipt.eligible then
        { r with
          decisions
          versions := (r.versions.insert receipt.version { definition := receipt.definition }).getD
            r.versions
          state := ⟨revision, some receipt.version, some revision⟩ }
      else { r with decisions, state := { r.state with revision } })

/-- `_withdraw`. -/
def withdraw (expectedRevision : Json) (r : Registry) : Except BrokerError (Decision × Registry) := do
  require (expectedRevision = .int r.state.revision) "Stale withdrawal decision"
  match r.state.active with
  | none => .error (.refused "No active procedure")
  | some version =>
      let revision := r.state.revision + 1
      match r.decisions.insert revision ("withdrawn", .obj [("version", .str version)]) with
      | none => .error .integrity
      | some decisions => .ok (⟨revision, "withdrawn", version⟩,
          { r with
            decisions
            versions := r.versions.update version fun row => { row with withdrawn := true }
            state := ⟨revision, none, none⟩ })

/-- `ProgramRegistry._selection`, by whether the release still is what the pin of the
program says. -/
def selection (calibrated : Except PyError Unit) (definition : Json) : Except BrokerError Json := do
  let kind ← walk (get "kind" definition)
  require (PyEq kind (.str "restricted_program")) "Admission is not a restricted program"
  let contract ← walk (get "operation_contract" definition)
  require (PyEq contract (.str legacy)) "Admission does not bind the calibrated execution contract"
  let pin ← walk (subscript "program" definition)
  let program ← walk (subscript "definition" pin)
  match ← walk (subscript "program_utf8" program) with
  | .str _ => do
      walk calibrated
      walk (subscript "version" pin)
  | _ => .error (.python .attributeError)

/-- `Registry._selection`. -/
def variantSelection (definition : Json) : Except BrokerError Json := do
  let variant ← walk (get "variant" definition)
  match variant with
  | .arr _ | .obj _ => .error (.python .typeError)
  | _ => do
      let program ← walk (contains "program" definition)
      require (isIn variant [.str "runbook", .str "runbook_fallback"] ∧ !program)
        "Admission is not a known procedure"
      return variant

/-- `_pin`, by the `_selection` of the registry and the manifest of the release.  A row that
is there is shown, unless the episode has to be fresh. -/
def pinEpisode (fresh : Bool) (select : Json → Except BrokerError Json) (files : Json)
    (episode : String) (r : Registry) : Except BrokerError (Pin × Registry) := do
  require (0 < episode.length ∧ episode.length ≤ 128) "Invalid episode identity"
  match r.pins.find? episode with
  | some (version, revision) => do
      require (!fresh) "Episode already pinned; execution cannot be resumed"
      return (⟨episode, version, revision, .null⟩, r)
  | none => match r.state.active with
      | none => .error (.refused "No admitted procedure")
      | some version => match r.versions.find? version with
          | none => .error (.python .typeError)
          | some row => do
              let source ← walk (subscript "source_files" row.definition)
              require (!row.withdrawn ∧ PyEq source files) "Admitted source changed"
              let selected ← select row.definition
              match r.state.activeRevision with
              | none => .error .integrity
              | some revision => match r.pins.insert episode (version, revision) with
                  | none => .error .integrity
                  | some pins =>
                      .ok (⟨episode, version, revision, if fresh then selected else .null⟩,
                        { r with pins })

/-- `start_episode`, by the manifest of the release. -/
def startEpisode (files : Json) (calibrated : Except PyError Unit) (episode : String)
    (r : Registry) : Except BrokerError (Pin × Registry) :=
  r.pinEpisode true (selection calibrated) files episode

/-- The transaction of `authorize`. -/
def authorize (P : Platform) (calibrated exact : Except PyError Unit) (pin : Option Pin)
    (p : Proposal) (conditions : Conditions) (r : Registry) :
    Except BrokerError (Authorization × Registry) :=
  match pin with
  | none => .error (.refused "Malformed admitted episode pin")
  | some pin => do
      require (r.state.active = some pin.version ∧ r.state.activeRevision = some pin.revision)
        "Program admission no longer active"
      require (r.pins.find? pin.episode = some (pin.version, pin.revision))
        "Episode pin differs from ledger"
      match r.versions.find? pin.version with
      | none => .error (.refused "Program was withdrawn")
      | some version => do
          require (!version.withdrawn) "Program was withdrawn"
          let selected ← selection calibrated version.definition
          require (PyEq selected pin.programVersion) "Admitted program selection changed"
          walk exact
          require (r.authorizations.find? p.operationId.1).isNone "Operation already authorized"
          let row : Authorization := ⟨pin.episode, pin.version, pin.revision, r.state.revision,
            pin.programVersion, requestDigest P p⟩
          match r.authorizations.insert p.operationId.1 row,
              r.conditions.insert p.operationId.1 conditions with
          | some authorizations, some conditions => .ok (row, { r with authorizations, conditions })
          | _, _ => .error .integrity

/-- The read of `authorization`. -/
def authorization (P : Platform) (pin : Option Pin) (p : Proposal) (conditions : Conditions)
    (r : Registry) : Except BrokerError Authorization := do
  require (r.conditions.find? p.operationId.1 = some conditions)
    "Dispatch conditions differ from their authorization"
  match r.authorizations.find? p.operationId.1 with
  | none => .error (.refused "Dispatch does not match its authorization")
  | some row => do
      require (row.requestSha256 = requestDigest P p) "Dispatch does not match its authorization"
      match pin with
      | none => .error (.python .typeError)
      | some pin => do
          require (row.episode = pin.episode ∧ row.version = pin.version ∧
            row.activationRevision = pin.revision ∧ PyEq row.programVersion pin.programVersion)
            "Dispatch does not match its authorization"
          return row

/-- The ledger after a transaction: the one before, where it raises. -/
def commit {α : Type} (r : Registry) : Except BrokerError (α × Registry) → Registry
  | .ok (_, r') => r'
  | .error _ => r

/-- A version has been withdrawn. -/
def Withdrawn (version : String) (r : Registry) : Prop :=
  ∃ row, r.versions.find? version = some row ∧ row.withdrawn = true

end Registry

/-! ## What transactions do -/

theorem require_eq_ok {condition : Prop} [Decidable condition] {reason : String} {u : Unit} :
    require condition reason = .ok u ↔ condition := by
  unfold require
  split <;> simp_all

variable {P : Platform} {r r' : Registry} {p : Proposal} {pin : Pin} {row : Authorization}
  {conditions : Conditions} {calibrated exact : Except PyError Unit}

/-- What every transaction leaves alone. -/
structure Keeps (r r' : Registry) : Prop where
  pins : ∀ {episode x}, r.pins.find? episode = some x → r'.pins.find? episode = some x
  authorizations : ∀ {id row}, r.authorizations.find? id = some row →
    r'.authorizations.find? id = some row
  conditions : ∀ {id row}, r.conditions.find? id = some row → r'.conditions.find? id = some row
  withdrawn : ∀ {version}, r.Withdrawn version → r'.Withdrawn version

theorem Keeps.refl (r : Registry) : Keeps r r := ⟨id, id, id, id⟩

theorem Keeps.trans {r'' : Registry} (h : Keeps r r') (h' : Keeps r' r'') : Keeps r r'' :=
  ⟨fun hx => h'.pins (h.pins hx), fun hx => h'.authorizations (h.authorizations hx),
    fun hx => h'.conditions (h.conditions hx), fun hx => h'.withdrawn (h.withdrawn hx)⟩

/-- A row that is there survives the insertion of another. -/
theorem find?_of_insert {κ β : Type} [DecidableEq κ] {k k' : κ} {x y : β} {t t' : Table κ β}
    (h : t.insert k x = some t') (hy : t.find? k' = some y) : t'.find? k' = some y := by
  have hne : k' ≠ k := by
    rintro rfl
    rw [(Table.insert_eq_some h).1] at hy
    cases hy
  rw [Table.find?_insert h, if_neg hne, hy]

/-- Conditions are computed for a binding under the legacy contract only. -/
theorem executionConditions_eq_ok {binding : Json} {patch : List Op}
    (h : executionConditions P p binding patch = .ok conditions) :
    subscript "contract_id" binding = .ok (.str legacy) ∧
      conditions = ⟨encoded P binding, encoded P (patchJson patch)⟩ := by
  obtain ⟨_, -, h⟩ := bind_eq_ok.1 h
  obtain ⟨contractId, hc, h⟩ := bind_eq_ok.1 h
  obtain ⟨_, hl, h⟩ := bind_eq_ok.1 h
  rw [require_eq_ok, pyEq_str_iff] at hl
  refine ⟨?_, ?_⟩
  · cases hs : subscript "contract_id" binding with
    | error e => rw [hs] at hc; cases hc
    | ok c =>
        rw [hs] at hc
        rw [Except.ok.inj hc, hl]
  · split at h
    · cases h
    · obtain ⟨_, -, h⟩ := bind_eq_ok.1 h
      exact (Except.ok.inj h).symm

/-- An episode that has a row, or selects what is active. -/
theorem pinEpisode_eq_ok {fresh : Bool} {select : Json → Except BrokerError Json} {files : Json}
    {episode : String} (h : r.pinEpisode fresh select files episode = .ok (pin, r')) :
    pin.episode = episode ∧
      (fresh = false ∧ r.pins.find? episode = some (pin.version, pin.revision) ∧ r' = r ∨
        r.pins.find? episode = none ∧ r.state.active = some pin.version ∧
          r.state.activeRevision = some pin.revision ∧ ¬ r.Withdrawn pin.version ∧
          ∃ pins, r.pins.insert episode (pin.version, pin.revision) = some pins ∧
            r' = { r with pins }) := by
  obtain ⟨_, -, h⟩ := bind_eq_ok.1 h
  cases hfound : r.pins.find? episode with
  | some x =>
      rw [hfound] at h
      obtain ⟨_, hf, h⟩ := bind_eq_ok.1 h
      rw [require_eq_ok, Bool.not_eq_true'] at hf
      cases h
      exact ⟨rfl, .inl ⟨hf, rfl, rfl⟩⟩
  | none =>
      rw [hfound] at h
      dsimp only at h
      split at h
      · cases h
      rename_i version hactive
      split at h
      · cases h
      rename_i row hrow
      obtain ⟨_, -, h⟩ := bind_eq_ok.1 h
      obtain ⟨_, hw, h⟩ := bind_eq_ok.1 h
      obtain ⟨_, -, h⟩ := bind_eq_ok.1 h
      rw [require_eq_ok, Bool.not_eq_true'] at hw
      split at h
      · cases h
      rename_i revision hrevision
      split at h
      · cases h
      rename_i pins hpins
      cases h
      refine ⟨rfl, .inr ⟨rfl, hactive, hrevision, ?_, pins, hpins, rfl⟩⟩
      rintro ⟨row', hrow', hwd⟩
      rw [hrow] at hrow'
      cases hrow'
      rw [hw.1] at hwd
      cases hwd

/-- What a fresh episode selects, and what the ledger keeps of it. -/
theorem startEpisode_eq_ok {files : Json} {episode : String}
    (h : r.startEpisode files calibrated episode = .ok (pin, r')) :
    pin.episode = episode ∧ r.pins.find? episode = none ∧
      ∃ pins, r.pins.insert episode (pin.version, pin.revision) = some pins ∧ r' = { r with pins } := by
  obtain ⟨he, ⟨hf, -⟩ | ⟨hn, -, -, -, hpins⟩⟩ := pinEpisode_eq_ok h
  · cases hf
  · exact ⟨he, hn, hpins⟩

/-- What has been authorized, for whom, and what the ledger keeps of it. -/
theorem authorize_eq_ok {selected : Option Pin}
    (h : r.authorize P calibrated exact selected p conditions = .ok (row, r')) :
    ∃ pin, selected = some pin ∧ row = ⟨pin.episode, pin.version, pin.revision, r.state.revision,
        pin.programVersion, requestDigest P p⟩ ∧ ¬ r.Withdrawn row.version ∧
      ∃ authorizations bound, r.authorizations.insert p.operationId.1 row = some authorizations ∧
        r.conditions.insert p.operationId.1 conditions = some bound ∧
        r' = { r with authorizations, conditions := bound } := by
  unfold Registry.authorize at h
  split at h
  · cases h
  · rename_i pin
    obtain ⟨_, -, h⟩ := bind_eq_ok.1 h
    obtain ⟨_, -, h⟩ := bind_eq_ok.1 h
    split at h
    · cases h
    · rename_i version hv
      obtain ⟨_, hw, h⟩ := bind_eq_ok.1 h
      obtain ⟨_, -, h⟩ := bind_eq_ok.1 h
      obtain ⟨_, -, h⟩ := bind_eq_ok.1 h
      obtain ⟨_, -, h⟩ := bind_eq_ok.1 h
      obtain ⟨_, -, h⟩ := bind_eq_ok.1 h
      dsimp only at h
      split at h
      · rename_i authorizations bound ha hb
        cases h
        refine ⟨pin, rfl, rfl, ?_, authorizations, bound, ha, hb, rfl⟩
        rintro ⟨row, hrow, hwd⟩
        rw [require_eq_ok] at hw
        rw [hv] at hrow
        cases hrow
        rw [hwd] at hw
        cases hw
      · cases h

/-- What the check of an authorization finds. -/
theorem authorization_eq_ok {selected : Option Pin}
    (h : r.authorization P selected p conditions = .ok row) :
    r.conditions.find? p.operationId.1 = some conditions ∧
      r.authorizations.find? p.operationId.1 = some row ∧
      row.requestSha256 = requestDigest P p ∧
      ∃ pin, selected = some pin ∧ row.episode = pin.episode := by
  obtain ⟨_, hc, h⟩ := bind_eq_ok.1 h
  cases hrow : r.authorizations.find? p.operationId.1 with
  | none => rw [hrow] at h; cases h
  | some found =>
      rw [hrow] at h
      obtain ⟨_, hd, h⟩ := bind_eq_ok.1 h
      cases selected with
      | none => cases h
      | some pin =>
          obtain ⟨_, hp, h⟩ := bind_eq_ok.1 h
          rw [require_eq_ok] at hc hd hp
          cases h
          exact ⟨hc, rfl, hd, pin, rfl, hp.1⟩

/-- A decision on a candidate: versions that are there stay as they are. -/
theorem recordPromotion_eq_ok {receipt : Receipt} {expected : Json} {d : Decision}
    (h : r.recordPromotion receipt expected = .ok (d, r')) :
    ∃ state versions decisions, r' = { r with state, versions, decisions } ∧
      ∀ {version row}, r.versions.find? version = some row → versions.find? version = some row := by
  obtain ⟨_, -, h⟩ := bind_eq_ok.1 h
  obtain ⟨_, -, h⟩ := bind_eq_ok.1 h
  dsimp only at h
  split at h
  · cases h
  · rename_i decisions _
    cases h
    split
    · refine ⟨_, _, decisions, rfl, fun {version row} hrow => ?_⟩
      -- an insertion that is ignored leaves the table as it was
      cases hi : r.versions.insert receipt.version { definition := receipt.definition } with
      | none => simpa using hrow
      | some versions => simpa using find?_of_insert hi hrow
    · exact ⟨_, r.versions, decisions, rfl, id⟩

/-- A withdrawal. -/
theorem withdraw_eq_ok {expected : Json} {d : Decision}
    (h : r.withdraw expected = .ok (d, r')) :
    ∃ state decisions, r' = { r with
      state, decisions
      versions := r.versions.update d.version fun row => { row with withdrawn := true } } := by
  obtain ⟨_, -, h⟩ := bind_eq_ok.1 h
  split at h
  · cases h
  · dsimp only at h
    split at h
    · cases h
    · cases h
      exact ⟨_, _, rfl⟩

/-- **What has been authorized is found.** -/
theorem authorization_of_authorize {selected : Option Pin}
    (h : r.authorize P calibrated exact selected p conditions = .ok (row, r')) :
    r'.authorization P selected p conditions = .ok row := by
  obtain ⟨pin, rfl, rfl, -, authorizations, bound, ha, hb, rfl⟩ := authorize_eq_ok h
  simp [Registry.authorization, Table.find?_insert ha, Table.find?_insert hb, require, PyEq.refl,
    bind, Except.bind, pure, Except.pure]

/-! ## What no transaction changes -/

theorem keeps_commit {α : Type} {f : Except BrokerError (α × Registry)}
    (h : ∀ a r', f = .ok (a, r') → Keeps r r') : Keeps r (r.commit f) := by
  cases f with
  | error e => exact .refl r
  | ok x => exact h x.1 x.2 rfl

theorem keeps_recordRefusal {action : String} {details : Json} :
    Keeps r (r.recordRefusal action details) := ⟨id, id, id, id⟩

theorem keeps_startEpisode {files : Json} {episode : String} :
    Keeps r (r.commit (r.startEpisode files calibrated episode)) := by
  refine keeps_commit fun pin r' h => ?_
  obtain ⟨-, -, pins, hpins, rfl⟩ := startEpisode_eq_ok h
  exact ⟨find?_of_insert hpins, id, id, id⟩

theorem keeps_authorize {selected : Option Pin} :
    Keeps r (r.commit (r.authorize P calibrated exact selected p conditions)) := by
  refine keeps_commit fun row r' h => ?_
  obtain ⟨pin, -, -, -, authorizations, bound, ha, hb, rfl⟩ := authorize_eq_ok h
  exact ⟨id, find?_of_insert ha, find?_of_insert hb, id⟩

theorem keeps_recordPromotion {receipt : Receipt} {expected : Json} :
    Keeps r (r.commit (r.recordPromotion receipt expected)) := by
  refine keeps_commit fun d r' h => ?_
  obtain ⟨state, versions, decisions, rfl, hv⟩ := recordPromotion_eq_ok h
  exact ⟨id, id, id, fun ⟨row, hrow, hw⟩ => ⟨row, hv hrow, hw⟩⟩

theorem keeps_withdraw {expected : Json} : Keeps r (r.commit (r.withdraw expected)) := by
  refine keeps_commit fun d r' h => ?_
  obtain ⟨state, decisions, rfl⟩ := withdraw_eq_ok h
  refine ⟨id, id, id, ?_⟩
  rintro version ⟨row, hrow, hw⟩
  by_cases hv : version = d.version
  · subst hv
    exact ⟨{ row with withdrawn := true }, by simp [hrow], rfl⟩
  · exact ⟨row, (Table.find?_update_of_ne hv _ _).trans hrow, hw⟩

end AutonomyLab.Admission
