import AutonomyLab.Json.Decode
import AutonomyLab.Store.Table

/-!
# The gates of the settlement experiment

Each of the two services, Quote and Inventory, admits operations through a gate.  A gate
is opened for one epoch after the other; a request is admitted if it names the instance
and the open epoch, and an identity that the epoch has not seen.

* `Gate` — with `openEpoch`, `close`, `operation` and `finish`, the requests it answers under
  its lock.
* `canonicalInt?` — integers in headers and keys, in the one way they are written.
* `Gate.snapshot` — a receipt.
-/

namespace AutonomyLab.Settlement

open Json Store

/-! ## Identities -/

/-- `[0-9a-f]{32}`. -/
def isInstance (s : String) : Bool :=
  s.length = 32 && s.toList.all fun c => c.isDigit || ('a' ≤ c && c ≤ 'f')

/-- `uuid.uuid4().hex`. -/
abbrev Instance : Type := { s : String // isInstance s = true }

/-- The value of a sign and digits. -/
def signedValue (parts : List Char × List Char) : ℤ :=
  if parts.1 = [] then (Nat.ofDigitChars 10 parts.2 0 : ℤ) else -(Nat.ofDigitChars 10 parts.2 0 : ℤ)

/-- `int(text)`, where the integer is written so. -/
def canonicalInt? (text : String) : Option ℤ :=
  if toString (signedValue (scanSign text.toList)) = text
  then some (signedValue (scanSign text.toList)) else none

theorem canonicalInt?_eq_some {text : String} {n : ℤ} :
    canonicalInt? text = some n ↔ text = toString n := by
  unfold canonicalInt?
  constructor
  · intro h
    split at h
    · rename_i heq
      cases h
      exact heq.symm
    · cases h
  · rintro rfl
    have hsign := scanSign_int n []
    rw [List.append_nil, List.append_nil] at hsign
    rw [hsign, signedValue, Nat.ofDigitChars_ten_toDigits, signed_natAbs, if_pos rfl]

theorem toString_int_injective {m n : ℤ} (h : toString m = toString n) : m = n := by
  have hm := canonicalInt?_eq_some.2 (rfl : toString m = toString m)
  rw [h, canonicalInt?_eq_some.2 rfl] at hm
  exact (Option.some.inj hm).symm

/-- `Epoch`, the body of a control request. -/
structure Epoch where
  instanceId : Instance
  epoch : { n : ℤ // 1 ≤ n ∧ n ≤ 1000000000 }
  downstreamInstance : Option Instance

/-- The headers of a request that the gate looks at. -/
structure Headers where
  /-- `x-lab-instance`. -/
  instanceId : Option String
  /-- `x-lab-epoch`. -/
  epoch : Option String
  /-- `x-lab-operation`. -/
  operation : Option String
  deriving DecidableEq

/-- `HTTPException`. -/
structure HttpException where
  statusCode : ℕ
  detail : String
  deriving DecidableEq

/-- `raise HTTPException(409, detail)`. -/
def conflict {α : Type} (detail : String) : Except HttpException α := .error ⟨409, detail⟩

/-! ## Gates -/

inductive OperationState where
  | active
  | finished
  deriving DecidableEq

/-- The record of an operation. -/
structure Operation where
  state : OperationState
  started : ℚ
  finished : Option ℚ
  deriving DecidableEq

structure Gate where
  instanceId : Instance
  epoch : ℤ
  closed : Bool
  downstream : Option Instance
  operations : Table String Operation
  admitted : ℕ
  finished : ℕ

/-- The two services. -/
inductive Kind where
  | quote
  | inventory
  deriving DecidableEq

/-- An operation that has been admitted and has not returned. -/
structure Handler where
  epoch : ℤ
  identity : ℤ
  downstream : Option Instance
  deriving DecidableEq

/-- What `operation` yields: the headers of requests to the other service. -/
def Handler.forwarded (h : Handler) : Headers :=
  ⟨h.downstream.map fun i => i.1, some (toString h.epoch), some (toString h.identity)⟩

/-- `propagate`: the headers of a request to the other service, made for an operation if
there is one. -/
def propagate (handler : Option Handler) : Except HttpException Headers :=
  match handler with
  | none => conflict "downstream call outside admitted operation"
  | some h =>
      if h.forwarded.instanceId = none then conflict "downstream call outside admitted operation"
      else .ok h.forwarded

namespace Gate

/-- `Gate()`. -/
def new (instanceId : Instance) : Gate := ⟨instanceId, 0, true, none, ∅, 0, 0⟩

/-- `open`. -/
def openEpoch (g : Gate) (request : Epoch) : Except HttpException Gate :=
  if request.instanceId ≠ g.instanceId ∨ request.epoch.1 ≠ g.epoch + 1 then
    conflict "instance changed or epoch not next"
  else if g.closed = false ∨ g.operations.rows.any (fun row => row.2.state ≠ .finished) then
    conflict "previous epoch not settled"
  else .ok { g with
    epoch := request.epoch.1
    closed := false
    operations := ∅
    admitted := 0
    finished := 0
    downstream := request.downstreamInstance }

/-- `close`. -/
def close (g : Gate) (request : Epoch) : Except HttpException Gate :=
  if request.instanceId ≠ g.instanceId ∨ request.epoch.1 ≠ g.epoch then
    conflict "instance or epoch differs"
  else .ok { g with closed := true }

/-- `operation`, up to its `yield`. -/
def operation (g : Gate) (headers : Headers) (now : ℚ) : Except HttpException (Gate × Handler) :=
  match headers.epoch.bind canonicalInt?, headers.operation.bind canonicalInt? with
  | some epoch, some identity =>
      if ¬(0 ≤ identity ∧ identity < 128) then conflict "invalid operation identity"
      else if headers.instanceId ≠ some g.instanceId.1 ∨ epoch ≠ g.epoch then
        conflict "instance or epoch differs"
      else if g.closed then conflict "closed epoch or duplicate operation"
      else match g.operations.insert (toString identity) ⟨.active, now, none⟩ with
        | none => conflict "closed epoch or duplicate operation"
        | some operations => .ok
            ({ g with operations := operations, admitted := g.admitted + 1 },
              ⟨epoch, identity, g.downstream⟩)
  | _, _ => conflict "invalid operation identity"

/-- The end of `operation`; the record it was admitted with may belong to an earlier epoch. -/
def finish (g : Gate) (h : Handler) (now : ℚ) : Gate :=
  { g with
    operations := if h.epoch = g.epoch then g.operations.update (toString h.identity) fun op =>
      { op with state := .finished, finished := some now } else g.operations
    finished := g.finished + 1 }

end Gate

/-- `open_epoch`, which a service answers. -/
def Kind.openEpoch (k : Kind) (g : Gate) (body : Epoch) : Except HttpException Gate :=
  if body.downstreamInstance.isSome ≠ decide (k = .quote) then conflict "downstream identity differs"
  else g.openEpoch body

/-! ## Receipts -/

def OperationState.name : OperationState → String
  | .active => "active"
  | .finished => "finished"

def Operation.toJson (op : Operation) : Json := .obj [
  ("state", .str op.state.name), ("started", .float op.started),
  ("finished", (op.finished.map Json.float).getD .null)]

/-- `snapshot`. -/
def Gate.snapshot (g : Gate) : Json := .obj [
  ("instance", .str g.instanceId.1), ("epoch", .int g.epoch), ("closed", .bool g.closed),
  ("downstream_instance", (g.downstream.map fun i => Json.str i.1).getD .null),
  ("admitted", .int g.admitted), ("finished", .int g.finished),
  ("operations", .obj (g.operations.rows.map fun row => (row.1, row.2.toJson)))]

/-! ## What is admitted -/

theorem propagate_eq_ok {h : Handler} {headers : Headers} (hp : propagate (some h) = .ok headers) :
    headers = h.forwarded := by
  unfold propagate at hp
  dsimp only at hp
  split at hp
  · cases hp
  · exact (Except.ok.inj hp).symm

/-- **What is admitted names the instance and the open epoch**, and a new identity. -/
theorem Gate.operation_eq_ok {g g' : Gate} {headers : Headers} {now : ℚ} {h : Handler}
    (ha : g.operation headers now = .ok (g', h)) :
    g.closed = false ∧ headers.instanceId = some g.instanceId.1 ∧
      headers.epoch = some (toString g.epoch) ∧ headers.operation = some (toString h.identity) ∧
      h.epoch = g.epoch ∧ h.downstream = g.downstream ∧ 0 ≤ h.identity ∧ h.identity < 128 ∧
      ∃ operations, g.operations.insert (toString h.identity) ⟨.active, now, none⟩ = some operations ∧
        g' = { g with operations := operations, admitted := g.admitted + 1 } := by
  unfold Gate.operation at ha
  split at ha
  · rename_i epoch identity hepoch hidentity
    split at ha
    · cases ha
    rename_i hrange
    split at ha
    · cases ha
    rename_i hsame
    split at ha
    · cases ha
    rename_i hopen
    split at ha
    · cases ha
    rename_i operations hops
    cases ha
    obtain ⟨hinst, hep⟩ := not_or.1 hsame
    rw [not_not] at hinst hep hrange
    obtain ⟨etext, hetext, he⟩ := Option.bind_eq_some_iff.1 hepoch
    obtain ⟨otext, hotext, ho⟩ := Option.bind_eq_some_iff.1 hidentity
    rw [canonicalInt?_eq_some] at he ho
    refine ⟨by simpa using hopen, hinst, ?_, ?_, hep, rfl, hrange.1, hrange.2, operations, hops, rfl⟩
    · rw [hetext, he, hep]
    · rw [hotext, ho]
  · cases ha

theorem Gate.openEpoch_eq_ok {k : Kind} {g g' : Gate} {body : Epoch}
    (h : k.openEpoch g body = .ok g') :
    body.instanceId = g.instanceId ∧ body.epoch.1 = g.epoch + 1 ∧ g.closed = true ∧
      (∀ row ∈ g.operations.rows, row.2.state = .finished) ∧
      body.downstreamInstance.isSome = decide (k = .quote) ∧
      g' = ⟨g.instanceId, g.epoch + 1, false, body.downstreamInstance, ∅, 0, 0⟩ := by
  unfold Kind.openEpoch Gate.openEpoch at h
  split at h
  · cases h
  rename_i hdown
  split at h
  · cases h
  rename_i hsame
  split at h
  · cases h
  rename_i hsettled
  cases h
  obtain ⟨hinst, hep⟩ := not_or.1 hsame
  obtain ⟨hclosed, hall⟩ := not_or.1 hsettled
  rw [not_not] at hinst hep hdown
  refine ⟨hinst, hep, by simpa using hclosed, ?_, hdown, ?_⟩
  · simpa using hall
  · rw [hep]

theorem Gate.close_eq_ok {g g' : Gate} {body : Epoch} (h : g.close body = .ok g') :
    body.instanceId = g.instanceId ∧ body.epoch.1 = g.epoch ∧ g' = { g with closed := true } := by
  unfold Gate.close at h
  split at h
  · cases h
  · rename_i hsame
    cases h
    obtain ⟨hinst, hep⟩ := not_or.1 hsame
    rw [not_not] at hinst hep
    exact ⟨hinst, hep, rfl⟩

/-- An operation that returns keeps its key. -/
theorem Gate.finish_keys (g : Gate) (h : Handler) (now : ℚ) :
    (g.finish h now).operations.rows.map Prod.fst = g.operations.rows.map Prod.fst := by
  simp only [Gate.finish]
  split
  · exact Table.keys_update _ _ _
  · rfl

end AutonomyLab.Settlement
