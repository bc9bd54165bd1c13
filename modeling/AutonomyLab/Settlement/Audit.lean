import Mathlib.Data.Finset.Card
import AutonomyLab.Json.Python
import AutonomyLab.Settlement.Gate

/-!
# The audit of a pair of receipts

`settled` is given a receipt of each service, the instances the services had when the
epoch was opened, and the identities that were sent.  It accepts if both gates are closed
and every admitted operation has returned.

* `settled_eq_ok` — what is true of receipts that are accepted.
* `audited_of_terminal` — a gate that is closed, with nothing active, passes its round.
-/

namespace AutonomyLab.Settlement

open Json Store

/-- `require`; a `Refused` is a `ValueError`. -/
def require (condition : Prop) [Decidable condition] (reason : String) : Except PyError Unit :=
  if condition then .ok () else .error (.valueError reason)

/-- `set(value) == {…}`. -/
def setEq (names : List String) (value : Json) : Except PyError Bool := do
  let items ← iterate value
  if items.any (fun x => match x with | .arr _ | .obj _ => true | _ => false) then .error .typeError
  else .ok (items.all (fun x => isIn x (names.map .str)) && names.all fun n => isIn (.str n) items)

/-- `mapping[key]`. -/
def item (mapping : List (String × Json)) (key : String) : Except PyError Json :=
  subscript key (.obj mapping)

/-- A `str` that is an instance identity. -/
def isInstanceText : Json → Bool
  | .str s => isInstance s
  | _ => false

/-- A key that is `isascii`, `isdecimal` and written as its value is. -/
def identity? (key : String) : Option ℤ :=
  if key ≠ "" ∧ key.toList.all Char.isDigit then canonicalInt? key else none

/-- The value, if its type is `int` or `float`; every number is finite here. -/
def number? : Json → Option ℚ
  | .int n => some n
  | .float q => some q
  | _ => none

def receiptFields : List String :=
  ["instance", "epoch", "closed", "downstream_instance", "admitted", "finished", "operations"]

def operationFields : List String := ["state", "started", "finished"]

/-- One round of the loop over the operations of a receipt. -/
def settledOperation (dispatched : Finset ℤ) (row : String × Json) : Except PyError ℤ := do
  match identity? row.1 with
  | none => .error (.valueError "Invalid operation identity")
  | some identity =>
      require (identity ∈ dispatched) "Unissued operation"
      require (← setEq operationFields row.2) "Operation not terminal"
      require (PyEq (← subscript "state" row.2) (.str "finished")) "Operation not terminal"
      match number? (← subscript "started" row.2), number? (← subscript "finished" row.2) with
      | some started, some finished =>
          require (0 ≤ started ∧ 0 ≤ finished ∧ started ≤ finished) "Invalid terminal time"
          return identity
      | _, _ => .error (.valueError "Invalid terminal time")

/-- `expected_downstream`. -/
def expectedDownstream (instances : List (String × Json)) (service : String) : Except PyError Json :=
  if service = "quote" then item instances "inventory" else .ok .null

/-- One round of the loop over the services. -/
def settledService (receipts instances : List (String × Json)) (epoch : Json)
    (dispatched : Finset ℤ) (service : String) : Except PyError (Finset ℤ) := do
  let r ← item receipts service
  require (← setEq receiptFields r) "Receipt schema differs"
  let instanceId ← subscript "instance" r
  let expected ← item instances service
  require (isInstanceText instanceId ∧ PyEq instanceId expected ∧
    (← subscript "epoch" r) = epoch) "Instance or epoch changed"
  require ((← subscript "closed" r) = .bool true) "Admission remains open"
  match ← subscript "operations" r with
  | .obj operations =>
      require (PyEq (← subscript "downstream_instance" r) (← expectedDownstream instances service))
        "Downstream identity differs"
      require ((← subscript "admitted" r) = .int operations.length ∧
        (← subscript "finished" r) = .int operations.length ∧ operations.length ≤ 128)
        "Outstanding or missing operations"
      return (← operations.mapM (settledOperation dispatched)).toFinset
  | _ => .error (.valueError "Invalid operation ledger")

/-- `settled`. -/
def settled (receipts instances : List (String × Json)) (epoch : Json)
    (dispatched knownAdmitted knownDownstream : Finset ℤ) : Except PyError Json := do
  match epoch with
  | .int n => require (0 < n) "Invalid epoch"
  | _ => .error (.valueError "Invalid epoch")
  require ((← setEq ["quote", "inventory"] (.obj receipts)) ∧
    (← setEq ["quote", "inventory"] (.obj instances))) "Missing service receipt"
  require (∀ i ∈ dispatched ∪ knownAdmitted, 0 ≤ i ∧ i < 128) "Invalid offered identity"
  require (knownAdmitted ⊆ dispatched ∧ knownDownstream ⊆ knownAdmitted) "Unissued admission"
  let quote ← settledService receipts instances epoch dispatched "quote"
  let inventory ← settledService receipts instances epoch dispatched "inventory"
  require (knownAdmitted ⊆ quote) "Known admission missing"
  require (inventory ⊆ quote) "Uncorrelated downstream work"
  require (knownDownstream ⊆ inventory) "Known downstream admission missing"
  return .obj [("settled", .bool true), ("epoch", epoch), ("admitted", .obj [
    ("quote", .int quote.card), ("inventory", .int inventory.card)])]

/-- A dictionary with an entry for each service. -/
def perService (value : Kind → Json) : List (String × Json) :=
  [("quote", value .quote), ("inventory", value .inventory)]

def Kind.name : Kind → String
  | .quote => "quote"
  | .inventory => "inventory"

/-! ## What is accepted -/

@[simp] theorem require_eq_ok {condition : Prop} [Decidable condition] {reason : String} {u : Unit} :
    require condition reason = .ok u ↔ condition := by
  unfold require
  split <;> simp_all

theorem ok_bind {ε α β : Type} (a : α) (f : α → Except ε β) : (Except.ok a >>= f) = f a := rfl

theorem require_bind_eq_ok {α : Type} {condition : Prop} [Decidable condition] {reason : String}
    {rest : Except PyError α} {a : α} :
    (require condition reason >>= fun _ => rest) = .ok a ↔ condition ∧ rest = .ok a := by
  rw [bind_eq_ok]
  simp

theorem isInstanceText_str (i : Instance) : isInstanceText (.str i.1) = true := i.2

theorem identity?_eq_some {key : String} {n : ℤ} (h : identity? key = some n) :
    key = toString n := by
  unfold identity? at h
  split at h
  · exact canonicalInt?_eq_some.1 h
  · cases h

theorem identity?_toString {n : ℤ} (h : 0 ≤ n) : identity? (toString n) = some n := by
  have hlist : (toString n).toList = Nat.toDigits 10 n.natAbs := by
    rw [toList_int, if_neg (by omega), List.nil_append]
  obtain ⟨d, ds, hd, -⟩ := toDigits_cons n.natAbs
  have hne : toString n ≠ "" := by
    intro he
    rw [he] at hlist
    rw [← hlist] at hd
    cases hd
  have hdigits : (toString n).toList.all Char.isDigit = true := by
    rw [hlist, List.all_eq_true]
    exact fun c hc => isDigit_of_mem hc
  rw [identity?, if_pos ⟨hne, hdigits⟩, canonicalInt?_eq_some]

/-- What the loop accepts of an operation in a receipt. -/
theorem settledOperation_eq_ok {dispatched : Finset ℤ} {key : String} {op : Operation} {i : ℤ} :
    settledOperation dispatched (key, op.toJson) = .ok i ↔
      identity? key = some i ∧ i ∈ dispatched ∧ op.state = .finished ∧
        ∃ f, op.finished = some f ∧ 0 ≤ op.started ∧ 0 ≤ f ∧ op.started ≤ f := by
  have hfields : setEq operationFields op.toJson = .ok true := rfl
  have hstate : subscript "state" op.toJson = .ok (.str op.state.name) := rfl
  have hstarted : subscript "started" op.toJson = .ok (.float op.started) := rfl
  have hfinished : subscript "finished" op.toJson =
      .ok ((op.finished.map Json.float).getD .null) := rfl
  have hname : op.state.name = "finished" ↔ op.state = .finished := by
    cases op.state <;> simp [OperationState.name]
  have hnumber : number? ((op.finished.map Json.float).getD .null) = op.finished := by
    cases op.finished <;> rfl
  unfold settledOperation
  dsimp only
  cases identity? key with
  | none => simp
  | some n =>
      dsimp only
      simp only [hfields, hstate, hstarted, hfinished, bind_eq_ok, Except.ok.injEq, exists_eq_left',
        require_eq_ok, pyEq_str_iff, Json.str.injEq, hname, hnumber, exists_const]
      cases op.finished with
      | none => simp
      | some f =>
          dsimp only [number?]
          rw [require_bind_eq_ok]
          constructor
          · rintro ⟨hmem, -, hdone, htimes, hret⟩
            cases hret
            exact ⟨rfl, hmem, hdone, f, rfl, htimes⟩
          · rintro ⟨hn, hmem, hdone, f', hf, htimes⟩
            cases hn
            cases hf
            exact ⟨hmem, trivial, hdone, htimes, rfl⟩

theorem item_perService (value : Kind → Json) (k : Kind) :
    item (perService value) k.name = .ok (value k) := by
  cases k <;> rfl

theorem downstream_pyEq (g : Gate) (d : Option Instance) :
    PyEq ((g.downstream.map fun i => Json.str i.1).getD .null)
      ((d.map fun i => Json.str i.1).getD .null) ↔ g.downstream = d := by
  cases g.downstream <;> cases d <;> simp [PyEq, canon, Subtype.ext_iff]

/-- What the audit asks of a gate, where `d` is the identity of its downstream. -/
structure Terminal (g : Gate) (instanceId : Instance) (epoch : ℤ) (d : Option Instance) : Prop where
  instanceId : g.instanceId = instanceId
  epoch : g.epoch = epoch
  closed : g.closed = true
  downstream : g.downstream = d
  admitted : g.admitted = g.operations.rows.length
  finished : g.finished = g.operations.rows.length
  bounded : g.operations.rows.length ≤ 128

/-- A round of the loop over the services goes through with the identities `ids`. -/
structure Audited (g : Gate) (instanceId : Instance) (epoch : ℤ) (d : Option Instance)
    (dispatched ids : Finset ℤ) : Prop where
  terminal : Terminal g instanceId epoch d
  operations : ∃ ns : List ℤ, (g.operations.rows.map fun row => (row.1, row.2.toJson)).map
    (settledOperation dispatched) = ns.map .ok ∧ ids = ns.toFinset

/-- The identity of the service behind the service `k`. -/
def behind (instances : Kind → Instance) : Kind → Option Instance
  | .quote => some (instances .inventory)
  | .inventory => none

theorem settledService_eq_ok {gates : Kind → Gate} {instances : Kind → Instance} {epoch : ℤ}
    {dispatched : Finset ℤ} {k : Kind} {ids : Finset ℤ} :
    settledService (perService fun k => (gates k).snapshot) (perService fun k => .str (instances k).1)
      (.int epoch) dispatched k.name = .ok ids ↔
    Audited (gates k) (instances k) epoch (behind instances k) dispatched ids := by
  have hfields : setEq receiptFields (gates k).snapshot = .ok true := rfl
  have hinstance : subscript "instance" (gates k).snapshot = .ok (.str (gates k).instanceId.1) := rfl
  have hepoch : subscript "epoch" (gates k).snapshot = .ok (.int (gates k).epoch) := rfl
  have hclosed : subscript "closed" (gates k).snapshot = .ok (.bool (gates k).closed) := rfl
  have hoperations : subscript "operations" (gates k).snapshot =
      .ok (.obj ((gates k).operations.rows.map fun row => (row.1, row.2.toJson))) := rfl
  have hdownstream : subscript "downstream_instance" (gates k).snapshot =
      .ok (((gates k).downstream.map fun i => Json.str i.1).getD .null) := rfl
  have hadmitted : subscript "admitted" (gates k).snapshot = .ok (.int (gates k).admitted) := rfl
  have hfinished : subscript "finished" (gates k).snapshot = .ok (.int (gates k).finished) := rfl
  have hexpected : expectedDownstream (perService fun k => .str (instances k).1) k.name =
      .ok (((behind instances k).map fun i => Json.str i.1).getD .null) := by
    cases k <;> rfl
  unfold settledService
  simp only [item_perService, ok_bind, hfields, hinstance, hepoch, hclosed, hoperations,
    hdownstream, hadmitted, hfinished, hexpected, require_bind_eq_ok]
  rw [bind_eq_ok]
  simp only [isInstanceText_str, pyEq_str_iff, downstream_pyEq, mapM_eq_ok, List.length_map,
    Json.str.injEq, Json.int.injEq, Json.bool.injEq, Subtype.val_inj, Int.natCast_inj]
  constructor
  · rintro ⟨-, ⟨-, hi, he⟩, hc, hd, ⟨ha, hf, hb⟩, ns, hns, hids⟩
    exact ⟨⟨hi, he, hc, hd, ha, hf, hb⟩, ns, hns, (Except.ok.inj hids).symm⟩
  · rintro ⟨h, ns, hns, hids⟩
    subst hids
    exact ⟨trivial, ⟨trivial, h.instanceId, h.epoch⟩, h.closed, h.downstream,
      ⟨h.admitted, h.finished, h.bounded⟩, ns, hns, rfl⟩

/-- **What the audit accepts**: receipts of two gates that are terminal, each with
operations it can account for. -/
theorem settled_eq_ok {gates : Kind → Gate} {instances : Kind → Instance} {epoch : ℤ}
    {dispatched knownAdmitted knownDownstream : Finset ℤ} {result : Json} :
    settled (perService fun k => (gates k).snapshot) (perService fun k => .str (instances k).1)
      (.int epoch) dispatched knownAdmitted knownDownstream = .ok result ↔
    0 < epoch ∧ (∀ i ∈ dispatched ∪ knownAdmitted, 0 ≤ i ∧ i < 128) ∧
      knownAdmitted ⊆ dispatched ∧ knownDownstream ⊆ knownAdmitted ∧
      ∃ ids : Kind → Finset ℤ,
        (∀ k, Audited (gates k) (instances k) epoch (behind instances k) dispatched (ids k)) ∧
        knownAdmitted ⊆ ids .quote ∧ ids .inventory ⊆ ids .quote ∧
        knownDownstream ⊆ ids .inventory ∧
        result = .obj [("settled", .bool true), ("epoch", .int epoch), ("admitted", .obj [
          ("quote", .int (ids .quote).card), ("inventory", .int (ids .inventory).card)])] := by
  have hkeys : ∀ value : Kind → Json,
      setEq ["quote", "inventory"] (.obj (perService value)) = .ok true := fun _ => rfl
  unfold settled
  simp only [ok_bind, hkeys, require_bind_eq_ok]
  simp only [bind_eq_ok, require_eq_ok, exists_const]
  constructor
  · rintro ⟨he, -, hrange, ⟨hknown, hdown⟩, quote, hq, inventory, hi, hkq, hiq, hdi, hres⟩
    refine ⟨he, hrange, hknown, hdown, fun | .quote => quote | .inventory => inventory, ?_,
      hkq, hiq, hdi, (Except.ok.inj hres).symm⟩
    intro k
    cases k with
    | quote => exact settledService_eq_ok.1 hq
    | inventory => exact settledService_eq_ok.1 hi
  · rintro ⟨he, hrange, hknown, hdown, ids, hids, hkq, hiq, hdi, rfl⟩
    exact ⟨he, ⟨trivial, trivial⟩, hrange, ⟨hknown, hdown⟩,
      ids .quote, settledService_eq_ok.2 (hids .quote),
      ids .inventory, settledService_eq_ok.2 (hids .inventory), hkq, hiq, hdi, rfl⟩

/-! ## The operations of a receipt -/

/-- Nothing is active in a receipt that goes through. -/
theorem Audited.all_finished {g : Gate} {instanceId : Instance} {epoch : ℤ} {d : Option Instance}
    {dispatched ids : Finset ℤ} (h : Audited g instanceId epoch d dispatched ids) :
    ∀ row ∈ g.operations.rows, row.2.state = .finished := by
  obtain ⟨ns, hns, -⟩ := h.operations
  intro row hrow
  have hmem : settledOperation dispatched (row.1, row.2.toJson) ∈ ns.map Except.ok := by
    rw [← hns]
    exact List.mem_map_of_mem (List.mem_map_of_mem hrow)
  obtain ⟨n, -, hn⟩ := List.mem_map.1 hmem
  exact (settledOperation_eq_ok.1 hn.symm).2.2.1

/-- Operations that have returned, with identities that were sent, go through. -/
theorem audited_of_terminal {g : Gate} {instanceId : Instance} {epoch : ℤ} {d : Option Instance}
    {dispatched ids : Finset ℤ} (h : Terminal g instanceId epoch d)
    (hids : ∀ n : ℤ, n ∈ ids ↔ ∃ op, (toString n, op) ∈ g.operations.rows)
    (hrows : ∀ row ∈ g.operations.rows, ∃ n : ℤ, row.1 = toString n ∧ 0 ≤ n ∧ n ∈ dispatched ∧
      row.2.state = .finished ∧ ∃ f, row.2.finished = some f ∧ 0 ≤ row.2.started ∧ 0 ≤ f ∧
        row.2.started ≤ f) : Audited g instanceId epoch d dispatched ids := by
  have hok : ∀ row ∈ g.operations.rows, ∃ n : ℤ, row.1 = toString n ∧
      settledOperation dispatched (row.1, row.2.toJson) = .ok n := by
    intro row hrow
    obtain ⟨n, hkey, hn, hmem, hrest⟩ := hrows row hrow
    refine ⟨n, hkey, settledOperation_eq_ok.2 ⟨?_, hmem, hrest⟩⟩
    rw [hkey, identity?_toString hn]
  have hrange : (g.operations.rows.map fun row => (row.1, row.2.toJson)).map
      (settledOperation dispatched) ∈ Set.range (List.map Except.ok) := by
    rw [Set.range_list_map]
    intro result hresult
    obtain ⟨_, hentry, rfl⟩ := List.mem_map.1 hresult
    obtain ⟨row, hrow, rfl⟩ := List.mem_map.1 hentry
    obtain ⟨n, -, hn⟩ := hok row hrow
    exact ⟨n, hn.symm⟩
  obtain ⟨ns, hns⟩ := hrange
  refine ⟨h, ns, hns.symm, ?_⟩
  ext n
  rw [List.mem_toFinset, hids, ← List.mem_map_of_injective (fun _ _ => Except.ok.inj), hns,
    List.map_map, List.mem_map]
  constructor
  · rintro ⟨op, hop⟩
    obtain ⟨m, hkey, hm⟩ := hok _ hop
    rw [← toString_int_injective hkey] at hm
    exact ⟨_, hop, hm⟩
  · rintro ⟨row, hrow, hn⟩
    obtain ⟨m, hkey, hm⟩ := hok row hrow
    rw [Function.comp_apply, hm] at hn
    cases hn
    exact ⟨row.2, hkey ▸ hrow⟩

end AutonomyLab.Settlement
