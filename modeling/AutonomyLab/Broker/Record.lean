import AutonomyLab.Broker.Program

/-!
# The record of one operation

Everything the journal holds about an operation — its row, its events in order and
its binding — is its `Record`.  Every transaction touches the record of one operation
and leaves all others alone, so what the journal can go through is said by what one
record can go through.

* `Effect` — the changes a committed transaction makes to a record: eight of them, and
  none that takes a row away.
* `effect_propose`, `effect_claim`, … — each transaction is one of these changes on
  its own operation and none on any other.
-/

namespace AutonomyLab.Broker

open Json Contract Store

/-- What the journal holds about one operation. -/
structure Record where
  row : Option Row
  entries : List Entry
  contract : Option (Option Json)

def Record.binding (r : Record) : Json := r.contract.join.getD .null

def Record.status? (r : Record) : Option Status := r.row.map Row.status

namespace Journal

def record (id : String) (j : Journal) : Record :=
  ⟨j.operations.find? id, j.events.filter (·.operationId = id), j.contracts.find? id⟩

theorem record_row (id : String) (j : Journal) : (j.record id).row = j.operations.find? id := rfl

theorem record_status? (id : String) (j : Journal) : (j.record id).status? = j.status? id := rfl

theorem record_binding (id : String) (j : Journal) : (j.record id).binding = j.binding id := rfl

@[simp] theorem record_empty (id : String) : empty.record id = ⟨none, [], none⟩ := rfl

theorem record_addEvent (id k : String) (event : EventName) (details : List (String × Json))
    (j : Journal) : (j.addEvent id event details).record k =
      if k = id then { j.record k with entries := (j.record k).entries ++ [⟨id, event, details⟩] }
      else j.record k := by
  by_cases h : k = id
  · subst h; simp [record, addEvent]
  · simp [record, addEvent, h, Ne.symm h]

theorem record_updateRow (id k : String) (f : Row → Row) (j : Journal) :
    (j.updateRow id f).record k =
      if k = id then { j.record k with row := (j.record k).row.map f } else j.record k := by
  by_cases h : k = id
  · subst h; simp [record, updateRow]
  · simp [record, updateRow, h, Table.find?_update_of_ne h]

theorem newRow_request (P : Platform) (policy : BrokerPolicy) (p : Proposal) (used : ℕ) :
    (newRow P policy p used).request = p.modelDump := rfl

/-- The journal a transaction commits: the one it started from, where it raises. -/
def commit {ε α : Type} (j : Journal) : Except ε (α × Journal) → Journal
  | .ok (_, j') => j'
  | .error _ => j

end Journal

/-- A binding that is settled: its conditions have been recorded, or it asks for none. -/
def Settled (binding : Json) : Prop :=
  (∃ s, subscript "snapshot" binding = .ok s ∧ s ≠ .null) ∨
    ∃ c, subscript "contract_id" binding = .ok c ∧ ¬ PyEq c (.str precise)

/-- A status that a dispatch may come to. -/
def Status.isOutcome : Status → Bool
  | .acknowledged | .rejected | .uncertain => true
  | _ => false

theorem isOutcome_outcome (p : Proposal) (answer : Except BrokerError Json) :
    (outcome p answer).status.isOutcome = true := by
  unfold outcome
  split
  · rfl
  · rfl
  · split <;> rfl
  · split <;> rfl

/-- The operation a label claims for dispatch. -/
def Label.claimOf {Λ : Type} : Label Λ → Option String
  | .endClaim id none => some id
  | _ => none

section
variable (P : Platform) {Λ : Type} (o id : String)

/-- What an act of instance `o` does to the record of the operation `id`. -/
inductive Effect : Label Λ → Record → Record → Prop
  | same {l r} : l.claimOf ≠ some id → Effect l r r
  | proposed {p policy used row binding es} : p.operationId.1 = id →
      row = Journal.newRow P policy p used →
      bindingFor P p.modelDump (.str policy.operationContract) .null = .ok binding →
      Effect (.propose p) ⟨none, es, none⟩
        ⟨some row, es ++ [⟨id, .status row.status, [("reason", .str row.reason)]⟩],
          some (some binding)⟩
  | noted {e row es c} : Effect (.preflightUnavailable id e) ⟨some row, es, c⟩
      ⟨some row, es ++ [⟨id, .preflightUnavailable, [("error_type", .str e.name)]⟩], c⟩
  | recorded {p candidate sum row es c} : p.operationId.1 = id → row.status = .prepared →
      ¬ Settled (c.getD .null) →
      Effect (.recordConditions p candidate) ⟨some row, es, some c⟩
        ⟨some row, es ++ [⟨id, .conditionsRecorded, [("binding_sha256", sum)]⟩],
          some (some candidate)⟩
  | rejected {l reason owner row es c} :
      (∃ expected, l = .rejectPrepared id reason expected) ∨ l = .endClaim id (some reason) →
      row.status = .prepared →
      Effect l ⟨some row, es, c⟩
        ⟨some { row with
            status := .rejected, reason := reason, budgetReserved := false, owner := owner },
          es ++ [⟨id, .status .rejected, [("reason", .str reason)]⟩,
            ⟨id, .budgetReleased, [("reason", .str reason)]⟩], c⟩
  | claimed {row es c} : row.status = .prepared →
      Effect (.endClaim id none) ⟨some row, es, c⟩
        ⟨some { row with
            status := .dispatching, reason := "dispatch_started", budgetReserved := true,
            owner := some o },
          es ++ [⟨id, .status .dispatching, [("reason", .str "dispatch_started")]⟩], c⟩
  | finished {out : Journal.Outcome} {row es c} : out.status.isOutcome = true →
      row.status = .dispatching ∨ row.status = .uncertain → row.owner = some o →
      Effect (.finish id out) ⟨some row, es, c⟩
        ⟨some { row with status := out.status, reason := out.reason, result := out.result },
          es ++ [⟨id, .status out.status,
            [("reason", .str out.reason), ("result", out.result.getD .null)]⟩], c⟩
  | reconciled {observed row es c} :
      Effect (.reconcile id observed) ⟨some row, es, c⟩
        ⟨some { row with
            reconciliation := some (.obj observed)
            status := if row.status = .dispatching then .uncertain else row.status
            reason := if row.status = .dispatching then "dispatch_outcome_unrecorded"
              else row.reason },
          es ++ [⟨id, .reconciled, observed⟩], c⟩

end

/-! ## What every change keeps -/

section
variable {P : Platform} {Λ : Type} {o id : String} {l : Label Λ} {r r' : Record} {row : Row}

/-- Rows stay, and so do the parts of them that say what was asked for. -/
theorem Effect.keeps_row (h : Effect P o id l r r') (hr : r.row = some row) :
    ∃ row', r'.row = some row' ∧ row'.request = row.request ∧ row'.runId = row.runId := by
  cases h <;> simp_all

/-- A row that is new was proposed. -/
theorem Effect.of_new (h : Effect P o id l r r') (hr : r.row = none) (hr' : r'.row = some row) :
    ∃ p policy used, l = .propose p ∧ p.operationId.1 = id ∧
      row = Journal.newRow P policy p used := by
  cases h with
  | same _ => rw [hr] at hr'; cases hr'
  | @proposed p policy used _ _ _ hid hrow _ =>
      cases hr'
      exact ⟨p, policy, used, rfl, hid, hrow⟩
  | _ => cases hr

/-- Once an operation is not prepared any more, it never is again. -/
theorem Effect.keeps_left {s : Status} (h : Effect P o id l r r') (hr : r.status? = some s)
    (hs : s ≠ .prepared) : ∃ s', r'.status? = some s' ∧ s' ≠ .prepared := by
  cases h with
  | same _ => exact ⟨s, hr, hs⟩
  | proposed _ _ _ => cases hr
  | noted => exact ⟨s, hr, hs⟩
  | recorded _ _ _ => exact ⟨s, hr, hs⟩
  | rejected _ _ => exact ⟨.rejected, rfl, nofun⟩
  | claimed _ => exact ⟨.dispatching, rfl, nofun⟩
  | @finished out _ _ _ hout _ _ =>
      refine ⟨out.status, rfl, fun hp => ?_⟩
      rw [hp] at hout
      cases hout
  | @reconciled _ row _ _ =>
      refine ⟨_, rfl, ?_⟩
      have hrow : row.status = s := Option.some.inj hr
      dsimp only
      split
      · nofun
      · exact hrow ▸ hs

/-- A claim finds an operation prepared and moves it to `dispatching`. -/
theorem Effect.of_claim (h : Effect P o id (.endClaim id none : Label Λ) r r') :
    ∃ row, r.row = some row ∧ row.status = .prepared ∧ r'.row = some { row with
      status := .dispatching, reason := "dispatch_started", budgetReserved := true,
      owner := some o } := by
  cases h with
  | same hl => exact absurd rfl hl
  | rejected hl _ =>
      rcases hl with ⟨_, hl⟩ | hl
      · cases hl
      · cases hl
  | claimed hs => exact ⟨_, rfl, hs, rfl⟩

/-- Only a claim moves an operation from `prepared` to `dispatching`. -/
theorem Effect.claimOf_of_start (h : Effect P o id l r r') (hr : r.status? = some .prepared)
    (hr' : r'.status? = some .dispatching) : l.claimOf = some id := by
  cases h with
  | same _ => cases hr.symm.trans hr'
  | proposed _ _ _ => cases hr
  | noted => cases hr.symm.trans hr'
  | recorded _ _ _ => cases hr.symm.trans hr'
  | rejected _ _ => cases hr'
  | claimed _ => rfl
  | @finished out row _ _ _ hs _ =>
      have hp : row.status = .prepared := Option.some.inj hr
      rw [hp] at hs
      rcases hs with hs | hs <;> cases hs
  | @reconciled _ row _ _ =>
      have hp : row.status = .prepared := Option.some.inj hr
      simp [Record.status?, hp] at hr'

/-- What has been claimed keeps its owner, and unless its outcome is recorded it can only
become uncertain. -/
theorem Effect.keeps_owner (h : Effect P o id l r r') (hr : r.row = some row)
    (hs : row.status ≠ .prepared) (hl : ∀ out, l ≠ .finish id out) :
    ∃ row', r'.row = some row' ∧ row'.owner = row.owner ∧
      (row'.status = row.status ∨ row.status = .dispatching ∧ row'.status = .uncertain) := by
  cases h with
  | same _ => exact ⟨row, hr, rfl, .inl rfl⟩
  | proposed _ _ _ => cases hr
  | noted => cases hr; exact ⟨row, rfl, rfl, .inl rfl⟩
  | recorded _ _ _ => cases hr; exact ⟨row, rfl, rfl, .inl rfl⟩
  | rejected _ hp => cases hr; exact absurd hp hs
  | claimed hp => cases hr; exact absurd hp hs
  | finished _ _ _ => exact absurd rfl (hl _)
  | reconciled =>
      cases hr
      refine ⟨_, rfl, rfl, ?_⟩
      by_cases hd : row.status = .dispatching
      · exact .inr ⟨hd, if_pos hd⟩
      · exact .inl (if_neg hd)

/-- A settled binding never changes. -/
theorem Effect.keeps_settled (h : Effect P o id l r r') (hr : Settled r.binding) :
    r'.binding = r.binding := by
  cases h with
  | proposed _ _ _ =>
      rcases hr with ⟨s, hs, -⟩ | ⟨c, hc, -⟩
      · cases hs
      · cases hc
  | recorded _ _ hn => exact absurd hr hn
  | _ => rfl

end

/-! ## Every transaction is one of these changes -/

section
variable {P : Platform} {Λ : Type} {o id k : String} {p : Proposal} {j : Journal}

theorem record_eq {row : Option Row} (h : j.operations.find? k = row) :
    j.record k = ⟨row, (j.record k).entries, (j.record k).contract⟩ := by
  rw [← h]; rfl

/-- What `propose` can do: nothing, or insert one row, one event and one binding. -/
theorem propose_cases (P : Platform) (policy : BrokerPolicy) (p : Proposal) (j : Journal) :
    j.commit (j.propose P policy p) = j ∨ ∃ row binding operations contracts,
      row = Journal.newRow P policy p (j.used p.runId.1) ∧
      bindingFor P p.modelDump (.str policy.operationContract) .null = .ok binding ∧
      j.operations.insert p.operationId.1 row = some operations ∧
      j.contracts.insert p.operationId.1 (some binding) = some contracts ∧
      j.propose P policy p = .ok (row.budgetReserved,
        { (j.addEvent p.operationId.1 (.status row.status) [("reason", .str row.reason)]) with
          operations, contracts }) := by
  cases hrow : j.operations.find? p.operationId.1 with
  | some existing =>
      refine .inl ?_
      by_cases hd : existing.digest = digest P p.modelDump <;>
        simp [Journal.propose, hrow, hd, Journal.commit]
  | none =>
      by_cases hc : Contract.contracts.contains policy.operationContract = true
      · cases hb : bindingFor P p.modelDump (.str policy.operationContract) .null with
        | error e => exact .inl (by simp only [Journal.propose, hrow, hc, hb]; rfl)
        | ok binding =>
            cases hop : j.operations.insert p.operationId.1
                (Journal.newRow P policy p (j.used p.runId.1)) with
            | none => exact .inl (by simp only [Journal.propose, hrow, hc, hb, hop]; rfl)
            | some operations =>
                cases hct : j.contracts.insert p.operationId.1 (some binding) with
                | none => exact .inl (by simp only [Journal.propose, hrow, hc, hb, hop, hct]; rfl)
                | some contracts =>
                    refine .inr ⟨_, binding, operations, contracts, rfl, rfl, hop, hct, ?_⟩
                    simp only [Journal.propose, hrow, hc, hb, hop, hct]
                    rfl
      · exact .inl (by simp only [Journal.propose, hrow, hc]; rfl)

theorem effect_propose {policy : BrokerPolicy} :
    Effect P o k (.propose p : Label Λ) (j.record k) ((j.commit (j.propose P policy p)).record k) := by
  rcases propose_cases P policy p j with h | ⟨row, binding, operations, contracts, hrow, hb, hop, hc, h⟩
  · rw [h]
    exact .same nofun
  · rw [h, Journal.commit]
    by_cases hk : k = p.operationId.1
    · subst hk
      have hr : j.operations.find? p.operationId.1 = none := (Table.insert_eq_some hop).1
      have hn : j.contracts.find? p.operationId.1 = none := (Table.insert_eq_some hc).1
      have : Effect P o p.operationId.1 (.propose p : Label Λ)
          ⟨none, (j.record p.operationId.1).entries, none⟩ _ := .proposed rfl hrow hb
      simpa [Journal.record, Journal.addEvent, Table.find?_insert hop, Table.find?_insert hc, hr, hn]
        using this
    · have hsame : ({ (j.addEvent p.operationId.1 (.status row.status)
          [("reason", .str row.reason)]) with operations, contracts } : Journal).record k =
            j.record k := by
        simp [Journal.record, Journal.addEvent, Table.find?_insert hop, Table.find?_insert hc, hk,
          Ne.symm hk]
      rw [hsame]
      exact .same nofun

theorem effect_addEvent {e : BrokerError} {row : Row} (h : j.operations.find? id = some row) :
    Effect P o k (.preflightUnavailable id e : Label Λ) (j.record k)
      ((j.addEvent id .preflightUnavailable [("error_type", .str e.name)]).record k) := by
  rw [Journal.record_addEvent]
  by_cases hk : k = id
  · subst hk
    rw [if_pos rfl, record_eq h]
    exact .noted
  · rw [if_neg hk]
    exact .same nofun

/-- What a binding has to be for a policy to accept it. -/
theorem contractReason_eq_none {policy : BrokerPolicy} {binding : Json} :
    Journal.contractReason P policy p binding = none ↔
      validateBinding P p.modelDump binding = .ok () ∧
      subscript "contract_id" binding = .ok (.str policy.operationContract) ∧
      ∃ s, subscript "snapshot" binding = .ok s ∧
        (s ≠ .null → ∃ ops, patchForBinding P p.modelDump binding = .ok ops) := by
  unfold Journal.contractReason
  dsimp only
  constructor
  · intro h
    split at h
    · rename_i r hr
      subst h
      obtain ⟨_, hv, hr⟩ := bind_eq_ok.1 hr
      obtain ⟨c, hc, hr⟩ := bind_eq_ok.1 hr
      split at hr
      · cases hr
      · rename_i hp
        rw [not_not, pyEq_str_iff] at hp
        obtain ⟨s, hs, hr⟩ := bind_eq_ok.1 hr
        refine ⟨hv, hp ▸ hc, s, hs, fun hn => ?_⟩
        rw [if_pos hn] at hr
        obtain ⟨ops, hops, -⟩ := bind_eq_ok.1 hr
        exact ⟨ops, hops⟩
    · cases h
  · rintro ⟨hv, hc, s, hs, hops⟩
    by_cases hn : s = .null
    · simp [hv, hc, hs, hn, bind, Except.bind, pure, Except.pure, PyEq.refl]
    · obtain ⟨ops, hops⟩ := hops hn
      simp [hv, hc, hs, hn, hops, bind, Except.bind, pure, Except.pure, PyEq.refl]

theorem recordable_eq_true (h : Journal.recordable P p j = .ok true) :
    j.status? p.operationId.1 = some .prepared ∧
      validateBinding P p.modelDump (j.binding p.operationId.1) = .ok () ∧
      subscript "snapshot" (j.binding p.operationId.1) = .ok .null ∧
      subscript "contract_id" (j.binding p.operationId.1) = .ok (.str precise) := by
  obtain ⟨_, hv, h⟩ := bind_eq_ok.1 h
  cases hs : j.status? p.operationId.1 with
  | none => simp [hs] at h
  | some state =>
      rw [hs] at h
      dsimp only at h
      split at h
      · rename_i hp
        obtain ⟨snapshot, hsn, h⟩ := bind_eq_ok.1 h
        obtain ⟨contractId, hc, h⟩ := bind_eq_ok.1 h
        have hcond : snapshot = .null ∧ PyEq contractId (.str precise) :=
          of_decide_eq_true (Except.ok.inj h)
        rw [pyEq_str_iff] at hcond
        exact ⟨by rw [hp], hv, hcond.1 ▸ hsn, hcond.2 ▸ hc⟩
      · cases h

/-- What `recordConditions` can do: nothing, or store the candidate in place of a
binding that is not settled. -/
theorem recordConditions_cases (P : Platform) (p : Proposal) (candidate : Json) (j : Journal) :
    (j.commit (j.recordConditions P p candidate) = j ∧
      ∀ b j', j.recordConditions P p candidate = .ok (b, j') → b = j.binding p.operationId.1) ∨
    (Journal.recordable P p j = .ok true ∧
      ∃ sum, j.recordConditions P p candidate = .ok (candidate,
        { (j.addEvent p.operationId.1 .conditionsRecorded [("binding_sha256", sum)]) with
          contracts := j.contracts.update p.operationId.1 fun _ => some candidate })) := by
  cases hr : Journal.recordable P p j with
  | error e => exact .inl ⟨by simp only [Journal.recordConditions, hr]; rfl,
      fun b j' h => by simp only [Journal.recordConditions, hr] at h; cases h⟩
  | ok r =>
      cases r with
      | false =>
          refine .inl ⟨by simp only [Journal.recordConditions, hr]; rfl, fun b j' h => ?_⟩
          simp only [Journal.recordConditions, hr, Except.ok.injEq, Prod.mk.injEq] at h
          exact h.1.symm
      | true =>
          cases hs : subscript "binding_sha256" candidate with
          | error e => exact .inl ⟨by simp only [Journal.recordConditions, hr, hs]; rfl,
              fun b j' h => by simp only [Journal.recordConditions, hr, hs] at h; cases h⟩
          | ok sum => exact .inr ⟨rfl, sum, by simp only [Journal.recordConditions, hr, hs]⟩

theorem not_settled {binding : Json} (hs : subscript "snapshot" binding = .ok .null)
    (hc : subscript "contract_id" binding = .ok (.str precise)) : ¬ Settled binding := by
  rintro (⟨s, h, hn⟩ | ⟨c, h, hn⟩)
  · rw [hs, Except.ok.injEq] at h
    exact hn h.symm
  · rw [hc, Except.ok.injEq] at h
    exact hn (h ▸ PyEq.refl _)

/-- Conditions that are recorded are in force. -/
theorem binding_recordConditions {candidate b : Json} {j' : Journal}
    (h : j.recordConditions P p candidate = .ok (b, j')) : j'.binding p.operationId.1 = b := by
  rcases recordConditions_cases P p candidate j with ⟨hc, hb⟩ | ⟨hr, sum, hc⟩
  · rw [h] at hc
    have : j' = j := hc
    rw [this, hb b j' h]
  · rw [hc, Except.ok.injEq, Prod.mk.injEq] at h
    obtain ⟨rfl, rfl⟩ := h
    obtain ⟨-, -, hsn, -⟩ := recordable_eq_true hr
    cases hf : j.contracts.find? p.operationId.1 with
    | none => simp [Journal.binding, hf, subscript] at hsn
    | some c => simp [Journal.binding, hf]

theorem effect_recordConditions {candidate : Json} :
    Effect P o k (.recordConditions p candidate : Label Λ) (j.record k)
      ((j.commit (j.recordConditions P p candidate)).record k) := by
  rcases recordConditions_cases P p candidate j with ⟨h, -⟩ | ⟨hr, sum, h⟩
  · rw [h]
    exact .same nofun
  · obtain ⟨hs, -, hsn, hc⟩ := recordable_eq_true hr
    obtain ⟨row, hrow, hst⟩ := Option.map_eq_some_iff.1 hs
    rw [h, Journal.commit]
    by_cases hk : k = p.operationId.1
    · subst hk
      have hcon : ∃ c, j.contracts.find? p.operationId.1 = some c := by
        cases hf : j.contracts.find? p.operationId.1 with
        | some c => exact ⟨c, rfl⟩
        | none => simp [Journal.binding, hf, subscript] at hsn
      obtain ⟨c, hcon⟩ := hcon
      have hns : ¬ Settled (c.getD .null) := by
        have : j.binding p.operationId.1 = c.getD .null := by rw [Journal.binding, hcon]; rfl
        exact this ▸ not_settled hsn hc
      simp only [Journal.record, Journal.addEvent, hrow, hcon, Table.find?_update_self,
        Option.map_some, List.filter_append, List.filter_singleton, decide_true]
      exact .recorded rfl hst hns
    · have hsame : ({ (j.addEvent p.operationId.1 .conditionsRecorded [("binding_sha256", sum)]) with
          contracts := j.contracts.update p.operationId.1 fun _ => some candidate } :
            Journal).record k = j.record k := by
        simp [Journal.record, Journal.addEvent, Table.find?_update_of_ne hk, Ne.symm hk]
      rw [hsame]
      exact .same nofun

theorem effect_rejectPrepared {reason : String} {expected : Option Json} :
    Effect P o k (.rejectPrepared id reason expected : Label Λ) (j.record k)
      ((j.rejectPrepared id reason expected).record k) := by
  unfold Journal.rejectPrepared
  split
  · exact .same nofun
  · split
    · rename_i hs
      obtain ⟨row, hrow, hst⟩ := Option.map_eq_some_iff.1 hs
      rw [Journal.record_addEvent, Journal.record_addEvent, Journal.record_updateRow]
      by_cases hk : k = id
      · subst hk
        rw [record_eq hrow]
        simp only [if_true, Option.map_some, List.append_assoc, List.cons_append, List.nil_append]
        exact .rejected (.inl ⟨expected, rfl⟩) hst
      · simp only [if_neg hk]
        exact .same nofun
    · exact .same nofun

theorem effect_claim (h : j.status? id = some .prepared) :
    Effect P o k (.endClaim id none : Label Λ) (j.record k) ((j.claim o id none).2.record k) := by
  obtain ⟨row, hrow, hst⟩ := Option.map_eq_some_iff.1 h
  simp only [Journal.claim, h, Journal.record_addEvent, Journal.record_updateRow]
  by_cases hk : k = id
  · subst hk
    rw [record_eq hrow]
    have : Effect P o k (.endClaim k none : Label Λ)
        ⟨some row, (j.record k).entries, (j.record k).contract⟩ _ := .claimed hst
    simpa using this
  · simp only [if_neg hk]
    exact .same (by simp [Label.claimOf, Ne.symm hk])

theorem effect_refuse {reason : String} (h : j.status? id = some .prepared) :
    Effect P o k (.endClaim id (some reason) : Label Λ) (j.record k)
      ((j.claim o id (some reason)).2.record k) := by
  obtain ⟨row, hrow, hst⟩ := Option.map_eq_some_iff.1 h
  simp only [Journal.claim, h, Journal.record_addEvent, Journal.record_updateRow]
  by_cases hk : k = id
  · subst hk
    rw [record_eq hrow]
    simp only [if_true, Option.map_some, List.append_assoc, List.cons_append, List.nil_append]
    exact .rejected (.inr rfl) hst
  · simp only [if_neg hk]
    exact .same nofun

theorem effect_finish {out : Journal.Outcome} (hout : out.status.isOutcome = true) :
    Effect P o k (.finish id out : Label Λ) (j.record k) ((j.finish o id out).record k) := by
  unfold Journal.finish
  split
  · rename_i row hrow
    split
    · rename_i hcond
      rw [Journal.record_addEvent, Journal.record_updateRow]
      by_cases hk : k = id
      · subst hk
        rw [record_eq hrow]
        have : Effect P o k (.finish k out : Label Λ)
            ⟨some row, (j.record k).entries, (j.record k).contract⟩ _ :=
          .finished hout hcond.1 hcond.2
        simpa using this
      · simp only [if_neg hk]
        exact .same nofun
    · exact .same nofun
  · exact .same nofun

theorem effect_reconcile {observed : List (String × Json)} {row : Row}
    (h : j.operations.find? id = some row) :
    Effect P o k (.reconcile id observed : Label Λ) (j.record k)
      ((j.reconcile id observed).record k) := by
  unfold Journal.reconcile
  rw [Journal.record_addEvent, Journal.record_updateRow]
  by_cases hk : k = id
  · subst hk
    rw [record_eq h]
    have : Effect P o k (.reconcile k observed : Label Λ)
        ⟨some row, (j.record k).entries, (j.record k).contract⟩ _ := .reconciled
    simpa using this
  · simp only [if_neg hk]
    exact .same nofun

end

end AutonomyLab.Broker
