import AutonomyLab.Broker.Dispatch

/-!
# The event journal and the dispatch budget

Two readings of the journal that a broker has created itself.

* `replay` — the status and the reservation that the events of an operation tell of, in
  order.  `Trace.faithful` says that they tell what the row says.
* `claimedIn` — the operations of a run that have been claimed.
  `Trace.budget_iff` says which rows have given their reservation back, and
  `Trace.claimedIn_le` that a claim never exceeds the limit it was checked against.
-/

namespace AutonomyLab.Broker

open Json Contract Process Store

variable {ρ Λ : Type} {P : Platform} {E : Ext ρ Λ} {j : Journal} {hist past : List (Did ρ Λ)}
  {e : Did ρ Λ} {id : String}

/-! ## Replaying events -/

/-- What one event says about status and reservation. -/
def replayEvent : Option Status × Bool → EventName → Option Status × Bool
  | _, .status .prepared => (some .prepared, true)
  | (_, reserved), .status s => (some s, reserved)
  | (s, _), .budgetReleased => (s, false)
  | (s, reserved), .reconciled => (if s = some .dispatching then some .uncertain else s, reserved)
  | x, .conditionsRecorded => x
  | x, .preflightUnavailable => x

/-- What a sequence of events says. -/
def replay (entries : List Entry) : Option Status × Bool :=
  entries.foldl (fun x entry => replayEvent x entry.event) (none, false)

/-- The events of an operation, in order. -/
def Journal.history (id : String) (j : Journal) : List Entry :=
  j.events.filter (·.operationId = id)

theorem replay_append (entries : List Entry) (entry : Entry) :
    replay (entries ++ [entry]) = replayEvent (replay entries) entry.event := by
  simp [replay]

/-- A record whose events tell what its row says. -/
def Record.Faithful (r : Record) : Prop :=
  match r.row with
  | none => r.entries = [] ∧ r.contract = none
  | some row => replay r.entries = (some row.status, row.budgetReserved) ∧
      (row.status = .prepared → row.budgetReserved = true)

/-- Every change of a record keeps its events faithful. -/
theorem Effect.faithful {o : String} {l : Label Λ} {r r' : Record} (h : Effect P o id l r r')
    (hr : r.Faithful) : r'.Faithful := by
  cases h with
  | same _ => exact hr
  | @proposed p policy used row binding es hid hrow hb =>
      obtain rfl : es = [] := hr.1
      have hreason : row.status = .prepared ∧ row.budgetReserved = true ∨
          row.status = .rejected ∧ row.budgetReserved = false := by
        rw [hrow, Journal.newRow]
        generalize (policy.policyReason p).or _ = reason
        cases reason with
        | none => exact .inl ⟨rfl, rfl⟩
        | some _ => exact .inr ⟨rfl, rfl⟩
      refine ⟨?_, fun hp => ?_⟩
      · rw [replay_append]
        rcases hreason with ⟨hs, hbud⟩ | ⟨hs, hbud⟩ <;> rw [hs, hbud] <;> rfl
      · rcases hreason with ⟨-, hbud⟩ | ⟨hs, -⟩
        · exact hbud
        · rw [hs] at hp
          cases hp
  | noted => exact ⟨by rw [replay_append, hr.1]; rfl, hr.2⟩
  | recorded _ _ _ => exact ⟨by rw [replay_append, hr.1]; rfl, hr.2⟩
  | @rejected l reason owner row es c _ hs =>
      refine ⟨?_, nofun⟩
      dsimp only
      rw [List.append_cons, replay_append, replay_append, hr.1]
      rfl
  | claimed hs =>
      refine ⟨?_, fun _ => rfl⟩
      rw [replay_append, hr.1, hr.2 hs]
      rfl
  | @finished out row es c hout hs _ =>
      refine ⟨?_, fun hp => ?_⟩
      · rw [replay_append, hr.1]
        cases hst : out.status <;> simp_all [replayEvent, Status.isOutcome]
      · simp only at hp
        rw [hp] at hout
        cases hout
  | @reconciled observed row es c =>
      refine ⟨?_, fun hp => ?_⟩
      · rw [replay_append, hr.1]
        by_cases hd : row.status = .dispatching <;> simp [replayEvent, hd]
      · by_cases hd : row.status = .dispatching
        · simp [hd] at hp
        · exact hr.2 (by simpa [hd] using hp)

theorem Trace.faithful (h : Trace P E .empty hist j) (id : String) : (j.record id).Faithful := by
  induction h with
  | nil => exact ⟨rfl, rfl⟩
  | cons _ ha ih => exact (ha.effect id).faithful ih

/-- **The event journal is a faithful log**: replaying the events of an operation gives
the status and the reservation in its row. -/
theorem Trace.replay_eq (h : Trace P E .empty hist j) {row : Row}
    (hrow : j.operations.find? id = some row) :
    replay (j.history id) = (some row.status, row.budgetReserved) := by
  have := h.faithful id
  rw [record_eq hrow] at this
  exact this.1

/-! ## The budget -/

/-- A change other than a claim keeps it true that a reservation is given back exactly by
a rejection without a claim; `C` says that there is none. -/
theorem Effect.budget_iff {o : String} {l : Label Λ} {r r' : Record} {C : Prop}
    (h : Effect P o id l r r') (hl : l.claimOf ≠ some id)
    (hr : ∀ row, r.row = some row → (row.budgetReserved = false ↔ row.status = .rejected ∧ C))
    (hnew : (∀ s, r.status? = some s → s = .prepared) → C)
    (hfinish : ∀ out, l = .finish id out → ¬ C) :
    ∀ row, r'.row = some row → (row.budgetReserved = false ↔ row.status = .rejected ∧ C) := by
  cases h with
  | same _ => exact hr
  | @proposed p policy used row binding es _ hrow _ =>
      rintro _ ⟨⟩
      have hC : C := hnew nofun
      rw [hrow, Journal.newRow]
      generalize (policy.policyReason p).or _ = reason
      cases reason <;> simp [hC]
  | noted => exact hr
  | recorded _ _ _ => exact hr
  | @rejected l reason owner row es c _ hs =>
      rintro _ ⟨⟩
      have hC : C := hnew fun s h => by rw [← Option.some.inj h, hs]
      simp [hC]
  | claimed _ => exact absurd rfl hl
  | @finished out row es c _ hs _ =>
      rintro _ ⟨⟩
      have hC := hfinish out rfl
      have hrow := hr row rfl
      have hn : row.status ≠ .rejected := fun h => by simp [h] at hs
      simp_all
  | @reconciled observed row es c =>
      rintro _ ⟨⟩
      rw [show (_ : Row).budgetReserved = row.budgetReserved from rfl, hr row rfl]
      by_cases hd : row.status = .dispatching <;> simp [hd]

/-- **A reservation is given back exactly by a rejection without a claim.** -/
theorem Trace.budget_iff (h : Trace P E .empty hist j) {row : Row}
    (hrow : j.operations.find? id = some row) :
    row.budgetReserved = false ↔ row.status = .rejected ∧ claims id hist = [] := by
  induction h generalizing row with
  | nil => cases hrow
  | @cons e past ht ha ih =>
      by_cases hl : e.label.claimOf = some id
      · have hlabel := claimOf_eq_some.1 hl
        have hmem : e ∈ claims id (e :: past) := mem_claims.2 ⟨List.mem_cons_self, hlabel⟩
        obtain ⟨row₀, -, -, hrow'⟩ := (hlabel ▸ ha.effect id).of_claim
        rw [Journal.record_row, hrow, Option.some.injEq] at hrow'
        simp [hrow', List.ne_nil_of_mem hmem]
      · rw [claims_cons_of_ne hl]
        refine (ha.effect id).budget_iff hl (fun row₀ hrow₀ => ih hrow₀) (fun hprep => ?_)
          (fun out hout hnil => ?_) row hrow
        · by_contra hne
          obtain ⟨c, hc⟩ := List.exists_mem_of_ne_nil _ hne
          obtain ⟨s, hs, hsn⟩ := ht.left_of_claim hc
          exact hsn (hprep s hs)
        · obtain ⟨c, hc, -⟩ := Trace.claim_of_finish (v := ⟨e.pre, past⟩) ht (hout ▸ ha)
          exact List.ne_nil_of_mem hc hnil

/-- How many operations of a run have ever been claimed. -/
def Journal.claimedIn (run : String) (hist : List (Did ρ Λ)) (j : Journal) : ℕ :=
  j.operations.count fun id row => row.runId = run && hist.any fun e => Starts id e

theorem Trace.any_starts (h : Trace P E j₀ hist j) (id : String) :
    (hist.any fun e => Starts id e) = true ↔ claims id hist ≠ [] := by
  rw [List.any_eq_true]
  constructor
  · rintro ⟨e, he, hs⟩
    exact List.ne_nil_of_mem ((h.starts_iff he).1 (of_decide_eq_true hs))
  · intro hne
    obtain ⟨e, he⟩ := List.exists_mem_of_ne_nil _ hne
    have hmem := (mem_claims.1 he).1
    exact ⟨e, hmem, decide_eq_true ((h.starts_iff hmem).2 he)⟩

/-- Every operation that is counted after an event is an operation of the run that was
there before the event, or has been claimed by it. -/
theorem Trace.of_claimedIn {run : String} (h : Trace P E j₀ (e :: past) e.post.journal)
    {row : Row} (hrow : e.post.journal.operations.find? id = some row)
    (hc : (row.runId = run && (e :: past).any fun e => Starts id e) = true) :
    ∃ row', e.pre.journal.operations.find? id = some row' ∧ row'.runId = run ∧
      (e.label.claimOf = some id ∧ row'.status = .prepared ∨ claims id past ≠ []) := by
  obtain ⟨-, hpast, ha⟩ := h.suffix (List.suffix_refl _)
  rw [Bool.and_eq_true, decide_eq_true_eq, h.any_starts id] at hc
  obtain ⟨hrun, hne⟩ := hc
  by_cases hl : e.label.claimOf = some id
  · have hlabel := claimOf_eq_some.1 hl
    obtain ⟨row', hrow', hs, hpost⟩ := (hlabel ▸ ha.effect id).of_claim
    rw [Journal.record_row, hrow, Option.some.injEq] at hpost
    exact ⟨row', hrow', by rw [← hrun, hpost], .inl ⟨hl, hs⟩⟩
  · rw [claims_cons_of_ne hl] at hne
    obtain ⟨c, hcl⟩ := List.exists_mem_of_ne_nil _ hne
    obtain ⟨s, hs, -⟩ := hpast.left_of_claim hcl
    obtain ⟨row', hrow', -⟩ := Option.map_eq_some_iff.1 hs
    obtain ⟨row'', hrow'', -, hrun'⟩ := (ha.effect id).keeps_row hrow'
    rw [Journal.record_row, hrow, Option.some.injEq] at hrow''
    exact ⟨row', hrow', by rw [← hrun', ← hrow'', hrun], .inr hne⟩

/-- Only a claim of an operation of the run adds to what has been claimed in it. -/
theorem Trace.claimedIn_of_ne {run : String} (h : Trace P E j₀ (e :: past) e.post.journal)
    (hl : ∀ id row, e.label = .endClaim id none → e.pre.journal.operations.find? id = some row →
      row.runId ≠ run) :
    e.post.journal.claimedIn run (e :: past) ≤ e.pre.journal.claimedIn run past := by
  obtain ⟨-, hpast, -⟩ := h.suffix (List.suffix_refl _)
  refine Table.count_le_count fun id row hrow hc => ?_
  obtain ⟨row', hrow', hrun, ⟨hcl, -⟩ | hne⟩ := h.of_claimedIn hrow hc
  · exact absurd hrun (hl id row' (claimOf_eq_some.1 hcl) hrow')
  · exact ⟨row', hrow', by simp only [hrun, decide_true, Bool.true_and, hpast.any_starts, hne,
      ne_eq, not_false_eq_true]⟩

/-- What has been claimed, a claim included, was reserved before it. -/
theorem Trace.claimedIn_le_used {run : String} (h : Trace P E .empty (e :: past) e.post.journal) :
    e.post.journal.claimedIn run (e :: past) ≤ e.pre.journal.used run := by
  obtain ⟨-, hpast, -⟩ := h.suffix (List.suffix_refl _)
  refine Table.count_le_count fun id row hrow hc => ?_
  obtain ⟨row', hrow', hrun, hcase⟩ := h.of_claimedIn hrow hc
  refine ⟨row', hrow', ?_⟩
  have hbudget : row'.budgetReserved = true := by
    by_contra hb
    obtain ⟨hs, hnil⟩ := (hpast.budget_iff hrow').1 (by simpa using hb)
    rcases hcase with ⟨-, hp⟩ | hne
    · rw [hs] at hp
      cases hp
    · exact hne hnil
  simp [hrun, hbudget]

/-- The limit a claim is checked against. -/
theorem claimReason_used {policy : BrokerPolicy} {p : Proposal} {binding : Json}
    (h : j.claimReason P policy id p binding = none) :
    j.used p.runId.1 ≤ policy.maxDispatches := by
  rw [Journal.claimReason, Option.or_eq_none_iff, Option.or_eq_none_iff] at h
  by_contra hlt
  have := h.2.2
  rw [if_pos (Nat.lt_of_not_le hlt)] at this
  split at this <;> cases this

/-- **A claim never exceeds the limit it was checked against**: the policy of the claiming
instance in the transaction that the claim ends. -/
theorem Trace.claimedIn_le (h : Trace P E .empty (e :: past) e.post.journal)
    (hl : e.label = .endClaim id none) :
    ∃ row b policy, e.pre.journal.operations.find? id = some row ∧ b ∈ past ∧
      b.tid = e.tid ∧ b.actor = e.actor ∧ b.label = .beginClaim id ∧
      b.pre.journal = e.pre.journal ∧ b.pre.policies e.actor = some policy ∧
      e.post.journal.claimedIn row.runId (e :: past) ≤ policy.maxDispatches := by
  obtain ⟨-, hpast, ha⟩ := h.suffix (List.suffix_refl _)
  obtain ⟨p, patch, hc⟩ := (hl ▸ ha).claimable_of_claim
  obtain ⟨-, row, hrow, hp⟩ := hc.requested
  obtain ⟨b, hb, hbt, hbo, hbl, hbj, policy, hpol, hnone⟩ := hc.checked
  refine ⟨row, b, policy, hrow, hb, hbt, hbo, hbl, hbj, hpol, ?_⟩
  have hrun : p.runId.1 = row.runId := (hpast.sane Journal.sane_empty id row p hrow hp).2
  calc e.post.journal.claimedIn row.runId (e :: past) ≤ e.pre.journal.used row.runId :=
        h.claimedIn_le_used
    _ ≤ policy.maxDispatches := hrun ▸ claimReason_used hnone

/-- **Under policies that never allow more than `n` dispatches, a run has at most `n`.** -/
theorem Trace.claimedIn_le_of_policies {n : ℕ} (h : Trace P E .empty hist j)
    (hn : ∀ e ∈ hist, ∀ policy, e.pre.policies e.actor = some policy → policy.maxDispatches ≤ n)
    (run : String) : j.claimedIn run hist ≤ n := by
  induction h with
  | nil => exact Nat.zero_le n
  | @cons e past ht ha ih =>
      have h' : Trace P E .empty (e :: past) e.post.journal := .cons ht ha
      by_cases hl : ∃ id row, e.label = .endClaim id none ∧
          e.pre.journal.operations.find? id = some row ∧ row.runId = run
      · obtain ⟨id, row, hlabel, hrow, hrun⟩ := hl
        obtain ⟨row', b, policy, hrow', hb, -, hbo, -, -, hpol, hle⟩ := h'.claimedIn_le hlabel
        rw [hrow, Option.some.injEq] at hrow'
        subst hrow' hrun
        exact hle.trans (hn b (List.mem_cons_of_mem e hb) policy (hbo ▸ hpol))
      · calc e.post.journal.claimedIn run (e :: past) ≤ e.pre.journal.claimedIn run past :=
              h'.claimedIn_of_ne fun id row hlabel hrow hrun => hl ⟨id, row, hlabel, hrow, hrun⟩
          _ ≤ n := ih fun b hb => hn b (List.mem_cons_of_mem e hb)

/-- The operations of a run whose patch has been sent. -/
def Journal.sentIn (run : String) (hist : List (Did ρ Λ)) (j : Journal) : List String :=
  (hist.filterMap fun e => e.label.patchOf).filter fun id =>
    (j.operations.find? id).any (·.runId = run)

/-- **Nothing is sent in a run beyond what has been claimed.** -/
theorem Trace.sentIn_le (h : Trace P E j₀ hist j) (run : String) :
    (j.sentIn run hist).length ≤ j.claimedIn run hist := by
  have hnodup : (hist.filterMap fun e => e.label.patchOf).Nodup := by
    rw [List.nodup_iff_count_le_one]
    intro id
    rw [List.count_filterMap, List.countP_eq_length_filter]
    simpa [patches, beq_eq_decide] using h.patches_le_one id
  refine Table.length_le_count (hnodup.filter _) fun id hid => ?_
  obtain ⟨hmem, hrun⟩ := List.mem_filter.1 hid
  obtain ⟨e, he, hl⟩ := List.mem_filterMap.1 hmem
  obtain ⟨row, hrow, hrun⟩ := (Option.any_eq_true _ _).1 hrun
  obtain ⟨past, hs, -⟩ := h.act_of_mem he
  obtain ⟨patch, hpatch⟩ := patchOf_eq_some.1 hl
  obtain ⟨c, hc, -⟩ := h.claim_of_dispatch hs
      (by rw [hpatch]; rfl : e.label.dispatchOf = some id)
  have hclaimed := claims_mono ((List.suffix_cons _ _).trans hs) hc
  refine ⟨row, hrow, ?_⟩
  rw [Bool.and_eq_true, h.any_starts]
  exact ⟨hrun, List.ne_nil_of_mem hclaimed⟩

end AutonomyLab.Broker
