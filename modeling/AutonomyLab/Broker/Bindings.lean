import AutonomyLab.Broker.Status

/-!
# Bindings and what they decide

What a history of protocol acts says about the binding of an operation: the conditions
it is dispatched under.

* `Trace.one_binding` — every operation has one binding.
* `Act.keeps_settled` — a snapshot that has been recorded in it stays.
* `Trace.binding_of_patch` — a patch that is sent is the one that the binding calls for,
  as it was in the claim transaction and still is, and that binding was accepted there.
* `Act.reason_of_reject` — an operation whose conditions have been recorded is not
  rejected for anything that was read of the service.
-/

namespace AutonomyLab.Broker

open Json Contract Process Store

variable {ρ Λ : Type} {P : Platform} {E : Ext ρ Λ} {j₀ j : Journal} {hist past : List (Did ρ Λ)}
  {e : Did ρ Λ} {t : ℕ} {o id : String} {v : Seen ρ Λ} {l : Label Λ} {w : World ρ}

/-! ## One binding, written once -/

theorem Effect.keeps_contract {r r' : Record} (h : Effect P o id l r r')
    (hr : r.row.isSome = r.contract.isSome) : r'.row.isSome = r'.contract.isSome := by
  cases h <;> first | exact hr | rfl

/-- **Every operation has one binding**, from the start. -/
theorem Trace.one_binding (h : Trace P E .empty hist j) {row : Row}
    (hrow : j.operations.find? id = some row) : ∃! binding, (id, binding) ∈ j.contracts.rows := by
  have hsome : (j.record id).row.isSome = (j.record id).contract.isSome := by
    clear hrow
    induction h with
    | nil => rfl
    | cons _ ha ih => exact (ha.effect id).keeps_contract ih
  rw [Journal.record_row, hrow, Option.isSome_some, eq_comm, Option.isSome_iff_exists] at hsome
  obtain ⟨binding, hb⟩ := hsome
  refine ⟨binding, Table.find?_eq_some.1 hb, fun binding' hb' => ?_⟩
  exact Option.some.inj ((Table.find?_eq_some.2 hb').symm.trans hb)

/-- A binding in which a snapshot has been recorded. -/
def HasSnapshot (binding : Json) : Prop := ∃ s, subscript "snapshot" binding = .ok s ∧ s ≠ .null

/-- **A settled binding is never written again**, and one with a snapshot is settled. -/
theorem Act.keeps_settled (h : Act P E t o v l w) (hs : Settled (v.world.journal.binding id)) :
    w.journal.binding id = v.world.journal.binding id := (h.effect id).keeps_settled hs

theorem Trace.keeps_settled (h : Trace P E j₀ hist j) (hs : e :: past <:+ hist)
    (hb : Settled (e.post.journal.binding id)) : j.binding id = e.post.journal.binding id := by
  induction h with
  | nil => simp at hs
  | @cons e' past' ht ha ih =>
      rcases List.suffix_cons_iff.1 hs with heq | hs
      · rw [(List.cons.inj heq).1]
      · have hpre : e'.pre.journal.binding id = e.post.journal.binding id := ih hs
        exact (ha.keeps_settled (hpre ▸ hb)).trans hpre

/-! ## The binding of a patch -/

/-- The stored binding is there and reads, matches the request, and is under the contract
of the policy. -/
structure Accepted (P : Platform) (policy : BrokerPolicy) (p : Proposal) (id : String)
    (j : Journal) : Prop where
  stored : j.contracts.find? id = some (some (j.binding id))
  valid : validateBinding P p.modelDump (j.binding id) = .ok ()
  contract : subscript "contract_id" (j.binding id) = .ok (.str policy.operationContract)

/-- A binding that has members is there. -/
theorem stored_of_subscript {key : String} {value : Json}
    (h : subscript key (j.binding id) = .ok value) :
    j.contracts.find? id = some (some (j.binding id)) := by
  obtain ⟨fs, hfs, -⟩ := subscript_eq_ok h
  cases hf : j.contracts.find? id with
  | none => simp [Journal.binding, hf] at hfs
  | some c =>
      cases c with
      | none => simp [Journal.binding, hf] at hfs
      | some b => simp [Journal.binding, hf]

/-- A claim is only made under a binding that is accepted. -/
theorem accepted_of_claimReason {policy : BrokerPolicy} {p : Proposal} {binding : Json}
    (h : j.claimReason P policy id p binding = none) : Accepted P policy p id j := by
  rw [Journal.claimReason, Option.or_eq_none_iff, Option.or_eq_none_iff] at h
  obtain ⟨hv, hc, -⟩ := contractReason_eq_none.1 h.2.1
  exact ⟨stored_of_subscript hc, hv, hc⟩

theorem Accepted.of_binding {policy : BrokerPolicy} {p : Proposal} {j' : Journal}
    (h : Accepted P policy p id j) (hb : j'.binding id = j.binding id) :
    Accepted P policy p id j' :=
  have hc : subscript "contract_id" (j'.binding id) = .ok (.str policy.operationContract) :=
    hb ▸ h.contract
  ⟨stored_of_subscript hc, hb ▸ h.valid, hc⟩

/-- A binding that has been accepted and calls for a patch is settled. -/
theorem Accepted.settled {policy : BrokerPolicy} {p : Proposal} {patch : List Op}
    (h : Accepted P policy p id j) (hb : Built P p (j.binding id) patch) :
    Settled (j.binding id) := by
  by_cases hc : policy.operationContract = precise
  · obtain ⟨-, -, snapshot, hs, hd, -⟩ := snapshot_of_patchForBinding (hb.precise (hc ▸ h.contract))
    refine .inl ⟨snapshot, hs, ?_⟩
    rintro rfl
    cases hd
  · refine .inr ⟨_, h.contract, fun heq => hc ?_⟩
    exact Json.str.inj (pyEq_str_iff.1 heq)

/-- **A patch is what the binding calls for** that was in force in the claim transaction
of its sender, and still is; and the sender had accepted that binding there. -/
theorem Trace.binding_of_patch {patch : List Op} (h : Trace P E j₀ hist j)
    (hs : e :: past <:+ hist) (hl : e.label = .patchService id patch) :
    ∃ c past' p policy, c :: past' <:+ past ∧ c.tid = e.tid ∧ c.actor = e.actor ∧
      c.label = .endClaim id none ∧ Requested id p c.pre.journal ∧
      (∃ b ∈ past', b.tid = e.tid ∧ b.actor = e.actor ∧ b.label = .beginClaim id ∧
        b.pre.journal = c.pre.journal ∧ b.pre.policies e.actor = some policy) ∧
      Accepted P policy p id c.pre.journal ∧ Built P p (c.pre.journal.binding id) patch ∧
      e.pre.journal.binding id = c.pre.journal.binding id := by
  obtain ⟨-, hpast, ha⟩ := h.suffix hs
  obtain ⟨p, c, past', hc, hct, hco, hcl, hclaim⟩ := (hl ▸ ha).claimed_of_patch
  obtain ⟨b, hb, hbt, hbo, hbl, hbj, policy, hpol, hnone⟩ := hclaim.checked
  have hacc : Accepted P policy p id c.pre.journal := accepted_of_claimReason hnone
  have hset : Settled (c.pre.journal.binding id) := hacc.settled hclaim.built
  have hpost : c.post.journal.binding id = c.pre.journal.binding id :=
    ((hpast.suffix hc).2.2.effect id).keeps_settled hset
  exact ⟨c, past', p, policy, hc, hct, hco, hcl, hclaim.requested,
    ⟨b, hb, hbt, hbo, hbl, hbj, hpol⟩, hacc, hclaim.built,
    (hpast.keeps_settled hc (hpost ▸ hset)).trans hpost⟩

/-! ## Rejections -/

/-- The reasons that come from a read of the service, or from conditions that have changed
since a worker read them. -/
def serviceReasons : List String := [
  "service_uid_changed", "resource_version_changed", "service_namespace_changed",
  "service_name_changed", "port_name_not_unique", "target_port_changed",
  "contract_snapshot_out_of_scope", "operation_conditions_changed"]

theorem findSomeM?_eq_some {ε α β : Type} {f : α → Except ε (Option β)} {b : β} {xs : List α}
    (h : xs.findSomeM? f = .ok (some b)) : ∃ x ∈ xs, f x = .ok (some b) := by
  induction xs with
  | nil => simp [List.findSomeM?, pure, Except.pure] at h
  | cons x xs ih =>
      rw [List.findSomeM?] at h
      obtain ⟨r, hr, h⟩ := bind_eq_ok.1 h
      cases r with
      | some b' =>
          cases h
          exact ⟨x, List.mem_cons_self, hr⟩
      | none =>
          obtain ⟨y, hy, hfy⟩ := ih h
          exact ⟨y, List.mem_cons_of_mem x hy, hfy⟩

/-- What a read of the service may be against. -/
theorem constructPatch_reason {p : Proposal} {service : Json} {reason : String}
    (h : constructPatch p service = .ok (.error reason)) : reason ∈ serviceReasons := by
  obtain ⟨metadata, -, h⟩ := bind_eq_ok.1 h
  obtain ⟨changed, hch, h⟩ := bind_eq_ok.1 h
  cases changed with
  | some reason' =>
      cases h
      obtain ⟨f, hf, hr⟩ := findSomeM?_eq_some hch
      obtain ⟨v, -, hv⟩ := map_eq_ok.1 hr
      have hreason : f.2.2 = reason := by
        split at hv
        · cases hv
        · exact Option.some.inj hv
      subst hreason
      simp only [List.mem_cons, List.not_mem_nil, or_false] at hf
      rcases hf with rfl | rfl | rfl | rfl <;> simp [serviceReasons]
  | none =>
      obtain ⟨spec, -, h⟩ := bind_eq_ok.1 h
      obtain ⟨list, -, h⟩ := bind_eq_ok.1 h
      obtain ⟨ports, -, h⟩ := bind_eq_ok.1 h
      obtain ⟨named, -, h⟩ := bind_eq_ok.1 h
      split at h
      · obtain ⟨targetPort, -, h⟩ := bind_eq_ok.1 h
        split at h
        · cases h
          decide
        · cases h
      · cases h
        decide

theorem policyReason_not_mem {policy : BrokerPolicy} {p : Proposal} {reason : String}
    (h : policy.policyReason p = some reason) : reason ∉ serviceReasons := by
  unfold BrokerPolicy.policyReason at h
  split at h
  · cases h
    decide
  · split at h
    · cases h
      decide
    · split at h
      · rename_i hscope
        cases h
        obtain ⟨f, hf, rfl⟩ := Option.map_eq_some_iff.1 hscope
        have hmem := List.mem_of_find?_eq_some hf
        simp only [BrokerPolicy.scope, List.mem_cons, List.not_mem_nil, or_false] at hmem
        rcases hmem with rfl | rfl | rfl | rfl | rfl <;> simp [serviceReasons]
      · split at h
        · cases h
          decide
        · split at h
          · cases h
            decide
          · cases h

theorem contractReason_not_mem {policy : BrokerPolicy} {p : Proposal} {binding : Json}
    {reason : String} (h : Journal.contractReason P policy p binding = some reason) :
    reason ∉ serviceReasons := by
  unfold Journal.contractReason at h
  dsimp only at h
  split at h
  · rename_i r hr
    subst h
    obtain ⟨_, -, hr⟩ := bind_eq_ok.1 hr
    obtain ⟨c, -, hr⟩ := bind_eq_ok.1 hr
    split at hr
    · cases hr
      decide
    · obtain ⟨s, -, hr⟩ := bind_eq_ok.1 hr
      split at hr
      · obtain ⟨ops, -, hr⟩ := bind_eq_ok.1 hr
        cases hr
      · cases hr
  · cases h
    decide

/-- What rejects an operation names the reason it leaves in the row. -/
theorem Effect.of_reject {r r' : Record} {row : Row} (h : Effect P o id l r r')
    (hr : r.status? = some .prepared) (hr' : r'.row = some row) (hs : row.status = .rejected) :
    (∃ expected, l = .rejectPrepared id row.reason expected) ∨
      l = .endClaim id (some row.reason) := by
  have hprep : ∀ row₀ : Row, some row₀ = some row → row₀.status ≠ .prepared := by
    rintro row₀ ⟨⟩ hp
    rw [hp] at hs
    cases hs
  cases h with
  | same _ =>
      obtain ⟨row₀, hrow₀, hp⟩ := Option.map_eq_some_iff.1 hr
      exact absurd hp (hprep row₀ (hrow₀.symm.trans hr'))
  | proposed _ _ _ => cases hr
  | noted => exact absurd (Option.some.inj hr) (hprep _ hr')
  | recorded _ _ _ => exact absurd (Option.some.inj hr) (hprep _ hr')
  | rejected hl _ =>
      cases hr'
      exact hl
  | claimed _ =>
      cases hr'
      cases hs
  | @finished _ row₀ _ _ _ hd _ =>
      have hp : row₀.status = .prepared := Option.some.inj hr
      rw [hp] at hd
      rcases hd with hd | hd <;> cases hd
  | @reconciled _ row₀ _ _ =>
      have hp : row₀.status = .prepared := Option.some.inj hr
      cases hr'
      simp [hp] at hs

/-- Conditions that have been recorded are not equal to those of a worker that found none. -/
theorem not_pyEq_of_hasSnapshot {binding expected : Json} (h : HasSnapshot binding)
    (hc : subscript "contract_id" binding = .ok (.str precise))
    (he : subscript "contract_id" expected = .ok (.str precise) →
      subscript "snapshot" expected = .ok .null) : ¬ PyEq binding expected := by
  intro heq
  obtain ⟨s, hs, hne⟩ := h
  obtain ⟨fs, rfl, hfs⟩ := subscript_eq_ok hs
  obtain ⟨gs, rfl⟩ := heq.symm.obj_right
  have hcontract : gs.lookup "contract_id" = some (.str precise) := by
    obtain ⟨c, hc', hceq⟩ := heq.symm.lookup (subscript_obj.1 hc)
    rw [hc', pyEq_str_iff.1 hceq]
  obtain ⟨s', hs', hseq⟩ := heq.lookup (subscript_obj.1 (he (subscript_obj.2 hcontract)))
  rw [hfs, Option.some.injEq] at hs'
  subst hs'
  cases s <;> simp_all [PyEq, canon]

/-- **An operation whose conditions have been recorded is not rejected for what was read
of the service**, whatever a worker has read. -/
theorem Act.reason_of_reject {row : Row} (h : Act P E t o v l w)
    (hc : subscript "contract_id" (v.world.journal.binding id) = .ok (.str precise))
    (hsnap : HasSnapshot (v.world.journal.binding id))
    (hs : v.world.journal.status? id = some .prepared)
    (hrow : w.journal.operations.find? id = some row) (hs' : row.status = .rejected) :
    row.reason ∉ serviceReasons := by
  have hchecks : ∀ {policy : BrokerPolicy} {p : Proposal} {binding : Json},
      (policy.policyReason p).or (Journal.contractReason P policy p binding) = some row.reason →
        row.reason ∉ serviceReasons := fun h =>
    (Option.or_eq_some_iff.1 h).elim policyReason_not_mem fun h => contractReason_not_mem h.2
  rcases (h.effect id).of_reject hs hrow hs' with ⟨expected, rfl⟩ | rfl
  · cases h with
    | read hl => cases hl
    | rejectPrepared _ hrej =>
        rcases hrej with ⟨-, policy, p, binding, hreason⟩ | ⟨binding, rfl, hnull⟩
        · exact hchecks hreason
        · -- a worker that found no conditions finds others in their place
          rw [Journal.rejectPrepared, Option.any_some,
            if_pos (decide_eq_true (not_pyEq_of_hasSnapshot hsnap hc hnull))] at hrow
          obtain ⟨row₀, hrow₀, hp⟩ := Option.map_eq_some_iff.1 hs
          obtain rfl : row₀ = row := Option.some.inj (hrow₀.symm.trans hrow)
          rw [hp] at hs'
          cases hs'
  · cases h with
    | read hl => cases hl
    | refuse _ _ hrefuse =>
        rcases hrefuse with ⟨policy, p, hreason⟩ | hreason | hreason
        · rw [Journal.claimReason, ← Option.or_assoc] at hreason
          rcases Option.or_eq_some_iff.1 hreason with hreason | ⟨-, hreason⟩
          · exact hchecks hreason
          · rw [if_neg (not_not.2 (PyEq.refl _))] at hreason
            split at hreason
            · rw [← Option.some.inj hreason]
              decide
            · cases hreason
        · rw [hreason]
          decide
        · rw [hreason]
          decide

end AutonomyLab.Broker
