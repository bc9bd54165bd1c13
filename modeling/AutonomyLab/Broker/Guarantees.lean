import AutonomyLab.Broker.Progress

/-!
# What brokers on one journal guarantee

The laws of `AutonomyLab.Broker.Dispatch`, `Ledger`, `Status` and `Bindings`, of every
configuration that brokers on a shared journal can reach: under every interleaving of
their calls, for all answers of the code they are given, and with any of them dying
between any two steps.
-/

namespace AutonomyLab.Broker

open Json Contract Process

variable {P : Platform} {j₀ : Journal} {c : Brokers}

/-! ## At most one dispatch -/

/-- What an instance that had not been started sends, it has claimed since. -/
theorem Shared.no_patch_of_left (h₀ : j₀.Sane) (h : Reachable (shared P j₀) c) {c' : Brokers}
    (hs : Steps (shared P j₀) c c') {o id : String} {s : Status}
    (hnew : c.view.world.policies o = none) (hst : c.view.world.journal.status? id = some s)
    (hleft : s ≠ .prepared) {e : Did Unit Empty} (he : e ∈ c'.view.hist) (ho : e.actor = o)
    (patch : List Op) : e.label ≠ .patchService id patch := by
  intro hl
  have hclaims : (∃ s, c'.view.world.journal.status? id = some s ∧ s ≠ .prepared) ∧
      claims id c'.view.hist = claims id c.view.hist := by
    refine Shared.preserved h₀ (I := fun v => (∃ s, v.world.journal.status? id = some s ∧
      s ≠ .prepared) ∧ claims id v.hist = claims id c.view.hist) ?_ ?_ h hs ⟨⟨s, hst, hleft⟩, rfl⟩
    · rintro t o v l w - ha ⟨⟨s, hs, hne⟩, hcl⟩
      refine ⟨(ha.effect id).keeps_left hs hne, ?_⟩
      rw [View.log_hist, claims_cons_of_ne, hcl]
      intro hclaim
      obtain rfl : l = .endClaim id none := claimOf_eq_some.1 hclaim
      rw [ha.claim_status.1, Option.some.injEq] at hs
      exact hne hs.symm
    · rintro v v' hh hj - hI
      rw [hh, hj]
      exact hI
  have htrace := Shared.trace h₀ (h.steps hs)
  obtain ⟨past, hpast, -⟩ := htrace.act_of_mem he
  obtain ⟨cl, hcl, -, hco⟩ := htrace.claim_of_dispatch hpast
      (by rw [hl]; rfl : e.label.dispatchOf = some id)
  have hmem := claims_mono ((List.suffix_cons _ _).trans hpast) hcl
  rw [hclaims.2] at hmem
  -- the claim had been made before, by an instance that had been started
  obtain ⟨hclhist, hcll⟩ := mem_claims.1 hmem
  obtain ⟨past', hpast', ha⟩ := (Shared.trace h₀ h).act_of_mem hclhist
  obtain ⟨p, patch', hclaim⟩ := (hcll ▸ ha).claimable_of_claim
  obtain ⟨b, hb, -, -, -, -, policy, hpol, -⟩ := hclaim.checked
  have hbhist : b ∈ c.view.hist := hpast'.subset (List.mem_cons_of_mem _ hb)
  rw [hco, ho] at hpol
  exact Shared.started h₀ h hbhist (by simp [hpol]) hnew

/-- **At most one dispatch.**  The patch of an operation is sent at most once; whoever
sends it has itself moved the operation from `prepared` to `dispatching`; and an instance
that is started when an operation is not prepared any more never sends its patch. -/
theorem dispatch_at_most_once (h : Reachable (shared P .empty) c) :
    (∀ id, (patches id c.view.hist).length ≤ 1) ∧
    (∀ e past id patch, e :: past <:+ c.view.hist → e.label = .patchService id patch →
      ∃ s ∈ past, s.tid = e.tid ∧ s.actor = e.actor ∧ Starts id s) ∧
    (∀ c' o id s, Steps (shared P .empty) c c' → c.view.world.policies o = none →
      c.view.world.journal.status? id = some s → s ≠ .prepared →
      ∀ e ∈ c'.view.hist, e.actor = o → ∀ patch, e.label ≠ .patchService id patch) := by
  have htrace := Shared.trace Journal.sane_empty h
  refine ⟨htrace.patches_le_one, fun e past id patch hs hl => ?_, ?_⟩
  · obtain ⟨s, hsm, hst, hso⟩ := htrace.claim_of_dispatch hs
      (by rw [hl]; rfl : e.label.dispatchOf = some id)
    have hmem := (mem_claims.1 hsm).1
    exact ⟨s, hmem, hst, hso, ((htrace.suffix hs).2.1.starts_iff hmem).2 hsm⟩
  · intro c' o id s hs hnew hst hleft e he ho patch
    exact Shared.no_patch_of_left Journal.sane_empty h hs hnew hst hleft he ho patch

theorem dispatch_at_most_once_sample : ∃ c : Brokers,
    Reachable (shared samplePlatform .empty) c ∧ (patches "op-1" c.view.hist).length = 1 := by
  obtain ⟨c, op, hc, -, ⟨e, he, -, patch, hl⟩, -⟩ := sample_run samplePlatform
  have hpos := List.length_pos_of_mem (mem_patches.2 ⟨he, patch, hl⟩)
  exact ⟨c, hc, Nat.le_antisymm ((dispatch_at_most_once hc).1 "op-1") hpos⟩

/-! ## The event journal -/

/-- **The events tell the state.**  Replaying the events of an operation gives the status
and the reservation that its row has. -/
theorem events_replay (h : Reachable (shared P .empty) c) (id : String) (row : Row)
    (hrow : c.view.world.journal.operations.find? id = some row) :
    replay (c.view.world.journal.history id) = (some row.status, row.budgetReserved) :=
  (Shared.trace Journal.sane_empty h).replay_eq hrow

theorem events_replay_sample : ∃ (c : Brokers) (row : Row),
    Reachable (shared samplePlatform .empty) c ∧ row.status = .acknowledged ∧
      replay (c.view.world.journal.history "op-1") = (some row.status, row.budgetReserved) := by
  obtain ⟨c, op, hc, -, -, hst⟩ := sample_run samplePlatform
  obtain ⟨row, hrow, hs⟩ := Option.map_eq_some_iff.1 hst
  exact ⟨c, row, hc, hs, events_replay hc "op-1" row hrow⟩

/-! ## The budget -/

/-- **The dispatch budget is safe.**  A reservation is given back exactly by a rejection
without a dispatch, never after one; a dispatch keeps the operations of the run that have
ever been dispatched within the limit of the policy it was claimed under; so under
policies that allow `n` of them there are never more, and never more patches sent. -/
theorem budget_safe (h : Reachable (shared P .empty) c) :
    (∀ id row, c.view.world.journal.operations.find? id = some row →
      (row.budgetReserved = false ↔
        row.status = .rejected ∧ ∀ e ∈ c.view.hist, ¬ Starts id e)) ∧
    (∀ id, ∀ e ∈ c.view.hist, Starts id e → ∀ c', Steps (shared P .empty) c c' →
      ∃ row, c'.view.world.journal.operations.find? id = some row ∧
        row.budgetReserved = true) ∧
    (∀ e past id, e :: past <:+ c.view.hist → Starts id e →
      ∃ row b policy, e.pre.journal.operations.find? id = some row ∧ b ∈ past ∧
        b.tid = e.tid ∧ b.actor = e.actor ∧ b.label = .beginClaim id ∧
        b.pre.journal = e.pre.journal ∧ b.pre.policies e.actor = some policy ∧
        e.post.journal.claimedIn row.runId (e :: past) ≤ policy.maxDispatches) ∧
    (∀ n, (∀ e ∈ c.view.hist, ∀ policy, e.pre.policies e.actor = some policy →
        policy.maxDispatches ≤ n) → ∀ run,
      (c.view.world.journal.sentIn run c.view.hist).length ≤
        c.view.world.journal.claimedIn run c.view.hist ∧
      c.view.world.journal.claimedIn run c.view.hist ≤ n) := by
  have htrace := Shared.trace Journal.sane_empty h
  refine ⟨fun id row hrow => ?_, fun id e he hst c' hs => ?_, fun e past id hs hst => ?_,
    fun n hn run => ⟨htrace.sentIn_le run, htrace.claimedIn_le_of_policies hn run⟩⟩
  · rw [htrace.budget_iff hrow, List.eq_nil_iff_forall_not_mem]
    refine and_congr_right fun _ => ⟨fun hnil e he hst => ?_, fun hno e he => ?_⟩
    · exact hnil e ((htrace.starts_iff he).1 hst)
    · exact hno e (mem_claims.1 he).1 ((htrace.starts_iff (mem_claims.1 he).1).2 he)
  · have htrace' := Shared.trace Journal.sane_empty (h.steps hs)
    have hclaim := claims_mono hs.hist_suffix ((htrace.starts_iff he).1 hst)
    obtain ⟨s, hstatus, -⟩ := htrace'.left_of_claim hclaim
    obtain ⟨row, hrow, -⟩ := Option.map_eq_some_iff.1 hstatus
    refine ⟨row, hrow, ?_⟩
    by_contra hb
    have := ((htrace'.budget_iff hrow).1 (by simpa using hb)).2
    exact List.ne_nil_of_mem hclaim this
  · obtain ⟨hcons, -, -⟩ := htrace.suffix hs
    exact hcons.claimedIn_le (mem_claims.1 ((hcons.starts_iff List.mem_cons_self).1 hst)).2

theorem budget_safe_sample : ∃ (c : Brokers) (row : Row),
    Reachable (shared samplePlatform .empty) c ∧
      c.view.world.journal.operations.find? "op-1" = some row ∧ row.status = .acknowledged ∧
      row.budgetReserved = true := by
  obtain ⟨c, op, hc, -, -, hst⟩ := sample_run samplePlatform
  obtain ⟨row, hrow, hs⟩ := Option.map_eq_some_iff.1 hst
  refine ⟨c, row, hc, hrow, hs, ?_⟩
  by_contra hb
  obtain ⟨hrej, -⟩ := ((budget_safe hc).1 "op-1" row hrow).1 (by simpa using hb)
  rw [hs] at hrej
  cases hrej

/-! ## The state machine -/

/-- What a call that has returned left on record stays there. -/
theorem Shared.recorded_of_done (h₀ : j₀.Sane) (h : Reachable (shared P j₀) c) {t : ℕ} {o : String}
    {op : Journal.Operation} (ht : c.threads t = some (o, .done op)) {c' : Brokers}
    (hs : Steps (shared P j₀) c c') :
    Recorded t [] (.ok op : Except BrokerError _) c'.view := by
  refine (preserved_of_ended (sound_shared h₀) (I := Recorded t [] (.ok op : Except BrokerError _))
    (fun u i v v' hu hi hg hI => ?_) (fun v w he hI => ?_) (fun d D w hst hI => ?_)
    h hs (h.ended_of_done ht) ((sound (sound_shared h₀) h).done ht)).1
  · exact kept_recorded ((sharedLogic P h₀).rely_guar hu hi hg).1 hI
  · exact kept_recorded (he.rely t) hI
  · cases hst
    exact hI

/-- **The status of an operation goes through a state machine.**  No step makes another
change of a status than `Status.next` has; an operation leaves `uncertain` only when the
instance that dispatched it records what it was answered; an acknowledgement and a
rejection are final; a reconciliation only makes a dispatch uncertain; and once a call
that dispatched an operation has returned, the status is what its answer came to, for
good. -/
theorem status_machine (h : Reachable (shared P .empty) c) :
    (∀ c' id s, Step (shared P .empty) c c' → c.view.world.journal.status? id = some s →
      ∃ s', c'.view.world.journal.status? id = some s' ∧ (s' = s ∨ s' ∈ s.next)) ∧
    (∀ c' id s, Step (shared P .empty) c c' →
      c.view.world.journal.status? id = some .uncertain →
      c'.view.world.journal.status? id = some s → s ≠ .uncertain →
      ∃ e p answer, c'.view.hist = e :: c.view.hist ∧ e.label = .finish id (outcome p answer) ∧
        (outcome p answer).status = s ∧
        (∃ r ∈ c.view.hist, r.tid = e.tid ∧ r.actor = e.actor ∧
          r.label = .patchReturned id p answer) ∧
        ∃ cl ∈ c.view.hist, cl.actor = e.actor ∧ Starts id cl) ∧
    (∀ c' id s, Steps (shared P .empty) c c' → c.view.world.journal.status? id = some s →
      s = .acknowledged ∨ s = .rejected → c'.view.world.journal.status? id = some s) ∧
    (∀ e ∈ c.view.hist, ∀ id observed, e.label = .reconcile id observed → ∀ k s s',
      e.pre.journal.status? k = some s → e.post.journal.status? k = some s' →
      s' = s ∨ s = .dispatching ∧ s' = .uncertain) ∧
    (∀ t o op id, c.threads t = some (o, .done op) →
      (∃ e ∈ c.view.hist, e.tid = t ∧ Starts id e) →
      ∃ p answer, (∃ e ∈ c.view.hist, e.tid = t ∧ e.label = .patchReturned id p answer) ∧
        ∀ c', Steps (shared P .empty) c c' →
          c'.view.world.journal.status? id = some (outcome p answer).status) := by
  have htrace := Shared.trace Journal.sane_empty h
  refine ⟨fun c' id s hs hst => ?_, fun c' id s hs hst hst' hne => ?_,
    fun c' id s hs hst hfinal => ?_, fun e he id observed hl k s s' hst hst' => ?_,
    fun t o op id ht ⟨e, he, het, hest⟩ => ?_⟩
  · rcases Shared.step Journal.sane_empty h hs with ⟨e, hv, -, ha⟩ | ⟨-, hj⟩
    · rw [hv]
      exact ha.status_change hst
    · exact ⟨s, by rw [hj, hst], .inl rfl⟩
  · rcases Shared.step Journal.sane_empty h hs with ⟨e, hv, -, ha⟩ | ⟨-, hj⟩
    · rw [hv] at hst'
      obtain ⟨p, answer, hl, hout, hret, cl, hcl, -, hco⟩ := ha.of_uncertain htrace hst hst' hne
      have hmem := (mem_claims.1 hcl).1
      exact ⟨e, p, answer, by rw [hv], hl, hout, hret, cl, hmem, hco,
        (htrace.starts_iff hmem).2 hcl⟩
    · rw [hj, hst, Option.some.injEq] at hst'
      exact absurd hst'.symm hne
  · refine Shared.preserved Journal.sane_empty
      (I := fun v => v.world.journal.status? id = some s) (fun t o v l w _ ha hI => ?_)
      (fun v v' _ hj _ hI => by rw [hj, hI]) h hs hst
    obtain ⟨s', hs', hnext⟩ := ha.status_change hI
    have hnil : s.next = [] := by rcases hfinal with rfl | rfl <;> rfl
    rw [hnil, or_iff_left List.not_mem_nil] at hnext
    exact hnext ▸ hs'
  · obtain ⟨past, -, ha⟩ := htrace.act_of_mem he
    exact (hl ▸ ha).reconcile_status hst hst'
  · have hclaim := (htrace.starts_iff he).1 hest
    have hlabel : e.label = .endClaim id none := (mem_claims.1 hclaim).2
    have hmem : e ∈ dispatchedBy t c.view.hist :=
      mem_dispatchedBy.2 ⟨he, het, by rw [hlabel]; rfl⟩
    rcases Shared.recorded_of_done Journal.sane_empty h ht .refl with
      hnil | ⟨a, cl, id', p, answer, hown, hla, hlc, -⟩
    · exact absurd hnil (List.ne_nil_of_mem hmem)
    have hid : id' = id := by
      rw [hown, List.mem_cons, List.mem_singleton] at hmem
      rcases hmem with rfl | rfl
      · rw [hla] at hlabel
        cases hlabel
      · rw [hlc] at hlabel
        cases hlabel
        rfl
    subst hid
    have ha : a ∈ dispatchedBy t c.view.hist := hown ▸ List.mem_cons_self
    obtain ⟨hahist, hat, -⟩ := mem_dispatchedBy.1 ha
    refine ⟨p, answer, ⟨a, hahist, hat, hla⟩, fun c' hs => ?_⟩
    -- what the thread has claimed and been answered does not change any more
    have hsuffix : dispatchedBy t c.view.hist <:+ dispatchedBy t c'.view.hist :=
      hs.hist_suffix.filter _
    rcases Shared.recorded_of_done Journal.sane_empty h ht hs with
      hnil | ⟨a', cl', id', p', answer', hown', hla', -, hstatus⟩
    · rw [hnil, List.suffix_nil] at hsuffix
      exact absurd hsuffix (List.ne_nil_of_mem hmem)
    · have heq := hsuffix.eq_of_length (by rw [hown, hown']; rfl)
      rw [hown, hown', List.cons.injEq] at heq
      rw [← heq.1, hla] at hla'
      cases hla'
      exact hstatus rfl

theorem status_machine_sample : ∃ c : Brokers, Reachable (shared samplePlatform .empty) c ∧
    ∀ c', Steps (shared samplePlatform .empty) c c' →
      c'.view.world.journal.status? "op-1" = some .acknowledged := by
  obtain ⟨c, op, hc, -, -, hst⟩ := sample_run samplePlatform
  exact ⟨c, hc, fun c' hs => (status_machine hc).2.2.1 c' "op-1" _ hs hst (.inl rfl)⟩

/-! ## Bindings -/

/-- **Bindings are written once and decide the patch**, on every journal on which rows are
where their requests name them.  On a journal that brokers have created every operation
has one binding; a binding with a snapshot is never written again; a patch that is sent
is the one that the binding calls for which was in force in the claim transaction of the
sender and still is, and that binding is there, reads, matches the request and is under
the contract of the policy of the sender; and an operation with recorded conditions is
never rejected for what a worker read of the service. -/
theorem bindings_decide (h₀ : j₀.Sane) (h : Reachable (shared P j₀) c) :
    (j₀ = .empty → ∀ id row, c.view.world.journal.operations.find? id = some row →
      ∃! binding, (id, binding) ∈ c.view.world.journal.contracts.rows) ∧
    (∀ c' id, Steps (shared P j₀) c c' → HasSnapshot (c.view.world.journal.binding id) →
      c'.view.world.journal.binding id = c.view.world.journal.binding id) ∧
    (∀ e past id patch, e :: past <:+ c.view.hist → e.label = .patchService id patch →
      ∃ s past' p policy, s :: past' <:+ past ∧ s.tid = e.tid ∧ s.actor = e.actor ∧
        Starts id s ∧ Requested id p s.pre.journal ∧
        (∃ b ∈ past', b.tid = e.tid ∧ b.actor = e.actor ∧ b.label = .beginClaim id ∧
          b.pre.journal = s.pre.journal ∧ b.pre.policies e.actor = some policy) ∧
        (subscript "contract_id" (s.pre.journal.binding id) = .ok (.str precise) →
          patchForBinding P p.modelDump (s.pre.journal.binding id) = .ok patch) ∧
        Accepted P policy p id s.pre.journal ∧ Accepted P policy p id e.pre.journal ∧
        e.pre.journal.binding id = s.pre.journal.binding id) ∧
    (∀ e ∈ c.view.hist, ∀ id row,
      subscript "contract_id" (e.pre.journal.binding id) = .ok (.str precise) →
      HasSnapshot (e.pre.journal.binding id) → e.pre.journal.status? id = some .prepared →
      e.post.journal.operations.find? id = some row → row.status = .rejected →
      (∀ p service, constructPatch p service ≠ .ok (.error row.reason)) ∧
        row.reason ≠ "contract_snapshot_out_of_scope" ∧
        row.reason ≠ "operation_conditions_changed") := by
  have htrace := Shared.trace h₀ h
  refine ⟨?_, fun c' id hs hsnap => ?_, fun e past id patch hs hl => ?_,
    fun e he id row hc hsnap hst hrow hrej => ?_⟩
  · rintro rfl id row hrow
    exact htrace.one_binding hrow
  · refine Shared.preserved h₀
      (I := fun v => v.world.journal.binding id = c.view.world.journal.binding id)
      (fun t o v l w _ ha hI => ?_) (fun v v' _ hj _ hI => by rw [hj, hI]) h hs rfl
    have hset : Settled (v.world.journal.binding id) := .inl (hI ▸ hsnap)
    exact (ha.keeps_settled hset).trans hI
  · obtain ⟨s, past', p, policy, hsp, hst, hso, hsl, hreq, hb, hacc, hbuilt, hsame⟩ :=
      htrace.binding_of_patch hs hl
    obtain ⟨-, hpast, -⟩ := htrace.suffix hs
    have hmem : s ∈ past := hsp.subset List.mem_cons_self
    exact ⟨s, past', p, policy, hsp, hst, hso,
      (hpast.starts_iff hmem).2 (mem_claims.2 ⟨hmem, hsl⟩), hreq, hb,
      hbuilt.precise, hacc, hacc.of_binding hsame, hsame⟩
  · obtain ⟨past, -, ha⟩ := htrace.act_of_mem he
    have hreason := ha.reason_of_reject hc hsnap hst hrow hrej
    refine ⟨fun p service hcon => hreason (constructPatch_reason hcon), ?_, ?_⟩
    · rintro heq
      exact hreason (by rw [heq]; decide)
    · rintro heq
      exact hreason (by rw [heq]; decide)

theorem bindings_decide_sample : ∃ c : Brokers, Reachable (shared samplePlatform .empty) c ∧
    (∃! binding, ("op-1", binding) ∈ c.view.world.journal.contracts.rows) ∧
    ∃ e ∈ c.view.hist, ∃ p policy, Accepted samplePlatform policy p "op-1" e.pre.journal := by
  obtain ⟨c, op, hc, -, ⟨e, he, -, patch, hl⟩, hst⟩ := sample_run samplePlatform
  obtain ⟨row, hrow, -⟩ := Option.map_eq_some_iff.1 hst
  obtain ⟨past, hs, -⟩ := (Shared.trace Journal.sane_empty hc).act_of_mem he
  have h := bindings_decide Journal.sane_empty hc
  obtain ⟨s, past', p, policy, -, -, -, -, -, -, -, -, hacc, -⟩ :=
    h.2.2.1 e past "op-1" patch hs hl
  exact ⟨c, hc, h.1 rfl "op-1" row hrow, e, he, p, policy, hacc⟩

end AutonomyLab.Broker
