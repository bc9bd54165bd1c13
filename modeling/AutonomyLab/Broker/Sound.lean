import AutonomyLab.Broker.Spec

/-!
# The broker follows the protocol

Every call of a broker performs acts of the protocol only, whatever the other brokers
do in between and whatever the code it is given answers.

* `spec_resume…` — the blocks of a call that come before the claim, each with what it
  establishes.
* `wp_claimDispatch`, `wp_dispatch` — the claim of a dispatch and what follows it, which
  is the only part after which a thread knows less than it did.
* `Recorded` — what a call leaves: where the patch was answered, the status that the
  answer calls for is on record.
* `wp_run` — every call, from start to end.
-/

namespace AutonomyLab.Broker

open Json Contract Process

variable {ρ Λ α β : Type} {P : Platform} {E : Ext ρ Λ} {init : World ρ → Prop}
  {calls : Conf (World ρ) (Label Λ) String BrokerError α → String → Program ρ Λ α → Prop}
  {X : Surroundings (α := α) P E init} {t : ℕ} {b : ActionBroker ρ Λ} {K : Seen ρ Λ → Prop}
  {id : String} {p : Proposal}

/-! ## Before the claim -/

theorem lookup_eq_ok {policy : BrokerPolicy} {self : String} {j : Journal} {op : Journal.Operation}
    (h : j.lookup self policy id = .ok op) : j.operations.find? id = some op.row := by
  unfold Journal.lookup at h
  split at h
  · cases h
  · rename_i row hrow
    cases h
    exact hrow

theorem Traced.sane {v : Seen ρ Λ} (h : Traced P E init v) : v.world.journal.Sane := by
  obtain ⟨w₀, -, hs, ht⟩ := h
  exact ht.sane hs

/-- Whoever has looked an operation up knows what was requested. -/
theorem spec_lookup (hK : Kept t K) :
    Spec calls X t b.self K (b.lookup id) fun r v => ∀ op p, r = .ok op →
      Proposal.modelValidate op.row.request = some p → Requested id p v.world.journal := by
  refine spec_query hK rfl (fun r _ _ hr h op p he hp => hr.requested (h op p he hp))
    (fun v op p he => nomatch he) fun v policy _ ht op p he hp => ?_
  have hrow := lookup_eq_ok he
  exact ⟨(ht.sane id op.row p hrow hp).1, op.row, hrow, hp⟩

/-- A settled binding that has been read is the one in force. -/
theorem spec_contractBinding (hK : Kept t K) :
    Spec calls X t b.self K (b.contractBinding id) fun r v => ∀ binding, r = .ok binding →
      Settled binding → v.world.journal.binding id = binding := by
  refine spec_query hK rfl (fun r _ _ hr h binding he hs => kept_binding hs hr (h binding he hs))
    (fun v binding he => nomatch he) fun v policy _ _ binding he _ => ?_
  exact Except.ok.inj he

theorem spec_rejectPrepared {reason : String} {expected : Option Json} (hK : Kept t K)
    (hr : Rejection P reason expected) :
    Spec calls X t b.self K (b.rejectPrepared id reason expected) fun _ _ => True := by
  refine .bind (F := fun _ _ => True) (spec_transaction hK rfl (fun _ => .const _)
    (fun _ => trivial) fun v policy _ _ hw _ w hw' => ⟨?_, trivial⟩) (fun _ => ?_)
    fun _ _ _ _ => trivial
  · subst hw'
    exact .rejectPrepared hw hr
  · exact (spec_lookup (hK.and (.const _))).mono fun _ _ _ _ => trivial

theorem spec_recordConditions {candidate snapshot : Json} {ops : List Op} (hK : Kept t K)
    (hc : bindingFor P p.modelDump (.str precise) snapshot = .ok candidate)
    (hp : patchForBinding P p.modelDump candidate = .ok ops) :
    Spec calls X t b.self K
      (transaction b.self (.recordConditions p candidate) fun _ j =>
        j.recordConditions P p candidate)
      fun r v => ∀ recorded, r = .ok recorded → Settled recorded →
        v.world.journal.binding p.operationId.1 = recorded := by
  refine spec_transaction hK rfl
    (fun r _ _ hr h recorded he hs => kept_binding hs hr (h recorded he hs))
    (fun v recorded he => nomatch he) fun v policy _ _ hw _ w hw' => ?_
  subst hw'
  refine ⟨.recordConditions hw hc hp, fun recorded he _ => ?_⟩
  cases hr : v.world.journal.recordConditions P p candidate with
  | error e =>
      rw [hr] at he
      cases he
  | ok x =>
      rw [hr] at he
      cases he
      exact binding_recordConditions hr

/-- What the preflight leads to rests on the binding in force. -/
def ActionBroker.Preflight.Sound (P : Platform) (id : String) (p : Proposal) (binding : Json) :
    ActionBroker.Preflight → Seen ρ Λ → Prop
  | .ready patch recorded, v => v.world.journal.binding id = recorded ∧ Settled recorded ∧
      Built P p recorded patch
  | .refused _, _ => subscript "contract_id" binding = .ok (.str precise) →
      subscript "snapshot" binding = .ok .null
  | .returned _, _ => True

theorem settled_of_patch {binding : Json} {ops : List Op}
    (h : patchForBinding P p.modelDump binding = .ok ops) :
    Settled binding ∧ Built P p binding ops := by
  obtain ⟨-, hc, snapshot, hs, hd, -⟩ := snapshot_of_patchForBinding h
  refine ⟨.inl ⟨snapshot, hs, ?_⟩, fun _ => h, fun hn => absurd hc hn⟩
  rintro rfl
  cases hd

theorem settled_of_legacy {binding c : Json} (hc : subscript "contract_id" binding = .ok c)
    (hn : ¬ PyEq c (.str precise)) : Settled binding := .inr ⟨c, hc, hn⟩

section
variable {binding : Json} (hb : Behaves calls X t b) (hK : Kept t K)
  (hid : p.operationId.1 = id)
  (hbinding : ∀ v, K v → Settled binding → v.world.journal.binding id = binding)
include hb hK hid hbinding

/-- Reading the service: where conditions have to be recorded, none were at the start. -/
theorem spec_construct {isPrecise : Bool} {c : Json}
    (hc : subscript "contract_id" binding = .ok c)
    (hp : PyEq c (.str precise) ↔ isPrecise = true)
    (hs : isPrecise = true → subscript "snapshot" binding = .ok .null) :
    Spec calls X t b.self K (b.construct P id p binding isPrecise) fun r v =>
      ∀ a, r = .ok a → a.Sound P id p binding v := by
  have hnull : subscript "contract_id" binding = .ok (.str precise) →
      subscript "snapshot" binding = .ok .null := by
    intro h
    refine hs (hp.1 ?_)
    rw [Except.ok.inj (hc.symm.trans h)]
  refine .bind (hb.getService hK) (fun service => ?_) fun e v _ _ a he => nomatch he
  have hK₁ := hK.and (.const True)
  refine .bind (spec_ofPy hK₁) (fun result => ?_) fun e v _ _ a he => nomatch he
  refine .of_fact (φ := constructPatch p service = .ok result) (fun v hv => hv.2 _ rfl) fun hcon => ?_
  have hK₂ := hK₁.and (.const (∀ a, (.ok result : Except BrokerError _) = .ok a →
    constructPatch p service = .ok a))
  cases result with
  | error reason =>
      refine .done hK₂ fun v _ a he => ?_
      obtain rfl := Except.ok.inj he
      exact hnull
  | ok patch =>
      cases isPrecise with
      | false =>
          have hset : Settled binding := settled_of_legacy hc (by simp [hp])
          refine .done hK₂ fun v hv a he => ?_
          obtain rfl := Except.ok.inj he
          refine ⟨hbinding v hv.1.1 hset, hset, fun hcp => ?_, fun _ => ⟨service, hcon⟩⟩
          rw [hc, Except.ok.injEq] at hcp
          exact absurd (hp.1 (hcp ▸ PyEq.refl _)) nofun
      | true =>
          refine .bind (spec_ofPy hK₂) (fun candidate => ?_) fun e v _ _ a he => nomatch he
          refine .of_fact (φ := bindingFor P p.modelDump (.str precise) service = .ok candidate)
            (fun v hv => hv.2 _ rfl) fun hcand => ?_
          have hK₃ := hK₂.and (.const (∀ a, (.ok candidate : Except BrokerError _) = .ok a →
            bindingFor P p.modelDump (.str precise) service = .ok a))
          cases hpatch : patchForBinding P p.modelDump candidate with
          | error e =>
              have hreject : Spec calls X t b.self _ (do
                  let operation ← b.rejectPrepared id "contract_snapshot_out_of_scope" (some binding)
                  return ActionBroker.Preflight.returned operation : Program ρ Λ _) fun r v =>
                    ∀ a, r = .ok a → a.Sound P id p binding v :=
                .bind (spec_rejectPrepared hK₃ (P := P) (.inr ⟨binding, rfl, hnull⟩))
                  (fun operation => .done (hK₃.and (.const _)) fun v _ a he => by
                    obtain rfl := Except.ok.inj he; trivial)
                  fun e v _ _ a he => nomatch he
              cases e with
              | attributeError => exact .fail hK₃ fun v _ a he => nomatch he
              | _ => exact hreject
          | ok ops =>
              refine .bind (spec_recordConditions hK₃ hcand hpatch) (fun recorded => ?_)
                fun e v _ _ a he => nomatch he
              have hK₄ := hK₃.and fun v v' hr (h : ∀ r, (.ok recorded : Except BrokerError _) = .ok r →
                Settled r → v.world.journal.binding p.operationId.1 = r) r he hs =>
                  kept_binding hs hr (h r he hs)
              refine .bind (spec_ofPy hK₄) (fun patch => ?_) fun e v _ _ a he => nomatch he
              refine .done (hK₄.and (.const _)) fun v hv a he => ?_
              obtain rfl := Except.ok.inj he
              obtain ⟨hset, hbuilt⟩ := settled_of_patch (hv.2 _ rfl)
              exact ⟨hid ▸ hv.1.2 _ rfl hset, hset, hbuilt⟩

/-- Everything before the claim. -/
theorem spec_preflight {c : Json} (hc : subscript "contract_id" binding = .ok c) :
    Spec calls X t b.self K (b.preflight P id p binding) fun r v =>
      ∀ a, r = .ok a → a.Sound P id p binding v := by
  refine .bind (spec_ofPy hK) (fun contractId => ?_) fun e v _ _ a he => nomatch he
  refine .of_fact (φ := c = contractId)
    (fun v hv => Except.ok.inj (hc.symm.trans (hv.2 _ rfl))) fun hcc => ?_
  subst hcc
  have hK₁ := hK.and (.const (∀ a, (.ok c : Except BrokerError _) = .ok a →
    subscript "contract_id" binding = .ok a))
  have hbinding₁ : ∀ v, (K v ∧ ∀ a, (.ok c : Except BrokerError _) = .ok a →
      subscript "contract_id" binding = .ok a) → Settled binding →
        v.world.journal.binding id = binding := fun v hv => hbinding v hv.1
  by_cases hp : PyEq c (.str precise)
  · simp only [hp, if_true]
    refine .bind (spec_ofPy hK₁) (fun snapshot => ?_) fun e v _ _ a he => nomatch he
    refine .of_fact (φ := subscript "snapshot" binding = .ok snapshot) (fun v hv => hv.2 _ rfl)
      fun hsn => ?_
    have hK₂ := hK₁.and (.const (∀ a, (.ok snapshot : Except BrokerError _) = .ok a →
      subscript "snapshot" binding = .ok a))
    by_cases hs : snapshot = .null
    · simp only [hs, ne_eq, not_true_eq_false, if_false]
      exact spec_construct hb (hs ▸ hK₂) hid (fun v hv => hbinding₁ v hv.1) hc (by simp [hp])
        fun _ => hs ▸ hsn
    · simp only [hs, ne_eq, not_false_eq_true, if_true]
      refine .bind (spec_ofPy hK₂) (fun patch => ?_) fun e v _ _ a he => nomatch he
      refine .done (hK₂.and (.const _)) fun v hv a he => ?_
      obtain rfl := Except.ok.inj he
      obtain ⟨hset, hbuilt⟩ := settled_of_patch (hv.2 _ rfl)
      exact ⟨hbinding v hv.1.1.1 hset, hset, hbuilt⟩
  · simp only [hp, if_false]
    exact spec_construct hb hK₁ hid hbinding₁ hc (by simp [hp]) nofun

end

/-! ## The claim -/

/-- Thread `t` of instance `o` holds the lock and has gone through the checks of a claim,
which came to `reason`. -/
structure Begun (P : Platform) (t : ℕ) (o id : String) (p : Proposal) (binding current : Json)
    (reason : Option String) (v : Seen ρ Λ) : Prop where
  lock : v.world.writer = some t
  current_eq : v.world.journal.binding id = current
  prepared : v.world.journal.status? id = some .prepared
  checked : ∃ e ∈ v.hist, e.tid = t ∧ e.actor = o ∧ e.label = .beginClaim id ∧
    e.pre.journal = v.world.journal ∧ ∃ policy, e.pre.policies o = some policy ∧
      v.world.journal.claimReason P policy id p binding = reason

theorem kept_begun {o : String} {binding current : Json} {reason : Option String} :
    Kept t (Begun (ρ := ρ) (Λ := Λ) P t o id p binding current reason) := by
  intro v v' hr h
  obtain ⟨hw, hj⟩ := hr.lock h.lock
  obtain ⟨e, he, hrest⟩ := h.checked
  exact ⟨hw, hj ▸ h.current_eq, hj ▸ h.prepared, e, hr.hist.subset he, hj ▸ hrest⟩

theorem spec_beginClaim {binding : Json} (hK : Kept t K) :
    Spec calls X t b.self K (b.beginClaim P id p binding) fun r v =>
      ∀ reason current, r = .ok (some (reason, current)) →
        Begun P t b.self id p binding current reason v := by
  refine .bind (spec_mayFail hK) (fun _ => ?_) fun e v _ _ reason current he => nomatch he
  refine .act (A := fun r v => ∀ reason current, r = .ok (some (reason, current)) →
    Begun P t b.self id p binding current reason v) (hK.and (.const _)) rfl
    (fun v hv ht r w hf => ?_) fun r => ?_
  · split at hf
    · rename_i hw
      obtain ⟨policy, hpol, h'⟩ := Option.map_eq_some_iff.1 hf
      split at h'
      · rename_i hs
        cases h'
        refine ⟨.beginClaim hw hs, fun reason current he => ?_⟩
        cases he
        exact ⟨rfl, rfl, hs, ⟨t, b.self, .beginClaim id, v.world, _⟩, List.mem_cons_self, rfl, rfl,
          rfl, rfl, policy, hpol, rfl⟩
      · cases h'
        exact ⟨.read rfl, fun reason current he => nomatch he⟩
      · cases h'
        exact ⟨.read rfl, fun reason current he => nomatch he⟩
    · cases hf
  · exact .ofExcept ((hK.and (.const _)).and fun v v' hr h reason current he =>
      kept_begun hr (h reason current he)) fun v hv => hv.2

/-- An authorizer that is asked and agrees has authorized; one that does not gives one
of two reasons. -/
theorem spec_authorization {binding : Json} {patch : List Op} (hb : Behaves calls X t b)
    (hK : Kept t K) (hopen : ∀ v, K v → v.world.writer = some t ∧
      v.world.journal.binding id = binding ∧ Checked P t b.self id p patch v) :
    Spec calls X t b.self K (b.authorization p binding patch) fun r v =>
      (r = .ok none → E.authorized t b.self p binding patch v) ∧
        ∀ reason, r = .ok (some reason) → reason = "dispatch_authorization_refused" ∨
          reason = "dispatch_authorization_unavailable" := by
  intro Q v hv hQ
  unfold ActionBroker.authorization
  split
  · rename_i hnone
    intro v' hr _
    exact hQ _ _ (hK hr.1 hv) ⟨fun _ => hb.unauthorized hnone _ _ _ _, fun reason he => nomatch he⟩
  · rename_i authorize hsome
    refine Logic.wp_bind ((hb.authorize hsome hK hopen).attempt _ v hv ?_)
    rintro _ v' hk ⟨r, rfl, hf⟩
    dsimp only
    split
    · intro v'' hr hi
      exact hQ _ _ (hK hr.1 hk) ⟨fun _ => X.authorized hr.1 hr.2 hi.2 (hf rfl),
        fun reason he => nomatch he⟩
    · intro v'' hr _
      exact hQ _ _ (hK hr.1 hk) ⟨nofun, fun reason he => .inl (by cases he; rfl)⟩
    · intro v'' hr _
      exact hQ _ _ (hK hr.1 hk) ⟨nofun, fun reason he => .inr (by cases he; rfl)⟩

/-- What a thread knows while it dispatches: the operation is its own, `D` is all that
has been sent and answered for it, and `R` what the thread has claimed and been answered. -/
structure Sending (P : Platform) (E : Ext ρ Λ) (t : ℕ) (o id : String) (p : Proposal)
    (patch : List Op) (R D : List (Did ρ Λ)) (v : Seen ρ Λ) : Prop where
  dispatched : dispatchedBy t v.hist = R
  claimed : Claimed P E t o id p patch v.hist
  sent : dispatches id v.hist = D
  row : ∃ row, v.world.journal.operations.find? id = some row ∧ row.owner = some o ∧
    (row.status = .dispatching ∨ row.status = .uncertain)

theorem Claimed.mono {o : String} {patch : List Op} {hist hist' : List (Did ρ Λ)}
    (h : Claimed P E t o id p patch hist) (hs : hist <:+ hist') :
    Claimed P E t o id p patch hist' := by
  obtain ⟨e, past, he, hrest⟩ := h
  exact ⟨e, past, he.trans hs, hrest⟩

theorem Claimed.mem_claims {o : String} {patch : List Op} {hist : List (Did ρ Λ)}
    (h : Claimed P E t o id p patch hist) : ∃ c ∈ claims id hist, c.tid = t := by
  obtain ⟨c, hc, ht, -⟩ := claim_of_claimed h
  exact ⟨c, hc, ht⟩

theorem kept_sending {o : String} {patch : List Op} {R D : List (Did ρ Λ)} :
    Kept t (Sending P E t o id p patch R D) := by
  intro v v' hr h
  have hmem := h.claimed.mem_claims
  obtain ⟨row, hrow, ho, hs⟩ := h.row
  obtain ⟨row', hrow', ho', hs'⟩ := hr.claimed hmem hrow
  refine ⟨hr.dispatched.trans h.dispatched, h.claimed.mono hr.hist, (hr.dispatches hmem).trans h.sent,
    row', hrow', ho'.trans ho, ?_⟩
  rcases hs' with hs' | ⟨-, hu⟩
  · rwa [hs']
  · exact .inr hu

/-- The lock is given up without a trace. -/
theorem wp_abortClaim {R : List (Did ρ Λ)} {Q : Except BrokerError Bool → Seen ρ Λ → Prop}
    {v : Seen ρ Λ} (hlock : v.world.writer = some t) (hR : dispatchedBy t v.hist = R)
    (hQ : ∀ v', dispatchedBy t v'.hist = R → Q (.error operationalError) v') :
    (logic calls X).wp t b.self (do
      Proc.perform (.abortClaim id) fun t w =>
        if w.writer = some t then some ((), { w with writer := none }) else none
      throw operationalError) Q v := by
  intro v' hr _ _ w hf
  have hlock' := (hr.1.lock hlock).1
  dsimp only at hf
  rw [if_pos hlock'] at hf
  cases hf
  refine ⟨⟨_, _, rfl, .abortClaim hlock'⟩, fun v'' hr' _ => hQ v'' ?_⟩
  rw [hr'.1.dispatched, dispatchedBy_log (.inr rfl), hr.1.dispatched, hR]

theorem status_claim {o : String} {j : Journal} (h : j.status? id = some .prepared) :
    ∃ row, (j.claim o id none).2.operations.find? id = some row ∧ row.owner = some o ∧
      row.status = .dispatching := by
  obtain ⟨row, -, -, hrow⟩ := (effect_claim (P := ⟨fun s => s, fun _ => ""⟩) (Λ := Empty) (o := o) (k := id)
    h).of_claim
  exact ⟨_, hrow, rfl, rfl⟩

/-- The commit of a claim that has been authorized. -/
theorem wp_endClaim {patch : List Op} {R : List (Did ρ Λ)}
    {Q : Except BrokerError Bool → Seen ρ Λ → Prop} {v : Seen ρ Λ}
    (hlock : v.world.writer = some t) (hc : Checked P t b.self id p patch v)
    (ha : E.authorized t b.self p (v.world.journal.binding id) patch v)
    (hR : dispatchedBy t v.hist = R)
    (hok : ∀ c v', c.label = .endClaim id none →
      Sending P E t b.self id p patch (c :: R) [] v' → Q (.ok true) v')
    (hfail : ∀ v', dispatchedBy t v'.hist = R → Q (.error operationalError) v') :
    (logic calls X).wp t b.self (b.endClaim id none) Q v := by
  refine fun c => ?_
  cases c with
  | true => exact wp_abortClaim hlock hR hfail
  | false =>
      rintro v' hr ⟨⟨w₀, -, -, ht⟩, hx⟩ changed w hf
      obtain ⟨hlock', hj⟩ := hr.1.lock hlock
      dsimp only at hf
      rw [if_pos hlock'] at hf
      obtain ⟨e, he, hrest⟩ := hc.checked
      have hcl : Claimable P E t b.self id p patch v' :=
        ⟨⟨hj ▸ hc.prepared, hj ▸ hc.requested, ⟨e, hr.1.hist.subset he, hj ▸ hrest⟩,
          hj ▸ hc.built⟩, hj ▸ X.authorized hr.1 hr.2 hx ha⟩
      have hchanged : (v'.world.journal.claim b.self id none).1 = true := by
        simp only [Journal.claim, hcl.prepared]
      obtain ⟨row, hrow, ho, hs⟩ := status_claim (o := b.self) hcl.prepared
      rw [hchanged] at hf
      cases hf
      refine ⟨⟨_, _, rfl, .claim hlock' hcl⟩, fun v'' hr' _ => ?_⟩
      have hsent : dispatches id (v'.log t b.self (.endClaim id none) { v'.world with
          journal := (v'.world.journal.claim b.self id none).2, writer := none }).hist = [] := by
        rw [dispatches_log (by simp [Label.dispatchOf])]
        exact ht.dispatches_of_prepared hcl.prepared
      have hl : (Label.endClaim id none : Label Λ).isDispatch = true := rfl
      exact hok _ v'' rfl (kept_sending hr'.1
        ⟨(dispatchedBy_log_self hl).trans (congrArg _ (hr.1.dispatched.trans hR)),
          ⟨_, _, List.suffix_refl _, rfl, rfl, rfl, hcl⟩, hsent, row, hrow, ho, .inl hs⟩)

/-- The commit of a refusal. -/
theorem wp_refuse {reason : String} {R : List (Did ρ Λ)}
    {Q : Except BrokerError Bool → Seen ρ Λ → Prop} {v : Seen ρ Λ}
    (hlock : v.world.writer = some t) (hp : v.world.journal.status? id = some .prepared)
    (href : Refusal P id reason v) (hR : dispatchedBy t v.hist = R)
    (hok : ∀ changed v', dispatchedBy t v'.hist = R → Q (.ok changed) v')
    (hfail : ∀ v', dispatchedBy t v'.hist = R → Q (.error operationalError) v') :
    (logic calls X).wp t b.self (b.endClaim id (some reason)) Q v := by
  refine fun c => ?_
  cases c with
  | true => exact wp_abortClaim hlock hR hfail
  | false =>
      rintro v' hr - changed w hf
      obtain ⟨hlock', hj⟩ := hr.1.lock hlock
      dsimp only at hf
      rw [if_pos hlock'] at hf
      cases hf
      have href' : Refusal P id reason v' := by
        rw [Refusal, hj]
        exact href
      refine ⟨⟨_, _, rfl, .refuse hlock' (hj ▸ hp) href'⟩, fun v'' hr' _ => hok _ v'' ?_⟩
      rw [hr'.1.dispatched, dispatchedBy_log (.inr rfl), hr.1.dispatched, hR]

/-- **The claim of a dispatch**: it comes to a claim of the thread's own, or to nothing. -/
theorem wp_claimDispatch {binding : Json} {patch : List Op} {R : List (Did ρ Λ)}
    {Q : Except BrokerError Bool → Seen ρ Λ → Prop} {v : Seen ρ Λ} (hb : Behaves calls X t b)
    (hreq : Requested id p v.world.journal) (hbinding : v.world.journal.binding id = binding)
    (hset : Settled binding) (hbuilt : Built P p binding patch) (hR : dispatchedBy t v.hist = R)
    (hyes : ∀ c v', c.label = .endClaim id none →
      Sending P E t b.self id p patch (c :: R) [] v' → Q (.ok true) v')
    (hno : ∀ r v', dispatchedBy t v'.hist = R → r ≠ .ok true → Q r v') :
    (logic calls X).wp t b.self (b.claimDispatch P id p binding patch) Q v := by
  have hK : Kept t fun v : Seen ρ Λ => (Requested id p v.world.journal ∧
      v.world.journal.binding id = binding) ∧ dispatchedBy t v.hist = R :=
    ((kept_requested id p).and (kept_binding hset)).and (kept_dispatchedBy R)
  refine (spec_beginClaim hK).wp_bind
    ⟨⟨hreq, hbinding⟩, hR⟩ (fun begun v₁ hk₁ hbeg => ?_) fun e v₁ hk₁ _ => hno _ _ hk₁.2 nofun
  match begun with
  | none => exact fun v₂ hr _ => hno _ _ (hr.1.dispatched.trans hk₁.2) nofun
  | some (reason, current) =>
      have hbegun := hbeg reason current rfl
      obtain rfl : binding = current := hk₁.1.2.symm.trans hbegun.current_eq
      match reason with
      | some reason =>
          -- refused before anybody was asked
          obtain ⟨e, -, -, -, -, -, policy, -, hreason⟩ := hbegun.checked
          have href : Refusal P id reason v₁ := .inl ⟨policy, p, hk₁.1.2.symm ▸ hreason⟩
          change (logic calls X).wp t b.self ((b.endClaim id (some reason)).bind _) Q v₁
          refine Logic.wp_bind (wp_refuse hbegun.lock hbegun.prepared href hk₁.2
            (fun changed v₂ hR₂ => ?_) fun v₂ hR₂ => hno _ _ hR₂ nofun)
          exact fun v₃ hr _ => hno _ _ (hr.1.dispatched.trans hR₂) (by simp)
      | none =>
          have hchecked : ∀ v, ((Requested id p v.world.journal ∧
              v.world.journal.binding id = binding) ∧ dispatchedBy t v.hist = R) ∧
              Begun P t b.self id p binding binding none v →
              v.world.writer = some t ∧ v.world.journal.binding id = binding ∧
                Checked P t b.self id p patch v := by
            rintro v ⟨⟨⟨hreq, hbd⟩, -⟩, hbg⟩
            exact ⟨hbg.lock, hbd, hbg.prepared, hreq, hbd.symm ▸ hbg.checked, hbd.symm ▸ hbuilt⟩
          refine (spec_authorization hb (hK.and kept_begun) hchecked).wp_bind ⟨hk₁, hbegun⟩
            (fun reason v₂ hk₂ hauth => ?_) fun e v₂ hk₂ _ => hno _ _ hk₂.1.2 nofun
          obtain ⟨hlock, hbd, hch⟩ := hchecked v₂ hk₂
          match reason with
          | some reason =>
              have href : Refusal P id reason v₂ := .inr (hauth.2 reason rfl)
              refine Logic.wp_bind (wp_refuse hlock hch.prepared href hk₂.1.2
                (fun changed v₃ hR₃ => ?_) fun v₃ hR₃ => hno _ _ hR₃ nofun)
              exact fun v₄ hr _ => hno _ _ (hr.1.dispatched.trans hR₃) (by simp)
          | none =>
              refine Logic.wp_bind (wp_endClaim hlock hch (hbd.symm ▸ hauth.1 rfl) hk₂.1.2
                (fun c v₃ hc hs => ?_) fun v₃ hR₃ => hno _ _ hR₃ nofun)
              exact fun v₄ hr _ => hyes c v₄ hc (kept_sending hr.1 hs)

/-! ## The dispatch -/

/-- **What a call leaves**: no claim, or one claim and one answer to the patch, and the
status that the answer calls for is on record once the call returns. -/
def Recorded (t : ℕ) (R : List (Did ρ Λ)) (r : Except BrokerError β) (v : Seen ρ Λ) : Prop :=
  dispatchedBy t v.hist = R ∨ ∃ e c id p answer, dispatchedBy t v.hist = e :: c :: R ∧
    e.label = .patchReturned id p answer ∧ c.label = .endClaim id none ∧
      (r.isOk = true → v.world.journal.status? id = some (outcome p answer).status)

theorem mem_claims_of_dispatchedBy {hist R : List (Did ρ Λ)} {e c : Did ρ Λ}
    (h : dispatchedBy t hist = e :: c :: R) (hc : c.label = .endClaim id none) :
    ∃ c ∈ claims id hist, c.tid = t := by
  have hmem : c ∈ dispatchedBy t hist := h ▸ List.mem_cons_of_mem e List.mem_cons_self
  obtain ⟨hhist, ht, -⟩ := mem_dispatchedBy.1 hmem
  exact ⟨c, mem_claims.2 ⟨hhist, hc⟩, ht⟩

theorem kept_recorded {R : List (Did ρ Λ)} {r : Except BrokerError β} :
    Kept t (Recorded t R r) := by
  intro v v' hr h
  rcases h with h | ⟨e, c, id, p, answer, hret, hl, hc, hs⟩
  · exact .inl (hr.dispatched.trans h)
  · refine .inr ⟨e, c, id, p, answer, hr.dispatched.trans hret, hl, hc, fun hok => ?_⟩
    obtain ⟨row, hrow, hst⟩ := Option.map_eq_some_iff.1 (hs hok)
    obtain ⟨row', hrow', -, hs'⟩ := hr.claimed (mem_claims_of_dispatchedBy hret hc) hrow
    have hout := isOutcome_outcome p answer
    rcases hs' with hs' | ⟨hd, -⟩
    · rw [Journal.status?, hrow', Option.map_some, hs', hst]
    · rw [← hst, hd] at hout
      cases hout

/-- What a call leaves does not depend on what it returns. -/
theorem Recorded.of_ok {R : List (Did ρ Λ)} {r : Except BrokerError β} {γ : Type}
    {r' : Except BrokerError γ} {v : Seen ρ Λ} (h : Recorded t R r v)
    (hr : r'.isOk = true → r.isOk = true) : Recorded t R r' v :=
  h.imp_right fun ⟨e, c, id, p, answer, hret, hl, hc, hs⟩ =>
    ⟨e, c, id, p, answer, hret, hl, hc, fun hok => hs (hr hok)⟩

/-- The record of an outcome. -/
theorem wp_finish {patch : List Op} {R D : List (Did ρ Λ)} {e c : Did ρ Λ}
    {answer : Except BrokerError Json} {Q : Except BrokerError Journal.Operation → Seen ρ Λ → Prop}
    {v : Seen ρ Λ} (he : e.tid = t ∧ e.actor = b.self ∧ e.label = .patchReturned id p answer)
    (hc : c.label = .endClaim id none) (hv : Sending P E t b.self id p patch (e :: c :: R) D v)
    (hQ : ∀ r v', Recorded t R r v' → Q r v') :
    (logic calls X).wp t b.self (b.finish id (outcome p answer)) Q v := by
  have hdone : ∀ (r : Except BrokerError Unit) v',
      Sending P E t b.self id p patch (e :: c :: R) D v' ∧ r.isOk = false →
        Recorded t R r v' := by
    rintro r v' ⟨hs, hr⟩
    exact .inr ⟨e, c, id, p, answer, hs.dispatched, he.2.2, hc,
      fun hok => by rw [hr] at hok; cases hok⟩
  refine Logic.wp_bind (Logic.wp_mono (P := fun r v' => Recorded t R r v') ?_ ?_)
  · refine (spec_mayFail kept_sending).wp_bind hv (fun _ v₁ hv₁ _ => ?_) fun err v₁ hv₁ _ =>
      hdone _ _ ⟨hv₁, rfl⟩
    intro v₂ hr hi r w hf
    have hv₂ := kept_sending hr.1 hv₁
    obtain ⟨row, hrow, ho, hs⟩ := hv₂.row
    dsimp only at hf
    split at hf
    · rename_i hw
      obtain ⟨policy, -, h'⟩ := Option.map_eq_some_iff.1 hf
      cases h'
      have hmem : e ∈ dispatchedBy t v₂.hist := hv₂.dispatched ▸ List.mem_cons_self
      refine ⟨⟨_, _, rfl, .finish hw ⟨e, (mem_dispatchedBy.1 hmem).1, he⟩⟩,
        fun v₃ hr' _ => kept_recorded hr'.1 ?_⟩
      refine .inr ⟨e, c, id, p, answer, ?_, he.2.2, hc, fun _ => ?_⟩
      · rw [dispatchedBy_log (.inr rfl), hv₂.dispatched]
      · have : (row.status = .dispatching ∨ row.status = .uncertain) ∧ row.owner = some b.self :=
          ⟨hs, ho⟩
        simp [Journal.finish, hrow, this, Journal.status?, Journal.addEvent, Journal.updateRow]
    · cases hf
  · rintro r v₁ - hrec
    cases r with
    | error err => exact hQ _ _ (hrec.of_ok fun h => h)
    | ok _ =>
        refine spec_lookup kept_recorded Q v₁ hrec fun r v₂ hrec' _ => ?_
        exact hQ r v₂ (hrec'.of_ok fun _ => rfl)

/-- **The dispatch**: the patch is sent, and the outcome of the answer is recorded. -/
theorem wp_dispatch {patch : List Op} {R : List (Did ρ Λ)} {c : Did ρ Λ}
    {Q : Except BrokerError Journal.Operation → Seen ρ Λ → Prop} {v : Seen ρ Λ}
    (hb : Behaves calls X t b) (hc : c.label = .endClaim id none)
    (hv : Sending P E t b.self id p patch (c :: R) [] v)
    (hQ : ∀ r v', Recorded t R r v' → Q r v') :
    (logic calls X).wp t b.self (b.dispatch id p patch) Q v := by
  intro v₁ hr₁ _ _ _ hf₁
  cases hf₁
  have hv₁ := kept_sending hr₁.1 hv
  refine ⟨⟨_, _, rfl, .patchService hv₁.claimed hv₁.sent⟩, ?_⟩
  -- the adapter is called with the patch on record as sent
  have hsent : Sending P E t b.self id p patch (c :: R)
      [⟨t, b.self, .patchService id patch, v₁.world, v₁.world⟩]
      (v₁.log t b.self (.patchService id patch) v₁.world) := by
    refine ⟨?_, hv₁.claimed.mono (List.suffix_cons _ _), ?_, hv₁.row⟩
    · rw [dispatchedBy_log (.inr rfl), hv₁.dispatched]
    · have : dispatches id v₁.hist = [] := hv₁.sent
      rw [View.log_hist, dispatches, List.filter_cons_of_pos (by simp [Label.dispatchOf]),
        ← dispatches, this]
  change (logic calls X).wp t b.self
    ((Proc.attempt (b.patchService p.ns.1 p.serviceName.1 patch)).bind _) Q _
  refine (hb.patchService kept_sending fun v hv =>
    ⟨hv.claimed, _, hv.sent, rfl, rfl⟩).attempt.wp_bind hsent (fun answer v₂ hv₂ _ => ?_)
    fun e v₂ _ hret => by obtain ⟨_, he, _⟩ := hret; cases he
  intro v₃ hr₃ _ _ _ hf₃
  cases hf₃
  have hv₃ := kept_sending hr₃.1 hv₂
  refine ⟨⟨_, _, rfl, .patchReturned hv₃.claimed ⟨_, hv₃.sent, rfl, rfl⟩⟩, ?_⟩
  have hreturned : ∃ D, Sending P E t b.self id p patch
      (⟨t, b.self, .patchReturned id p answer, v₃.world, v₃.world⟩ :: c :: R) D
      (v₃.log t b.self (.patchReturned id p answer) v₃.world) := by
    refine ⟨_, ?_, hv₃.claimed.mono (List.suffix_cons _ _), rfl, hv₃.row⟩
    rw [dispatchedBy_log_self rfl, hv₃.dispatched]
  obtain ⟨D, hreturned⟩ := hreturned
  cases answer with
  | error e => exact wp_finish ⟨rfl, rfl, rfl⟩ hc hreturned hQ
  | ok result =>
      -- a hook that raises leaves the outcome unrecorded
      have hraise : ∀ {γ : Type} (e : BrokerError) v',
          Sending P E t b.self id p patch
            (⟨t, b.self, .patchReturned id p (.ok result), v₃.world, v₃.world⟩ :: c :: R) D v' →
          Recorded t R (.error e : Except BrokerError γ) v' := fun e v' hs =>
        .inr ⟨_, c, id, p, _, hs.dispatched, rfl, hc, fun hok => by cases hok⟩
      refine (hb.hook kept_sending).wp_bind hreturned (fun _ v₄ hv₄ _ => ?_)
        fun e v₄ hv₄ _ => hQ _ _ (hraise e v₄ hv₄)
      refine (hb.hook kept_sending).wp_bind hv₄ (fun _ v₅ hv₅ _ => ?_)
        fun e v₅ hv₅ _ => hQ _ _ (hraise e v₅ hv₅)
      exact wp_finish ⟨rfl, rfl, rfl⟩ hc hv₅ hQ

/-! ## Whole calls -/

/-- What a call leaves that has sent nothing. -/
theorem wp_quiet {prog : Program ρ Λ β} {R : List (Did ρ Λ)}
    {F : Except BrokerError β → Seen ρ Λ → Prop} {Q : Except BrokerError β → Seen ρ Λ → Prop}
    {v : Seen ρ Λ} (h : ∀ K, Kept t K → Spec calls X t b.self K prog F)
    (hR : dispatchedBy t v.hist = R) (hQ : ∀ r v', Recorded t R r v' → Q r v') :
    (logic calls X).wp t b.self prog Q v :=
  h _ (kept_dispatchedBy R) Q v hR fun r v' hR' _ => hQ r v' (.inl hR')

theorem wp_send {binding : Json} {patch : List Op} {R : List (Did ρ Λ)}
    {Q : Except BrokerError Journal.Operation → Seen ρ Λ → Prop} {v : Seen ρ Λ}
    (hb : Behaves calls X t b) (hreq : Requested id p v.world.journal)
    (hbinding : v.world.journal.binding id = binding) (hset : Settled binding)
    (hbuilt : Built P p binding patch) (hR : dispatchedBy t v.hist = R)
    (hQ : ∀ r v', Recorded t R r v' → Q r v') :
    (logic calls X).wp t b.self (b.send P id p patch binding) Q v := by
  have hK : Kept t fun v : Seen ρ Λ => (Requested id p v.world.journal ∧
      v.world.journal.binding id = binding) ∧ dispatchedBy t v.hist = R :=
    ((kept_requested id p).and (kept_binding hset)).and (kept_dispatchedBy R)
  refine (hb.hook hK).wp_bind ⟨⟨hreq, hbinding⟩, hR⟩ (fun _ v₁ hv₁ _ => ?_)
    fun e v₁ hv₁ _ => hQ _ _ (.inl hv₁.2)
  refine Logic.wp_bind (wp_claimDispatch hb hv₁.1.1 hv₁.1.2 hset hbuilt hv₁.2
    (fun c v₂ hc hs => ?_) fun r v₂ hR₂ hne => ?_)
  · exact wp_dispatch hb hc hs hQ
  · match r with
    | .error e => exact hQ _ _ (.inl hR₂)
    | .ok true => exact absurd rfl hne
    | .ok false => exact wp_quiet (fun K hK => spec_lookup hK) hR₂ hQ

theorem wp_resume {R : List (Did ρ Λ)}
    {Q : Except BrokerError Journal.Operation → Seen ρ Λ → Prop} {v : Seen ρ Λ}
    (hb : Behaves calls X t b) (hreq : Requested id p v.world.journal)
    (hR : dispatchedBy t v.hist = R) (hQ : ∀ r v', Recorded t R r v' → Q r v') :
    (logic calls X).wp t b.self (b.resume P id p) Q v := by
  have hK : Kept t fun v : Seen ρ Λ => Requested id p v.world.journal ∧ dispatchedBy t v.hist = R :=
    (kept_requested id p).and (kept_dispatchedBy R)
  refine (spec_contractBinding hK).wp_bind ⟨hreq, hR⟩ (fun binding v₁ hv₁ hbd => ?_)
    fun e v₁ hv₁ _ => hQ _ _ (.inl hv₁.2)
  have hK₁ : Kept t fun v : Seen ρ Λ => (Requested id p v.world.journal ∧ dispatchedBy t v.hist = R) ∧
      (Settled binding → v.world.journal.binding id = binding) :=
    hK.and fun v v' hr h hs => kept_binding hs hr (h hs)
  refine (spec_readPolicy hK₁ rfl).wp_bind ⟨hv₁, hbd binding rfl⟩ (fun reason v₂ hv₂ hreason => ?_)
    fun e v₂ hv₂ _ => hQ _ _ (.inl hv₂.1.2)
  obtain ⟨policy, hreason⟩ := hreason
  rw [Except.ok.injEq] at hreason
  match reason with
  | some reason =>
      exact wp_quiet (fun K hK => spec_rejectPrepared (P := P) hK
        (.inl ⟨rfl, policy, p, binding, hreason.symm⟩)) hv₂.1.2 hQ
  | none =>
      have hcr : Journal.contractReason P policy p binding = none := by
        cases hpr : policy.policyReason p with
        | some _ => rw [hpr] at hreason; cases hreason
        | none => rw [hpr, Option.none_or] at hreason; exact hreason.symm
      obtain ⟨-, hc, -⟩ := contractReason_eq_none.1 hcr
      have hK₂ : Kept t fun v : Seen ρ Λ => (Requested id p v.world.journal ∧
          dispatchedBy t v.hist = R) ∧ (Settled binding → v.world.journal.binding id = binding) := hK₁
      refine (spec_preflight hb hK₂ hreq.1 (fun v hv => hv.2) hc).attempt.wp_bind hv₂
        (fun result v₃ hv₃ hsound => ?_) fun e v₃ _ ⟨_, he, _⟩ => nomatch he
      obtain ⟨_, heq, hsound⟩ := hsound
      obtain rfl := Except.ok.inj heq
      match result with
      | .error e =>
          refine (spec_transaction (F := fun _ _ => True) hK₂ rfl (fun _ => .const _)
            (fun _ => trivial) fun v policy hv _ hw _ w hw' => ⟨?_, trivial⟩).wp_bind hv₃
            (fun _ v₄ hv₄ _ => wp_quiet (fun K hK => spec_lookup hK) hv₄.1.2 hQ)
            fun e v₄ hv₄ _ => hQ _ _ (.inl hv₄.1.2)
          obtain ⟨-, row, hrow, -⟩ := hv.1.1
          subst hw'
          exact .preflightUnavailable hw hrow
      | .ok (.returned operation) => exact fun v₄ hr _ => hQ _ _ (.inl (hr.1.dispatched.trans hv₃.1.2))
      | .ok (.refused reason) =>
          exact wp_quiet (fun K hK => spec_rejectPrepared (P := P) hK
            (.inr ⟨binding, rfl, hsound _ rfl⟩)) hv₃.1.2 hQ
      | .ok (.ready patch recorded) =>
          obtain ⟨hbd₃, hset, hbuilt⟩ := hsound _ rfl
          exact wp_send hb hv₃.1.1 hbd₃ hset hbuilt hv₃.1.2 hQ

theorem wp_resumePrepared {R : List (Did ρ Λ)}
    {Q : Except BrokerError Journal.Operation → Seen ρ Λ → Prop} {v : Seen ρ Λ}
    (hb : Behaves calls X t b) (hR : dispatchedBy t v.hist = R)
    (hQ : ∀ r v', Recorded t R r v' → Q r v') :
    (logic calls X).wp t b.self (b.resumePrepared P id) Q v := by
  refine (spec_lookup (kept_dispatchedBy R)).wp_bind hR (fun op v₁ hR₁ hreq => ?_)
    fun e v₁ hR₁ _ => hQ _ _ (.inl hR₁)
  split
  · split
    · exact fun v₂ hr _ => hQ _ _ (.inl (hr.1.dispatched.trans hR₁))
    · rename_i p hp
      exact wp_resume hb (hreq op p rfl hp) hR₁ hQ
  · exact fun v₂ hr _ => hQ _ _ (.inl (hr.1.dispatched.trans hR₁))

theorem wp_propose {proposal : Json} {R : List (Did ρ Λ)}
    {Q : Except BrokerError Journal.Operation → Seen ρ Λ → Prop} {v : Seen ρ Λ}
    (hb : Behaves calls X t b) (hR : dispatchedBy t v.hist = R)
    (hQ : ∀ r v', Recorded t R r v' → Q r v') :
    (logic calls X).wp t b.self (b.propose P proposal) Q v := by
  unfold ActionBroker.propose
  split
  · exact fun v₁ hr _ => hQ _ _ (.inl (hr.1.dispatched.trans hR))
  · rename_i p hp
    refine (spec_transaction (F := fun _ _ => True) (kept_dispatchedBy R) rfl (fun _ => .const _)
      (fun _ => trivial) fun v policy _ _ hw hpol w hw' => ⟨?_, trivial⟩).wp_bind hR
      (fun resume v₁ hR₁ _ => ?_) fun e v₁ hR₁ _ => hQ _ _ (.inl hR₁)
    · subst hw'
      exact .propose hw hpol
    · cases resume with
      | false => exact wp_quiet (fun K hK => spec_lookup hK) hR₁ hQ
      | true =>
          refine (hb.hook (kept_dispatchedBy R)).wp_bind hR₁ (fun _ v₂ hR₂ _ => ?_)
            fun e v₂ hR₂ _ => hQ _ _ (.inl hR₂)
          exact wp_resumePrepared hb hR₂ hQ

theorem spec_observe (hb : Behaves calls X t b) (hK : Kept t K) :
    Spec calls X t b.self K (b.observe id p) fun _ _ => True := by
  refine .bind (spec_readPolicy hK rfl) (fun reason => ?_) fun _ _ _ _ => trivial
  have hK₁ := hK.and (.const (∃ policy : BrokerPolicy,
    (.ok reason : Except BrokerError _) = .ok (policy.scopeReason p)))
  cases reason with
  | some _ => exact .fail hK₁ fun _ _ => trivial
  | none =>
      refine .bind (hb.getService hK₁) (fun service => ?_) fun _ _ _ _ => trivial
      exact (spec_ofPy (hK₁.and (.const _))).mono fun _ _ _ _ => trivial

theorem wp_reconcile {R : List (Did ρ Λ)}
    {Q : Except BrokerError Journal.Operation → Seen ρ Λ → Prop} {v : Seen ρ Λ}
    (hb : Behaves calls X t b) (hR : dispatchedBy t v.hist = R)
    (hQ : ∀ r v', Recorded t R r v' → Q r v') :
    (logic calls X).wp t b.self (b.reconcile id) Q v := by
  refine (spec_lookup (kept_dispatchedBy R)).wp_bind hR (fun op v₁ hR₁ hreq => ?_)
    fun e v₁ hR₁ _ => hQ _ _ (.inl hR₁)
  split
  · exact fun v₂ hr _ => hQ _ _ (.inl (hr.1.dispatched.trans hR₁))
  · rename_i p hp
    have hK : Kept t fun v : Seen ρ Λ => Requested id p v.world.journal ∧ dispatchedBy t v.hist = R :=
      (kept_requested id p).and (kept_dispatchedBy R)
    refine (spec_observe hb hK).attempt.wp_bind ⟨hreq op p rfl hp, hR₁⟩ (fun observed v₂ hv₂ _ => ?_)
      fun e v₂ hv₂ _ => hQ _ _ (.inl hv₂.2)
    refine (spec_transaction (F := fun _ _ => True) hK rfl (fun _ => .const _)
      (fun _ => trivial) fun v policy hv _ hw _ w hw' => ⟨?_, trivial⟩).wp_bind hv₂
      (fun _ v₃ hv₃ _ => wp_quiet (fun K hK => spec_lookup hK) hv₃.2 hQ)
      fun e v₃ hv₃ _ => hQ _ _ (.inl hv₃.2)
    obtain ⟨⟨-, row, hrow, -⟩, -⟩ := hv
    subst hw'
    exact .reconcile hw hrow

/-- **Every call follows the protocol**, and leaves its outcome on record. -/
theorem wp_run {call : Call} {R : List (Did ρ Λ)}
    {Q : Except BrokerError Journal.Operation → Seen ρ Λ → Prop} {v : Seen ρ Λ}
    (hb : Behaves calls X t b) (hR : dispatchedBy t v.hist = R)
    (hQ : ∀ r v', Recorded t R r v' → Q r v') :
    (logic calls X).wp t b.self (call.run P b) Q v := by
  cases call with
  | propose proposal => exact wp_propose hb hR hQ
  | resumePrepared id => exact wp_resumePrepared hb hR hQ
  | lookup id => exact wp_quiet (fun K hK => spec_lookup hK) hR hQ
  | reconcile id => exact wp_reconcile hb hR hQ

end AutonomyLab.Broker
