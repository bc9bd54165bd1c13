import AutonomyLab.Admission.Owner
import AutonomyLab.Broker.Sound

/-!
# The campaign follows its protocol

Any number of operator processes and administrative calls, on one journal and one ledger,
with any of them dying at any time.

* `campaign` — the system.
* `Owned`, `surroundings` — what a process may count on in the rest of the world: nobody
  else touches its variables, changes an authorization, or sends what it has authorized.
* `local_authorize`, `local_patchService` — the authorizer and the adapter; the adapter
  goes from one fact to the next until the patch is cleared.
* `sound_campaign` — every process follows the protocol.
-/

namespace AutonomyLab.Admission

open Json Store Process Broker

/-! ## The system -/

/-- Configurations of a campaign. -/
abbrev Campaigns : Type 1 := Conf (World Campaign) (Label Deed) String BrokerError Unit

section
variable (P : Platform)

/-- A process whose instance of the broker has been started, or an administrative call. -/
def campaignCalls (c : Campaigns) (o : String) (prog : Program Campaign Deed Unit) : Prop :=
  (c.view.world.policies o ≠ none ∧ ∃ programVersion, prog = operator P o programVersion) ∨
    (∃ expectedRevision, prog = promote expectedRevision) ∨
    ∃ expectedRevision, prog = withdraw expectedRevision

/-- Both ledgers are empty, and nothing has been started. -/
def campaignInit (w : World Campaign) : Prop := w = ⟨.empty, none, fun _ => none, .start⟩

def campaign : System (World Campaign) (Label Deed) String BrokerError Unit :=
  brokers campaignInit (campaignCalls P)

end

variable {P : Platform} {t u : ℕ} {o id : String} {v v' : Seen} {d : Deed} {l : Label Deed}
  {w : World Campaign} {row : Authorization} {p : Proposal} {patch : List Op}

/-! ## What a process may count on -/

/-- What may happen to the rest of the world of thread `t` between its acts. -/
structure Owned (t : ℕ) (v v' : Seen) : Prop where
  hist : v.hist <:+ v'.hist
  operator : v'.world.rest.operators t = v.world.rest.operators t
  registry : Keeps v.world.rest.registry v'.world.rest.registry
  transports : ∀ {id}, (∃ a ∈ authorizations id v.hist, a.tid = t) →
    transports id v'.hist = transports id v.hist

theorem Owned.of_rest (hh : v'.hist = v.hist) (hr : v'.world.rest = v.world.rest) : Owned t v v' where
  hist := hh ▸ List.suffix_refl _
  operator := by rw [hr]
  registry := by rw [hr]; exact .refl _
  transports _ := by rw [hh]

theorem authorizations_mono {hist past : List Did} {a : Did} (h : past <:+ hist)
    (ha : a ∈ authorizations id past) : a ∈ authorizations id hist :=
  mem_entries.2 ⟨h.subset (mem_entries.1 ha).1, (mem_entries.1 ha).2⟩

theorem Owned.trans {v'' : Seen} (h : Owned t v v') (h' : Owned t v' v'') : Owned t v v'' where
  hist := h.hist.trans h'.hist
  operator := h'.operator.trans h.operator
  registry := h.registry.trans h'.registry
  transports := by
    rintro id ⟨a, ha, ht⟩
    exact (h'.transports ⟨a, authorizations_mono h.hist ha, ht⟩).trans (h.transports ⟨a, ha, ht⟩)

/-- **The acts of the others leave a process what it counts on.** -/
theorem Act.owned (h : Act P (ext P) t o v l w) (htu : t ≠ u)
    (hp : Past P v.hist v.world.journal v.world.rest) : Owned u v (v.log t o l w) where
  hist := List.suffix_cons _ _
  operator := (Act.keeps h).others u (Ne.symm htu)
  registry := (Act.keeps h).registry
  transports := by
    rintro id ⟨a, ha, rfl⟩
    refine transports_cons_of_ne fun hl => ?_
    -- whoever else sends it would have authorized it too
    obtain ⟨ns, name, patch, rfl⟩ := sentFor_eq_some.1 hl
    obtain ⟨row, hcov, -⟩ := (Act.cleared h).covered
    obtain ⟨a', ha', hat⟩ := hcov.own
    exact htu (by rw [← hat, hp.authorization_unique ha' ha])

/-- What the proof about brokers needs to know of a campaign. -/
def surroundings (P : Platform) : Surroundings (α := Unit) P (ext P) campaignInit where
  inv v := Past P v.hist v.world.journal v.world.rest
  rely := Owned
  rely_refl _ _ := .of_rest rfl rfl
  rely_trans h h' := h.trans h'
  sane := by
    rintro w rfl
    exact Journal.sane_empty
  inv_init := by
    rintro w rfl
    exact .nil
  inv_act _ hp ha := hp.cons ha
  rely_act htu _ hp ha := Act.owned ha htu hp
  inv_env := by
    rintro v w hp (_ | _) <;> exact hp
  rely_env := by
    rintro u v w - (_ | _) <;> exact .of_rest rfl rfl
  inv_stop := by
    rintro c D w hp rfl
    exact hp
  rely_stop := by
    rintro c D w u - rfl -
    exact .of_rest rfl rfl
  authorized _ _ _ _ := trivial

/-- The logic of a campaign. -/
def campaignLogic (P : Platform) : Logic (campaign P) := logic (campaignCalls P) (surroundings P)

theorem held_operator {φ : Operator → Prop} :
    Held (surroundings P) t fun v => φ (v.world.rest.operators t) := by
  intro v v' _ (hx : Owned t v v') h
  rw [hx.operator]
  exact h

theorem held_requested : Held (surroundings P) t fun v => Requested id p v.world.journal :=
  (kept_requested id p).held

/-- A patch that is covered stays covered, and nobody else sends it. -/
theorem held_covered :
    Held (surroundings P) t fun v => Covered P t id patch row v ∧ transports id v.hist = [] := by
  rintro v v' hr (hx : Owned t v v') ⟨h, hn⟩
  have hb := hr.settled h.settled
  obtain ⟨a, ha, ht⟩ := h.own
  obtain ⟨p, hreq, hd⟩ := h.request
  refine ⟨⟨hx.registry.authorizations h.found, ⟨a, authorizations_mono hx.hist ha, ht⟩,
    ⟨p, hr.requested hreq, hd⟩, by rw [hb]; exact h.settled, ?_⟩, (hx.transports h.own).trans hn⟩
  rw [hb]
  exact hx.registry.conditions h.conditions

theorem held_cleared : Held (surroundings P) t fun v => Cleared P t id patch v := by
  rintro v v' hr hx ⟨⟨row, hcov, hb⟩, hn⟩
  obtain ⟨hcov', hn'⟩ := held_covered hr hx ⟨hcov, hn⟩
  exact ⟨⟨row, hcov', held_operator (φ := fun x => (row.episode, id) ∈ x.bindings) hr hx hb⟩, hn'⟩

/-! ## Blocks -/

section
variable {calls : Conf (World Campaign) (Label Deed) String BrokerError Unit → String →
    Program Campaign Deed Unit → Prop} {K L : Seen → Prop} {β : Type}

theorem local_asked (hK : Kept t K) (hL : Held (surroundings P) t L) :
    Local calls (surroundings P) t o K L (asked β) fun _ v => L v :=
  .choose fun _ => .ofExcept hK hL fun _ _ hl => hl

theorem local_mayFail (hK : Kept t K) (hL : Held (surroundings P) t L) :
    Local calls (surroundings P) t o K L mayFail fun _ v => L v := by
  refine .choose fun b => ?_
  cases b with
  | true => exact .fail hK hL fun _ _ hl => hl
  | false => exact .done hK hL fun _ _ hl => hl

/-- One deed, after something that may fail. -/
theorem local_deed {before : Program Campaign Deed Unit} {f : ℕ → World Campaign →
      Option (Except BrokerError β × World Campaign)} {A : Except BrokerError β → Seen → Prop}
    (hbefore : Local calls (surroundings P) t o K L before fun _ v => L v)
    (hK : Kept t K) (hL : Held (surroundings P) t L) (hA : ∀ r, Held (surroundings P) t (A r))
    (hfail : ∀ e v, L v → A (.error e) v)
    (h : ∀ v, K v → L v → Traced P (ext P) campaignInit v →
      Past P v.hist v.world.journal v.world.rest → ∀ r w, f t v.world = some (r, w) →
      ∃ c, w = { v.world with rest := c } ∧ Does P t v d c ∧ A r (v.log t o (.ext d) w)) :
    Local calls (surroundings P) t o K L (before.bind fun _ =>
      (Proc.perform (.ext d) f).bind fun r => .ofExcept r) A := by
  refine hbefore.bind (fun _ => ?_) fun e v _ hl => hfail e v hl
  refine .act (A := A) hK hL rfl (fun v hk hl ht hp r w hf => ?_) fun r =>
    .ofExcept hK (hA r) fun v _ ha => ha
  obtain ⟨c, rfl, hd, ha⟩ := h v hk hl ht hp r w hf
  exact ⟨.ext hd, ha⟩

theorem local_inWorkspace {f : ℕ → Campaign → Except BrokerError β × Campaign}
    {A : Except BrokerError β → Seen → Prop} (hK : Kept t K) (hL : Held (surroundings P) t L)
    (hA : ∀ r, Held (surroundings P) t (A r)) (hfail : ∀ e v, L v → A (.error e) v)
    (h : ∀ v, K v → L v → Past P v.hist v.world.journal v.world.rest →
      Does P t v d (f t v.world.rest).2 ∧
        A (f t v.world.rest).1 (v.log t o (.ext d) { v.world with rest := (f t v.world.rest).2 })) :
    Local calls (surroundings P) t o K L (inWorkspace d f) A := by
  refine local_deed (local_asked hK hL) hK hL hA hfail fun v hk hl _ hp r w hf => ?_
  cases hf
  exact ⟨_, rfl, h v hk hl hp⟩

theorem local_ledger {f : Operator → Registry → Except BrokerError (β × Registry)}
    {A : Except BrokerError β → Seen → Prop} (hK : Kept t K) (hL : Held (surroundings P) t L)
    (hA : ∀ r, Held (surroundings P) t (A r)) (hfail : ∀ e v, L v → A (.error e) v)
    (h : ∀ v, K v → L v → Past P v.hist v.world.journal v.world.rest →
      ∀ x c, x = f (v.world.rest.operators t) v.world.rest.registry →
      c = { v.world.rest with registry := v.world.rest.registry.commit x } →
      Does P t v d c ∧ A (x.map Prod.fst) (v.log t o (.ext d) { v.world with rest := c })) :
    Local calls (surroundings P) t o K L (ledger d f) A := by
  refine local_deed (local_mayFail hK hL) hK hL hA hfail fun v hk hl _ hp r w hf => ?_
  cases hf
  exact ⟨_, rfl, h v hk hl hp _ _ rfl rfl⟩

/-- A record of a refusal needs nothing, and what is known of the journal stays. -/
theorem local_recordRefusal {action : String} {details : Json} (hK : Kept t K) :
    Local calls (surroundings P) t o K (fun _ => True) (recordRefusal action details)
      fun _ _ => True := by
  refine local_ledger hK (.const _) (fun _ => .const _) (fun _ _ _ => trivial) ?_
  rintro v - - - x c rfl rfl
  exact ⟨.recordRefusal, trivial⟩

/-! ## The authorizer -/

theorem local_registryAuthorize {binding : Json} (hK : Kept t K)
    (h : ∀ v, K v → Requested p.operationId.1 p v.world.journal ∧
      v.world.journal.binding p.operationId.1 = binding) :
    Local calls (surroundings P) t o K (fun _ => True) (registryAuthorize P p binding patch)
      fun _ _ => True := by
  refine .bind (F := fun _ _ => True) (.mono (.attempt (F := fun _ _ => True) ?_) (fun _ _ h => h)
    fun _ _ _ _ => trivial) (fun result => ?_) fun _ _ _ _ => trivial
  · refine .bind (F := fun r _ => r = executionConditions P p binding patch)
      (.ofExcept hK (.const _) fun _ _ _ => rfl) (fun conditions => ?_) fun _ _ _ _ => trivial
    refine .choose fun calibrated => .choose fun faithful => ?_
    rw [Proc.done_bind]
    refine local_ledger hK (.const _) (fun _ => .const _) (fun _ _ _ => trivial) ?_
    rintro v hk hc - x c rfl rfl
    obtain ⟨hreq, hb⟩ := h v hk
    exact ⟨.authorize hreq hb hc.symm, trivial⟩
  · cases result with
    | ok row => exact .done hK (.const _) fun _ _ _ => trivial
    | error e =>
        exact .bind (local_recordRefusal hK) (fun _ => .fail hK (.const _) fun _ _ _ => trivial)
          fun _ _ _ _ => trivial

/-- **The authorizer**: whoever calls it has the request and the binding in hand. -/
theorem local_authorize {binding : Json} (hK : Kept t K)
    (h : ∀ v, K v → Requested p.operationId.1 p v.world.journal ∧
      v.world.journal.binding p.operationId.1 = binding) :
    Local calls (surroundings P) t o K (fun _ => True) (authorize P p binding patch)
      fun _ _ => True := by
  have hfail : ∀ {γ : Type} {e : BrokerError}, Local calls (surroundings P) t o K (fun _ => True)
      (.fail e : Program Campaign Deed γ) fun _ _ => True :=
    .fail hK (.const _) fun _ _ _ => trivial
  refine .bind (F := fun _ _ => True) (.mono (local_asked hK (.const True)).attempt
    (fun _ _ h => h) fun _ _ _ _ => trivial) (fun result => ?_) fun _ _ _ _ => trivial
  cases result with
  | error e => exact .bind (local_recordRefusal hK) (fun _ => hfail) fun _ _ _ _ => trivial
  | ok _ =>
      refine .bind (F := fun _ _ => True) (.mono (local_registryAuthorize hK h).attempt
        (fun _ _ h => h) fun _ _ _ _ => trivial) (fun result => ?_) fun _ _ _ _ => trivial
      match result with
      | .ok _ => exact .done hK (.const _) fun _ _ _ => trivial
      | .error e => cases e <;> exact hfail

/-! ## The adapter -/

/-- The operation an adapter finds dispatching has the request that is read from its row. -/
theorem local_attributed (hK : Kept t K) :
    Local calls (surroundings P) t o K (fun _ => True) (attributed o)
      fun r v => ∀ id p, r = .ok (id, p) → Requested id p v.world.journal := by
  have hquiet : ∀ {e : BrokerError} {L : Seen → Prop}, Held (surroundings P) t L →
      Local calls (surroundings P) t o K L (.fail e)
        fun r v => ∀ id p, r = .ok (id, p) → Requested id p v.world.journal :=
    fun hL => .fail hK hL fun _ _ _ _ _ h => by cases h
  refine .bind (local_asked hK (.const True)) (fun _ => ?_) fun _ _ _ _ _ _ h => by cases h
  refine .act (A := fun rows v => ∀ id row p, (id, row) ∈ rows →
    Proposal.modelValidate row.request = some p → Requested id p v.world.journal) hK (.const _) rfl
    (fun v _ _ ht _ rows w hf => ?_) fun rows => ?_
  · cases hf
    refine ⟨.ext (r := v.world.rest) (.look rfl), fun id row p hmem hp => ?_⟩
    have hrow : v.world.journal.operations.find? id = some row :=
      Table.find?_eq_some.2 (List.mem_filter.1 hmem).1
    exact ⟨(ht.sane id row p hrow hp).1, row, hrow, hp⟩
  · have hL : Held (surroundings P) t fun v => ∀ id row p, (id, row) ∈ rows →
        Proposal.modelValidate row.request = some p → Requested id p v.world.journal :=
      fun v v' hr hx h id row p hmem hp => held_requested hr hx (h id row p hmem hp)
    simp only [Proc.bind]
    split
    · rename_i id row
      split
      · rename_i p hp
        refine .done hK hL fun v _ h id' p' heq => ?_
        cases heq
        exact h id row p List.mem_cons_self hp
      · exact hquiet hL
    · exact hquiet hL

/-- The binding of an operation is read, and stays what it is if it is settled. -/
theorem local_contractBinding (hK : Kept t K) (hL : Held (surroundings P) t L)
    (hlog : ∀ v l, L v → L (v.log t o l v.world)) :
    Local calls (surroundings P) t o K L
      (query o (.contractBinding id) fun _ j => .ok (j.binding id)) fun r v =>
        L v ∧ ∀ b, r = .ok b → Settled b → v.world.journal.binding id = b := by
  have hA : ∀ r : Except BrokerError Json, Held (surroundings P) t fun v =>
      L v ∧ ∀ b, r = .ok b → Settled b → v.world.journal.binding id = b := fun r =>
    hL.and fun v v' hr _ h b hb hs => kept_binding hs hr (h b hb hs)
  refine .bind (local_mayFail hK hL) (fun _ => ?_) fun e v _ hl => ⟨hl, fun _ hb => by cases hb⟩
  refine .act (A := fun r v => L v ∧ ∀ b, r = .ok b → Settled b → v.world.journal.binding id = b)
    hK hL rfl (fun v _ hl _ _ r w hf => ?_) fun r => .ofExcept hK (hA r) fun _ _ h => h
  obtain ⟨policy, -, h⟩ := Option.map_eq_some_iff.1 hf
  cases h
  exact ⟨.read rfl, hlog v _ hl, fun b hb _ => Except.ok.inj hb⟩

/-- The authorization that is found for an operation, under the episode of the process,
covers its patch; and while there is no file of it, nothing has been sent. -/
theorem covered_of_authorization (hreq : Requested p.operationId.1 p v.world.journal)
    {conditions : Conditions} (hset : Settled (v.world.journal.binding p.operationId.1))
    (hc : executionConditions P p (v.world.journal.binding p.operationId.1) patch = .ok conditions)
    (hpast : Past P v.hist v.world.journal v.world.rest)
    (hfound : v.world.rest.registry.authorization P (v.world.rest.operators t).pin p conditions =
      .ok row)
    (hn : ∀ episode, (v.world.rest.operators t).episode = some episode →
      (episode, p.operationId.1) ∉ (v.world.rest.operators t).bindings) :
    Covered P t p.operationId.1 patch row v ∧
      (v.world.rest.operators t).episode = some row.episode ∧
      transports p.operationId.1 v.hist = [] := by
  obtain ⟨hcond, hrow, hd, pin, hpin, hep⟩ := authorization_eq_ok hfound
  obtain ⟨-, rfl⟩ := executionConditions_eq_ok hc
  have hown := hpast.own_authorization hrow hpin hep
  have hepisode : (v.world.rest.operators t).episode = some row.episode := by
    rw [hep]
    exact (hpast.started hpin).1
  exact ⟨⟨hrow, hown, ⟨p, hreq, hd⟩, hset, hcond⟩, hepisode,
    hpast.unsent hrow hown (hn _ hepisode)⟩

/-- Thread `t` has no file of the operation in its present episode. -/
def Unbound (t : ℕ) (p : Proposal) (v : Seen) : Prop :=
  Requested p.operationId.1 p v.world.journal ∧ ∀ episode,
    (v.world.rest.operators t).episode = some episode →
      (episode, p.operationId.1) ∉ (v.world.rest.operators t).bindings

theorem held_unbound : Held (surroundings P) t (Unbound t p) :=
  held_requested.and (held_operator (φ := fun x => ∀ episode, x.episode = some episode →
    (episode, p.operationId.1) ∉ x.bindings))

/-- Thread `t` has found an authorization that covers the patch, in its present episode. -/
def Found (P : Platform) (t : ℕ) (p : Proposal) (patch : List Op) (row : Authorization)
    (v : Seen) : Prop :=
  (Covered P t p.operationId.1 patch row v ∧ transports p.operationId.1 v.hist = []) ∧
    (v.world.rest.operators t).episode = some row.episode

theorem held_found : Held (surroundings P) t (Found P t p patch row) :=
  held_covered.and (held_operator (φ := fun x => x.episode = some row.episode))

/-- A deed in the workspace leaves what is covered. -/
theorem Covered.log (h : Covered P t id patch row v) (hj : w.journal = v.world.journal)
    (hr : w.rest.registry = v.world.rest.registry) : Covered P t id patch row (v.log t o l w) := by
  obtain ⟨a, ha, hat⟩ := h.own
  obtain ⟨p, hreq, hd⟩ := h.request
  refine ⟨?_, ⟨a, authorizations_mono (List.suffix_cons _ _) ha, hat⟩, ⟨p, ?_, hd⟩, ?_, ?_⟩
  · rw [View.log_world, Campaign.authorizations, hr]
    exact h.found
  · rw [View.log_world, hj]
    exact hreq
  · rw [View.log_world, hj]
    exact h.settled
  · rw [View.log_world, hj, hr]
    exact h.conditions

theorem local_authorization (hK : Kept t K) :
    Local calls (surroundings P) t o K (Unbound t p) (authorization P o p patch)
      fun r v => ∀ row, r = .ok row → Found P t p patch row v := by
  refine .bind (local_contractBinding hK held_unbound fun _ _ h => h) (fun binding => ?_)
    fun _ _ _ _ _ h => by cases h
  have hL : Held (surroundings P) t fun v => Unbound t p v ∧ ∀ b,
      (.ok binding : Except BrokerError Json) = .ok b → Settled b →
        v.world.journal.binding p.operationId.1 = b :=
    held_unbound.and fun v v' hr _ h b hb hs => kept_binding hs hr (h b hb hs)
  refine .bind (F := fun r v => (Unbound t p v ∧ ∀ b,
      (.ok binding : Except BrokerError Json) = .ok b → Settled b →
        v.world.journal.binding p.operationId.1 = b) ∧ r = executionConditions P p binding patch)
    (.ofExcept hK hL fun _ _ h => ⟨h, rfl⟩) (fun conditions => ?_) fun _ _ _ _ _ h => by cases h
  refine local_ledger hK (hL.and (.const _)) (fun r v v' hr hx h row hrow =>
    held_found hr hx (h row hrow)) (fun _ _ _ _ h => by cases h) ?_
  rintro v - ⟨⟨⟨hreq, hn⟩, hb⟩, hc⟩ hpast x c rfl rfl
  -- only the legacy contract has conditions, and its binding never changes
  have hset := settled_of_legacy (executionConditions_eq_ok hc.symm).1
  have hbinding : v.world.journal.binding p.operationId.1 = binding := hb binding rfl hset
  cases hfound : v.world.rest.registry.authorization P (v.world.rest.operators t).pin p
      conditions with
  | error e => exact ⟨.look rfl, fun _ h => nomatch h⟩
  | ok row =>
      refine ⟨.look rfl, fun row' hrow' => ?_⟩
      obtain rfl : row = row' := Except.ok.inj hrow'
      obtain ⟨hcov, hep, hun⟩ := covered_of_authorization hreq (by rw [hbinding]; exact hset)
        (by rw [hbinding]; exact hc.symm) hpast hfound hn
      exact ⟨⟨hcov.log rfl rfl, (transports_cons_of_ne (by simp [sentFor])).trans hun⟩, hep⟩

/-- **The adapter clears a patch.**  The operation has no file yet, its authorization is
found under the episode of the process, and the file is written. -/
theorem local_clear (hK : Kept t K) :
    Local calls (surroundings P) t o K (fun v => Requested id p v.world.journal)
      (clear P o id p patch) fun r v => r = .ok () → Cleared P t id patch v := by
  refine .of_fact (fun v _ h => h.1) ?_
  rintro rfl
  refine .bind (local_asked hK held_requested) (fun _ => ?_) fun _ _ _ _ h => by cases h
  refine .bind (F := fun r v => r = .ok false → Unbound t p v) ?_ (fun bound => ?_)
    fun _ _ _ _ h => by cases h
  · refine local_inWorkspace hK held_requested (fun r v v' hr hx h hf => held_unbound hr hx (h hf))
      (fun _ _ _ h => by cases h) fun v _ hreq _ => ?_
    cases hep : (v.world.rest.operators t).episode with
    | none => exact ⟨.look rfl, fun h => by cases h⟩
    | some episode =>
        refine ⟨.look rfl, fun hf => ⟨hreq, fun episode' hep' => ?_⟩⟩
        obtain rfl : episode = episode' := Option.some.inj (hep.symm.trans hep')
        exact of_decide_eq_false (Except.ok.inj hf)
  cases bound with
  | true => exact .fail hK (fun v v' hr hx h hf => held_unbound hr hx (h hf)) fun _ _ _ h => by cases h
  | false =>
      rw [if_neg Bool.false_ne_true]
      refine .bind (.mono (local_authorization hK) (fun v _ h => h rfl) fun _ _ _ h => h)
        (fun row => ?_) fun _ _ _ _ h => by cases h
      refine local_inWorkspace hK (fun v v' hr hx h row hrow => held_found hr hx (h row hrow))
        (fun r v v' hr hx h hok => held_cleared hr hx (h hok)) (fun _ _ _ h => by cases h)
        fun v _ hfound _ => ?_
      obtain ⟨⟨hcov, hun⟩, hep⟩ := hfound row rfl
      refine ⟨.saveBinding, fun _ => ⟨⟨row, hcov.log rfl ?_, ?_⟩,
        (transports_cons_of_ne (by simp [sentFor])).trans hun⟩⟩
      · simp [Campaign.saveBinding, hep, Campaign.setOperator]
      · simp [Campaign.saveBinding, hep]

/-- A refusal of the adapter. -/
theorem local_notSent {record : Program Campaign Deed Unit} (hK : Kept t K)
    (h : Local calls (surroundings P) t o K (fun _ => True) record fun _ _ => True) :
    Local calls (surroundings P) t o K (fun _ => True) (notSent record : Program Campaign Deed β)
      fun _ _ => True := by
  refine .bind (F := fun _ _ => True) (.mono h.attempt (fun _ _ h => h) fun _ _ _ _ => trivial)
    (fun result => ?_) fun _ _ _ _ => trivial
  cases result <;> exact .fail hK (.const _) fun _ _ _ => trivial

/-- **The adapter**: a patch is sent only when it has been cleared. -/
theorem local_patchService {ns name : String} (hK : Kept t K) :
    Local calls (surroundings P) t o K (fun _ => True) (patchService P o ns name patch)
      fun _ _ => True := by
  refine .bind (.attempt (local_attributed hK)) (fun result => ?_) fun _ _ _ _ => trivial
  match result with
  | .error e =>
      exact .mono (local_notSent hK (local_recordRefusal hK)) (fun _ _ _ => trivial)
        fun _ _ _ _ => trivial
  | .ok (id, p) =>
      refine .bind (.mono (.attempt (local_clear hK)) ?_ fun _ _ _ h => h) (fun cleared => ?_)
        fun _ _ _ _ => trivial
      · rintro v - ⟨r, hr, h⟩
        exact h id p (Except.ok.inj hr).symm
      · cases cleared with
        | error e =>
            exact .mono (local_notSent hK (local_recordRefusal hK)) (fun _ _ _ => trivial)
              fun _ _ _ _ => trivial
        | ok _ =>
            have hL : Held (surroundings P) t fun v => ∃ r', (.ok (.ok ()) :
                Except BrokerError (Except BrokerError Unit)) = .ok r' ∧
                  (r' = .ok () → Cleared P t id patch v) := by
              rintro v v' hr hx ⟨r', heq, h⟩
              exact ⟨r', heq, fun hok => held_cleared hr hx (h hok)⟩
            refine .act (A := fun _ _ => True) hK hL rfl (fun v _ h _ _ _ w hf => ?_) fun _ =>
              .mono (local_asked hK (.const True)) (fun _ _ h => h) fun _ _ _ h => h
            obtain ⟨r', heq, h⟩ := h
            cases hf
            exact ⟨.ext (r := v.world.rest) (.transport (h (Except.ok.inj heq).symm)), trivial⟩

/-! ## Processes -/

/-- **The broker of a campaign is given what it may be given.** -/
theorem behaves_broker (t : ℕ) (o : String) : Behaves calls (surroundings P) t (broker P o) where
  getService hK := .of_local (local_asked hK (.const True)) fun _ _ => trivial
  hook hK := .of_local (local_asked hK (.const True)) fun _ _ => trivial
  patchService hK _ := .of_local (local_patchService hK) fun _ _ => trivial
  authorize := by
    intro authorize id p binding patch K ha hK h
    obtain rfl : Admission.authorize P = authorize := Option.some.inj ha
    refine .of_local (local_authorize hK fun v hk => ?_) fun _ _ _ => trivial
    obtain ⟨-, hb, hc⟩ := h v hk
    obtain rfl := hc.requested.1
    exact ⟨hc.requested, hb⟩
  unauthorized _ _ _ _ _ := trivial

end

section
variable {calls : Conf (World Campaign) (Label Deed) String BrokerError Unit → String →
    Program Campaign Deed Unit → Prop} {β : Type}

/-- A program that starts from nothing. -/
abbrev Free (calls : Conf (World Campaign) (Label Deed) String BrokerError Unit → String →
    Program Campaign Deed Unit → Prop) (P : Platform) (t : ℕ) (o : String)
    (prog : Program Campaign Deed β) : Prop :=
  Local calls (surroundings P) t o (fun _ => True) (fun _ => True) prog fun _ _ => True

theorem Free.bind {γ : Type} {prog : Program Campaign Deed β} {q : β → Program Campaign Deed γ}
    (h : Free calls P t o prog) (hq : ∀ a, Free calls P t o (q a)) :
    Free calls P t o (prog.bind q) :=
  Local.bind h hq fun _ _ _ _ => trivial

theorem Free.attempt {prog : Program Campaign Deed β} (h : Free calls P t o prog) :
    Free calls P t o prog.attempt :=
  Local.mono (Local.attempt h) (fun _ _ h => h) fun _ _ _ _ => trivial

theorem Free.fail {e : BrokerError} : Free calls P t o (.fail e : Program Campaign Deed β) :=
  Local.fail (.const _) (.const _) fun _ _ _ => trivial

theorem Free.ofExcept {r : Except BrokerError β} :
    Free calls P t o (.ofExcept r : Program Campaign Deed β) :=
  Local.ofExcept (.const _) (.const _) fun _ _ _ => trivial

theorem free_ledger {f : Operator → Registry → Except BrokerError (β × Registry)}
    (h : ∀ v : Seen, Does P t v d { v.world.rest with
      registry := v.world.rest.registry.commit
        (f (v.world.rest.operators t) v.world.rest.registry) }) :
    Free calls P t o (ledger d f) := by
  refine local_ledger (.const _) (.const _) (fun _ => .const _) (fun _ _ _ => trivial) ?_
  rintro v - - - x c rfl rfl
  exact ⟨h v, trivial⟩

theorem free_inWorkspace {f : ℕ → Campaign → Except BrokerError β × Campaign}
    (h : ∀ v : Seen, Does P t v d (f t v.world.rest).2) : Free calls P t o (inWorkspace d f) :=
  local_inWorkspace (.const _) (.const _) (fun _ => .const _) (fun _ _ _ => trivial)
    fun v _ _ _ => ⟨h v, trivial⟩

theorem free_asked : Free calls P t o (asked β) := local_asked (.const _) (.const _)

theorem free_newEpisode {programVersion : Json} :
    Free calls P t o (newEpisode programVersion) := by
  refine .choose fun name => ?_
  rw [Proc.done_bind]
  refine Free.bind (free_inWorkspace fun v => .makeEpisode) fun _ => .choose fun files =>
    .choose fun calibrated => ?_
  rw [Proc.done_bind]
  refine Free.bind (Free.attempt (free_inWorkspace fun v => .startEpisode)) fun result => ?_
  match result with
  | .ok pin => exact Free.ofExcept
  | .error e => cases e <;>
      first | exact Free.fail | exact Free.bind (local_recordRefusal (.const _)) fun _ => Free.fail

end

/-- A call of the broker leaves nothing to be said. -/
theorem free_run {call : Call} :
    Free (campaignCalls P) P t o (call.run P (broker P o)).attempt := by
  intro Q v _ _ hQ
  refine Logic.wp_attempt (wp_run (behaves_broker t o) rfl fun r v' _ => ?_)
  exact hQ _ _ trivial trivial

theorem free_moves {programVersion : Json} (n : ℕ) :
    Free (campaignCalls P) P t o (moves P o programVersion n) := by
  induction n with
  | zero => exact Free.ofExcept (r := .ok ())
  | succ n ih =>
      refine Free.bind ?_ fun _ => ih
      refine .choose fun choice => ?_
      rw [Proc.done_bind]
      cases choice with
      | none => exact free_newEpisode
      | some call => exact Free.bind free_run fun _ => Free.ofExcept (r := .ok ())

theorem free_promote {expected : Json} : Free (campaignCalls P) P t o (promote expected) := by
  refine Free.bind (Free.attempt (Free.bind free_asked fun receipt => free_ledger fun v => .promote))
    fun result => ?_
  cases result with
  | ok _ => exact Free.ofExcept (r := .ok ())
  | error e => exact Free.bind (local_recordRefusal (.const _)) fun _ => Free.fail

theorem free_withdraw {expected : Json} : Free (campaignCalls P) P t o (withdraw expected) := by
  refine Free.bind (Free.attempt (free_ledger fun v => .withdraw)) fun result => ?_
  match result with
  | .ok _ => exact Free.ofExcept (r := .ok ())
  | .error e => cases e <;>
      first | exact Free.fail | exact Free.bind (local_recordRefusal (.const _)) fun _ => Free.fail

/-- **Every process of a campaign follows the protocol.** -/
theorem sound_campaign : Sound (campaignLogic P) fun _ _ _ _ => True := by
  rintro c o prog - - hcall
  have hfree : Free (campaignCalls P) P c.next o prog := by
    rcases hcall with ⟨-, programVersion, rfl⟩ | ⟨expected, rfl⟩ | ⟨expected, rfl⟩
    · exact .choose fun n => free_moves n
    · exact free_promote
    · exact free_withdraw
  exact hfree _ _ trivial trivial fun _ _ _ _ => trivial

/-- Every reachable view is the end of a history. -/
theorem past_of_reachable {c : Campaigns} (h : Reachable (campaign P) c) :
    Past P c.view.hist c.view.world.journal c.view.world.rest :=
  (sound (sound_campaign (P := P)) h).inv.2

end AutonomyLab.Admission
