import AutonomyLab.Broker.Rely

/-!
# Specifications of the broker's blocks

A block that claims, sends and records nothing keeps everything a thread knows, so its
specification is what it adds to that.

* `Kept`, `Spec` — what a thread knows in spite of the others, and a program that keeps
  it and establishes more.
* `Spec.bind`, `Spec.attempt`, `Spec.perform`, … — specifications are composed along
  the program.
* `spec_transaction`, `spec_query` — the blocks under one connection.
* `Behaves` — what is asked of the code a broker is given.
-/

namespace AutonomyLab.Broker

open Json Contract Process

variable {ρ Λ α β γ : Type} {P : Platform} {E : Ext ρ Λ} {init : World ρ → Prop}

/-- A fact the others cannot take away from thread `t`. -/
def Kept (t : ℕ) (K : Seen ρ Λ → Prop) : Prop := ∀ ⦃v v'⦄, Rely t v v' → K v → K v'

section
variable {t : ℕ} {K K' : Seen ρ Λ → Prop}

theorem Kept.and (h : Kept t K) (h' : Kept t K') : Kept t fun v => K v ∧ K' v :=
  fun _ _ hr hk => ⟨h hr hk.1, h' hr hk.2⟩

theorem Kept.const (p : Prop) : Kept t fun _ : Seen ρ Λ => p := fun _ _ _ hp => hp

theorem kept_requested (id : String) (p : Proposal) :
    Kept t fun v : Seen ρ Λ => Requested id p v.world.journal :=
  fun _ _ hr h => hr.requested h

theorem kept_dispatchedBy (R : List (Did ρ Λ)) : Kept t fun v : Seen ρ Λ => dispatchedBy t v.hist = R :=
  fun _ _ hr h => hr.dispatched.trans h

/-- A settled binding is settled for good. -/
theorem kept_binding {id : String} {binding : Json} (hs : Settled binding) :
    Kept t fun v : Seen ρ Λ => v.world.journal.binding id = binding := by
  intro v v' hr h
  rw [hr.settled (h ▸ hs), h]

end

section
variable (calls : Conf (World ρ) (Label Λ) String BrokerError α → String → Program ρ Λ α → Prop)
  (X : Surroundings (α := α) P E init) (t : ℕ) (o : String)

/-- The program can be run by thread `t` of instance `o` wherever `K` holds, keeps `K`
and every other such fact, and ends in `F`. -/
def Spec (K : Seen ρ Λ → Prop) (p : Program ρ Λ β)
    (F : Except BrokerError β → Seen ρ Λ → Prop) : Prop :=
  ∀ Q v, K v → (∀ r v', K v' → F r v' → Q r v') → (logic calls X).wp t o p Q v

end

section
variable {calls : Conf (World ρ) (Label Λ) String BrokerError α → String → Program ρ Λ α → Prop}
  {X : Surroundings (α := α) P E init} {t : ℕ} {o : String} {K : Seen ρ Λ → Prop}
  {F : Except BrokerError β → Seen ρ Λ → Prop}

theorem Spec.mono {p : Program ρ Λ β} {G : Except BrokerError β → Seen ρ Λ → Prop}
    (h : Spec calls X t o K p F) (hFG : ∀ r v, K v → F r v → G r v) : Spec calls X t o K p G :=
  fun Q v hv hQ => h Q v hv fun r v' hk hf => hQ r v' hk (hFG r v' hk hf)

/-- Use what is known at the start. -/
theorem Spec.of_fact {p : Program ρ Λ β} {φ : Prop} (hφ : ∀ v, K v → φ)
    (h : φ → Spec calls X t o K p F) : Spec calls X t o K p F :=
  fun Q v hv hQ => h (hφ v hv) Q v hv hQ

theorem Spec.done {a : β} (hK : Kept t K) (h : ∀ v, K v → F (.ok a) v) :
    Spec calls X t o K (.done a) F := by
  intro Q v hv hQ v' hr _
  have hk := hK hr.1 hv
  exact hQ _ _ hk (h _ hk)

theorem Spec.fail {e : BrokerError} (hK : Kept t K) (h : ∀ v, K v → F (.error e) v) :
    Spec calls X t o K (.fail e) F := by
  intro Q v hv hQ v' hr _
  have hk := hK hr.1 hv
  exact hQ _ _ hk (h _ hk)

theorem Spec.ofExcept {r : Except BrokerError β} (hK : Kept t K) (h : ∀ v, K v → F r v) :
    Spec calls X t o K (.ofExcept r) F := by
  cases r with
  | ok a => exact .done hK h
  | error e => exact .fail hK h

theorem Spec.bind {p : Program ρ Λ β} {q : β → Program ρ Λ γ}
    {G : Except BrokerError γ → Seen ρ Λ → Prop} (hp : Spec calls X t o K p F)
    (hq : ∀ a, Spec calls X t o (fun v => K v ∧ F (.ok a) v) (q a) G)
    (he : ∀ e v, K v → F (.error e) v → G (.error e) v) : Spec calls X t o K (p.bind q) G := by
  intro Q v hv hQ
  refine Logic.wp_bind (hp _ v hv fun r v' hk hf => ?_)
  cases r with
  | ok a => exact hq a Q v' ⟨hk, hf⟩ fun r v'' hk' hg => hQ r v'' hk'.1 hg
  | error e => exact hQ _ _ hk (he e v' hk hf)

theorem Spec.attempt {p : Program ρ Λ β} (h : Spec calls X t o K p F) :
    Spec calls X t o K p.attempt fun r v => ∃ r', r = .ok r' ∧ F r' v := by
  intro Q v hv hQ
  exact Logic.wp_attempt (h _ v hv fun r v' hk hf => hQ _ _ hk ⟨r, rfl, hf⟩)

theorem Spec.choose {q : γ → Program ρ Λ β} (h : ∀ b, Spec calls X t o K (q b) F) :
    Spec calls X t o K (.choose q) F :=
  fun Q v hv hQ b => h b Q v hv hQ

/-- One gentle act, and what comes after it. -/
theorem Spec.act {l : Label Λ} {f : ℕ → World ρ → Option (γ × World ρ)} {k : γ → Program ρ Λ β}
    {A : γ → Seen ρ Λ → Prop} (hK : Kept t K) (hl : l.isGentle = true)
    (h : ∀ v, K v → Traced P E init v → ∀ b w, f t v.world = some (b, w) →
      Act P E t o v l w ∧ A b (v.log t o l w))
    (hk : ∀ b, Spec calls X t o (fun v => K v ∧ A b v) (k b) F) :
    Spec calls X t o K (.act l f k) F := by
  rintro Q v hv hQ v' hr ⟨⟨w₀, hi, hs, ht⟩, -⟩ b w hf
  obtain ⟨ha, hb⟩ := h v' (hK hr.1 hv) ⟨w₀, hi, hs, ht⟩ b w hf
  have hk' := hK (ha.rely ht (.inr hl)) (hK hr.1 hv)
  exact ⟨⟨l, w, rfl, ha⟩, hk b Q _ ⟨hk', hb⟩ fun r v'' hv'' => hQ r v'' hv''.1⟩

/-- Go on after a part that has a specification. -/
theorem Spec.wp_bind {p : Program ρ Λ β} {q : β → Program ρ Λ γ}
    {Q : Except BrokerError γ → Seen ρ Λ → Prop} {v : Seen ρ Λ} (h : Spec calls X t o K p F)
    (hv : K v) (hok : ∀ a v', K v' → F (.ok a) v' → (logic calls X).wp t o (q a) Q v')
    (herr : ∀ e v', K v' → F (.error e) v' → Q (.error e) v') :
    (logic calls X).wp t o (p.bind q) Q v := by
  refine Logic.wp_bind (h _ v hv fun r v' hk hf => ?_)
  cases r with
  | ok a => exact hok a v' hk hf
  | error e => exact herr e v' hk hf

/-! ## Blocks -/

theorem spec_mayFail (hK : Kept t K) :
    Spec calls X t o K (mayFail : Program ρ Λ Unit)
      fun r _ => ∀ e, r = .error e → e = operationalError := by
  refine .choose fun b => ?_
  cases b with
  | true => exact .fail hK fun _ _ e he => (Except.error.inj he).symm
  | false => exact .done hK fun _ _ e he => nomatch he

theorem spec_ofPy {r : Except PyError β} (hK : Kept t K) :
    Spec calls X t o K (ofPy r : Program ρ Λ β) fun r' _ => ∀ a, r' = .ok a → r = .ok a := by
  refine .ofExcept hK fun _ _ a he => ?_
  cases r with
  | error e => cases he
  | ok a' => exact congrArg _ (Except.ok.inj he)

/-- A look at the policy. -/
theorem spec_readPolicy {l : Label Λ} {f : BrokerPolicy → β} (hK : Kept t K)
    (hl : l.isRead = true) :
    Spec calls X t o K (readPolicy o l f) fun r _ => ∃ policy, r = .ok (f policy) := by
  refine .act (A := fun b _ => ∃ policy, b = f policy) hK
    (by cases l <;> first | rfl | cases hl) (fun v _ _ b w hf => ?_) fun b => ?_
  · obtain ⟨policy, -, h⟩ := Option.map_eq_some_iff.1 hf
    cases h
    exact ⟨.read hl, policy, rfl⟩
  · refine .done (hK.and (.const _)) fun v hv => ?_
    obtain ⟨-, policy, rfl⟩ := hv
    exact ⟨policy, rfl⟩

/-- A block that reads. -/
theorem spec_query {l : Label Λ} {f : BrokerPolicy → Journal → Except BrokerError β}
    (hK : Kept t K) (hl : l.isRead = true) (hF : ∀ r, Kept t (F r))
    (hfail : ∀ v, F (.error operationalError) v)
    (h : ∀ v policy, K v → Traced P E init v → F (f policy v.world.journal) v) :
    Spec calls X t o K (query o l f) F := by
  have hg : l.isGentle = true := by cases l <;> first | rfl | cases hl
  refine .bind (spec_mayFail hK) (fun _ => ?_) fun e v _ he => he e rfl ▸ hfail v
  refine .act (A := F) (hK.and (.const _)) hg (fun v hv ht r w hf => ?_) fun r =>
    .ofExcept ((hK.and (.const _)).and (hF r)) fun v hv => hv.2
  obtain ⟨policy, -, h'⟩ := Option.map_eq_some_iff.1 hf
  cases h'
  have ha : Act P E t o v l v.world := .read hl
  obtain ⟨w₀, -, -, htr⟩ := id ht
  exact ⟨ha, hF _ (ha.rely htr (.inr hg)) (h v policy hv.1 ht)⟩

/-- A block that writes. -/
theorem spec_transaction {l : Label Λ} {f : BrokerPolicy → Journal → Except BrokerError (β × Journal)}
    (hK : Kept t K) (hl : l.isGentle = true) (hF : ∀ r, Kept t (F r))
    (hfail : ∀ v, F (.error operationalError) v)
    (h : ∀ v policy, K v → Traced P E init v → v.world.writer = none →
      v.world.policies o = some policy → ∀ w,
      w = { v.world with journal := v.world.journal.commit (f policy v.world.journal) } →
      Act P E t o v l w ∧ F ((f policy v.world.journal).map Prod.fst) (v.log t o l w)) :
    Spec calls X t o K (transaction o l f) F := by
  refine .bind (spec_mayFail hK) (fun _ => ?_) fun e v _ he => he e rfl ▸ hfail v
  refine .act (A := F) (hK.and (.const _)) hl (fun v hv ht r w hf => ?_) fun r =>
    .ofExcept ((hK.and (.const _)).and (hF r)) fun v hv => hv.2
  split at hf
  · rename_i hw
    obtain ⟨policy, hp, h'⟩ := Option.map_eq_some_iff.1 hf
    have hact := h v policy hv.1 ht hw hp _ rfl
    cases hr : f policy v.world.journal with
    | ok x =>
        rw [hr] at h' hact
        cases h'
        exact hact
    | error e =>
        rw [hr] at h' hact
        cases h'
        exact hact
  · cases hf

end

/-! ## The rest of the world -/

section
variable (calls : Conf (World ρ) (Label Λ) String BrokerError α → String → Program ρ Λ α → Prop)
  (X : Surroundings (α := α) P E init) (t : ℕ) (o : String)

/-- A fact that nothing the others do takes away from thread `t`, in the rest of the world
either. -/
def Held (L : Seen ρ Λ → Prop) : Prop :=
  ∀ ⦃v v'⦄, Rely t v v' → X.rely t v v' → L v → L v'

/-- A specification of code that a broker is given: it starts where `K` and `L` hold, and
while it goes on from one fact about the rest of the world to the next, it keeps `K`. -/
def Local (K L : Seen ρ Λ → Prop) (p : Program ρ Λ β)
    (F : Except BrokerError β → Seen ρ Λ → Prop) : Prop :=
  ∀ Q v, K v → L v → (∀ r v', K v' → F r v' → Q r v') → (logic calls X).wp t o p Q v

end

section
variable {calls : Conf (World ρ) (Label Λ) String BrokerError α → String → Program ρ Λ α → Prop}
  {X : Surroundings (α := α) P E init} {t : ℕ} {o : String} {K L : Seen ρ Λ → Prop}
  {F : Except BrokerError β → Seen ρ Λ → Prop}

theorem Held.const (p : Prop) : Held X t fun _ => p := fun _ _ _ _ hp => hp

theorem Held.and {L' : Seen ρ Λ → Prop} (h : Held X t L) (h' : Held X t L') :
    Held X t fun v => L v ∧ L' v :=
  fun _ _ hr hx hl => ⟨h hr hx hl.1, h' hr hx hl.2⟩

theorem Kept.held (h : Kept t K) : Held X t K := fun _ _ hr _ hk => h hr hk

/-- What needs no more than `K` has a specification that says no more. -/
theorem Spec.of_local {p : Program ρ Λ β} {G : Except BrokerError β → Seen ρ Λ → Prop}
    (h : Local calls X t o K (fun _ => True) p F) (hF : ∀ r v, G r v) : Spec calls X t o K p G :=
  fun Q v hk hQ => h Q v hk trivial fun r v' hk' _ => hQ r v' hk' (hF r v')

theorem Local.mono {p : Program ρ Λ β} {L' : Seen ρ Λ → Prop}
    {G : Except BrokerError β → Seen ρ Λ → Prop} (h : Local calls X t o K L p F)
    (hL : ∀ v, K v → L' v → L v) (hF : ∀ r v, K v → F r v → G r v) : Local calls X t o K L' p G :=
  fun Q v hk hl hQ => h Q v hk (hL v hk hl) fun r v' hk' hf => hQ r v' hk' (hF r v' hk' hf)

/-- Use what is known at the start. -/
theorem Local.of_fact {p : Program ρ Λ β} {φ : Prop} (hφ : ∀ v, K v → L v → φ)
    (h : φ → Local calls X t o K L p F) : Local calls X t o K L p F :=
  fun Q v hk hl hQ => h (hφ v hk hl) Q v hk hl hQ

theorem Local.ofExcept {r : Except BrokerError β} (hK : Kept t K) (hL : Held X t L)
    (h : ∀ v, K v → L v → F r v) : Local calls X t o K L (.ofExcept r) F := by
  intro Q v hk hl hQ
  cases r with
  | ok a | error e =>
      intro v' hr _
      have hk' := hK hr.1 hk
      exact hQ _ _ hk' (h _ hk' (hL hr.1 hr.2 hl))

theorem Local.done {a : β} (hK : Kept t K) (hL : Held X t L) (h : ∀ v, K v → L v → F (.ok a) v) :
    Local calls X t o K L (.done a) F := Local.ofExcept (r := .ok a) hK hL h

theorem Local.fail {e : BrokerError} (hK : Kept t K) (hL : Held X t L)
    (h : ∀ v, K v → L v → F (.error e) v) : Local calls X t o K L (.fail e) F :=
  Local.ofExcept (r := .error e) hK hL h

theorem Local.bind {p : Program ρ Λ β} {q : β → Program ρ Λ γ}
    {G : Except BrokerError γ → Seen ρ Λ → Prop} (hp : Local calls X t o K L p F)
    (hq : ∀ a, Local calls X t o K (F (.ok a)) (q a) G)
    (he : ∀ e v, K v → F (.error e) v → G (.error e) v) : Local calls X t o K L (p.bind q) G := by
  intro Q v hk hl hQ
  refine Logic.wp_bind (hp _ v hk hl fun r v' hk' hf => ?_)
  cases r with
  | ok a => exact hq a Q v' hk' hf hQ
  | error e => exact hQ _ _ hk' (he e v' hk' hf)

theorem Local.attempt {p : Program ρ Λ β} (h : Local calls X t o K L p F) :
    Local calls X t o K L p.attempt fun r v => ∃ r', r = .ok r' ∧ F r' v := by
  intro Q v hk hl hQ
  exact Logic.wp_attempt (h _ v hk hl fun r v' hk' hf => hQ _ _ hk' ⟨r, rfl, hf⟩)

theorem Local.choose {q : γ → Program ρ Λ β} (h : ∀ b, Local calls X t o K L (q b) F) :
    Local calls X t o K L (.choose q) F :=
  fun Q v hk hl hQ b => h b Q v hk hl hQ

/-- One gentle act, and what comes after it. -/
theorem Local.act {l : Label Λ} {f : ℕ → World ρ → Option (γ × World ρ)} {k : γ → Program ρ Λ β}
    {A : γ → Seen ρ Λ → Prop} (hK : Kept t K) (hL : Held X t L) (hl : l.isGentle = true)
    (h : ∀ v, K v → L v → Traced P E init v → X.inv v → ∀ b w, f t v.world = some (b, w) →
      Act P E t o v l w ∧ A b (v.log t o l w))
    (hk : ∀ b, Local calls X t o K (A b) (k b) F) : Local calls X t o K L (.act l f k) F := by
  rintro Q v hkv hlv hQ v' hr ⟨⟨w₀, hi, hs, ht⟩, hx⟩ b w hf
  have hk' := hK hr.1 hkv
  obtain ⟨ha, hb⟩ := h v' hk' (hL hr.1 hr.2 hlv) ⟨w₀, hi, hs, ht⟩ hx b w hf
  exact ⟨⟨l, w, rfl, ha⟩, hk b Q _ (hK (ha.rely ht (.inr hl)) hk') hb hQ⟩

end

/-! ## What is asked of the code a broker is given -/

/-- What is asked of the code a broker is given: reads and hooks leave no trace in what
brokers share; an authorizer is asked by a thread that has checked everything and holds
the lock; and an adapter is called by a thread that has claimed the dispatch. -/
structure Behaves
    (calls : Conf (World ρ) (Label Λ) String BrokerError α → String → Program ρ Λ α → Prop)
    (X : Surroundings (α := α) P E init) (t : ℕ) (b : ActionBroker ρ Λ) : Prop where
  getService : ∀ {ns name K}, Kept t K →
    Spec calls X t b.self K (b.getService ns name) fun _ _ => True
  hook : ∀ {stage K}, Kept t K → Spec calls X t b.self K (b.hook stage) fun _ _ => True
  patchService : ∀ {id p patch K}, Kept t K →
    (∀ v, K v → Claimed P E t b.self id p patch v.hist ∧
      ∃ e, dispatches id v.hist = [e] ∧ e.tid = t ∧ e.label = .patchService id patch) →
    Spec calls X t b.self K (b.patchService p.ns.1 p.serviceName.1 patch) fun _ _ => True
  authorize : ∀ {authorize id p binding patch K}, b.authorize = some authorize → Kept t K →
    (∀ v, K v → v.world.writer = some t ∧ v.world.journal.binding id = binding ∧
      Checked P t b.self id p patch v) →
    Spec calls X t b.self K (authorize p binding patch) fun r v =>
      r = .ok () → E.authorized t b.self p binding patch v
  unauthorized : b.authorize = none → ∀ p binding patch v,
    E.authorized t b.self p binding patch v

end AutonomyLab.Broker
