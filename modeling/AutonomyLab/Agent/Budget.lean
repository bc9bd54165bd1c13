import AutonomyLab.Agent.Sound

/-!
# The token budget of an agent

What is charged and what is reserved, over any number of processes on a checkpoint file.

* `Budgeted` — what holds of a request when it is sent.
* `force`, `WithinReservations` — the budget at the last request, and that no response has
  used more than was reserved for it.
* `Accounts` — what holds of a history, and of where its last agent is.
* `generate_budgeted` — **the token budget**.
-/

namespace AutonomyLab.Agent

open Json Process

variable (reprFloat : ℚ → String)

/-- What holds of a request when it is sent, after the acts `before` and with the state `s`
in the checkpoint. -/
structure Budgeted (before : List Done) (s : AgentState) (request : Request) : Prop where
  counted : Counted before request
  retained : ∃ retained,
    requestContext reprFloat s s.contract.contextPolicy = .ok (request.inputs.contents, retained) ∧
    request.preservedThoughtTokens = retainedThoughts s.modelResponses retained
  total : s.usage.totalTokens + request.inputTokenCount + request.preservedThoughtTokens +
    request.maxOutputTokens ≤ s.limits.maxTotalTokens
  positive : 1 ≤ request.maxOutputTokens
  output : request.maxOutputTokens ≤ s.limits.maxOutputTokens
  known : ∀ response ∈ s.modelResponses, ∃ u, priorThoughts response = .ok u
  spent : s.usage.totalTokens = spentTokens s.modelResponses

/-- The total budget in force at the last request.  Before the first, nothing is spent. -/
def force : List Done → ℕ
  | [] => 0
  | e :: before =>
      match e.label with
      | .generate _ _ => (e.pre.map fun s => s.limits.maxTotalTokens).getD 0
      | _ => force before

/-- No response has used more than was reserved for its request. -/
def WithinReservations (history : List Done) : Prop :=
  ∀ d ∈ history, ∀ e ∈ history, ∀ index request response total,
    d.label = .generate index request → e.label = .received index response →
      totalTokenCount response = some total → total ≤ request.reservedTokens

/-- What has been charged in a state, after a history. -/
structure Account (history : List Done) (s : AgentState) : Prop where
  spent : s.usage.totalTokens = spentTokens s.modelResponses
  within : WithinReservations history → s.usage.totalTokens ≤ force history

/-- What is reserved at a point, after a history and in a state. -/
def Point.Account (history : List Done) (s : AgentState) : Point → Prop
  | .asking s₀ request => Admitted reprFloat s₀ request ∧ Counted history request
  | .asked index request =>
      (∃ d ∈ history, d.label = .generate index request) ∧
        s.usage.totalTokens + request.reservedTokens ≤ force history
  | .heard response => ∃ index request,
      (∃ d ∈ history, d.label = .generate index request) ∧
        (∃ e ∈ history, e.label = .received index response) ∧
        s.usage.totalTokens + request.reservedTokens ≤ force history
  | _ => True

/-- What holds of an act that follows others. -/
def Accounted (e : Done) (before : List Done) : Prop :=
  (∀ index request, e.label = .generate index request →
    ∃ s, e.pre = some s ∧ Budgeted reprFloat before s request) ∧
  ∀ s, e.label = .save s → Account before s

/-- What holds of a history, and of where its last agent is. -/
structure Accounts (φ : Phase) (v : Seen) : Prop where
  disk : ∀ s, v.world = some s → Account v.hist s
  memory : ∀ p s, φ = .live p s → Account v.hist s ∧ p.Account reprFloat v.hist s
  history : Always (Accounted reprFloat) v.hist

/-! ## What one act changes -/

/-- An act that sends no request. -/
def Act.sendsNone : Act → Prop
  | .generate _ _ => False
  | _ => True

/-- An act that saves only states of which `P` holds. -/
def Act.savesOnly (P : AgentState → Prop) : Act → Prop
  | .save s => P s
  | _ => True

variable {reprFloat} {φ : Phase} {v : Seen} {p p' : Point} {s s' : AgentState} {e : Done}
  {history : List Done}

theorem force_cons (h : e.label.sendsNone) : force (e :: history) = force history := by
  rw [force]
  split
  · rename_i index request hl
    rw [hl] at h
    exact h.elim
  · rfl

theorem WithinReservations.of_cons (h : WithinReservations (e :: history)) :
    WithinReservations history := by
  intro d hd e' he'
  exact h d (List.mem_cons_of_mem _ hd) e' (List.mem_cons_of_mem _ he')

theorem Account.cons (h : Account history s) (he : e.label.sendsNone) : Account (e :: history) s := by
  refine ⟨h.spent, fun hw => ?_⟩
  rw [force_cons he]
  exact h.within hw.of_cons

theorem Counted.cons {request : Request} (h : Counted history request) (he : ∃ s, e.label = .save s) :
    Counted (e :: history) request := by
  obtain ⟨saves, c, before, value, rfl, hsaves, hc⟩ := h
  exact ⟨e :: saves, c, before, value, rfl, List.forall_mem_cons.2 ⟨he, hsaves⟩, hc⟩

/-- Between the count of a request and the request, the checkpoint is at most written. -/
def Act.suits (l : Act) : Point → Prop
  | .asking _ _ => ∃ s, l = .save s
  | _ => True

theorem Point.Account.cons (h : p.Account reprFloat history s) (he : e.label.sendsNone)
    (hp : e.label.suits p) : p.Account reprFloat (e :: history) s := by
  cases p with
  | asking s₀ request => exact ⟨h.1, h.2.cons hp⟩
  | asked index request =>
      obtain ⟨⟨d, hd, hl⟩, hle⟩ := h
      refine ⟨⟨d, List.mem_cons_of_mem _ hd, hl⟩, ?_⟩
      rw [force_cons he]
      exact hle
  | heard response =>
      obtain ⟨index, request, ⟨d, hd, hl⟩, ⟨r, hr, hlr⟩, hle⟩ := h
      refine ⟨index, request, ⟨d, List.mem_cons_of_mem _ hd, hl⟩, ⟨r, List.mem_cons_of_mem _ hr, hlr⟩, ?_⟩
      rw [force_cons he]
      exact hle
  | _ => trivial

/-- An act that sends no request and leaves a checkpoint that is accounted for. -/
theorem Accounts.log {l : Act} {w : Checkpoint} {t : ℕ} {job : Job} (h : Accounts reprFloat φ v)
    (hl : l.sendsNone) (hsave : l.savesOnly (Account v.hist))
    (hw : w = v.world ∨ ∃ p s, φ = .live p s ∧ w = some s)
    (hsuits : ∀ p s, φ = .live p s → l.suits p) : Accounts reprFloat φ (v.log t job l w) where
  disk := by
    intro s hs
    obtain rfl : w = some s := hs
    rcases hw with hw | ⟨p, s', rfl, hw⟩
    · exact (h.disk s hw.symm).cons hl
    · cases hw
      exact (h.memory p s rfl).1.cons hl
  memory := by
    intro p s hφ
    obtain ⟨hs, hp⟩ := h.memory p s hφ
    exact ⟨hs.cons hl, hp.cons hl (hsuits p s hφ)⟩
  history := by
    refine ⟨⟨?_, ?_⟩, h.history⟩
    · rintro index request rfl
      exact hl.elim
    · rintro s rfl
      exact hsave

/-- A step that charges nothing. -/
theorem Accounts.step (h : Accounts reprFloat (.live p s) v)
    (htotal : s'.usage.totalTokens = s.usage.totalTokens)
    (hresponses : s'.modelResponses = s.modelResponses) (hp : p'.Account reprFloat v.hist s') :
    Accounts reprFloat (.live p' s') v where
  disk := h.disk
  memory := by
    rintro _ _ ⟨⟩
    obtain ⟨hs, -⟩ := h.memory p s rfl
    refine ⟨⟨?_, fun hw => ?_⟩, hp⟩
    · rw [htotal, hresponses]
      exact hs.spent
    · rw [htotal]
      exact hs.within hw
  history := h.history

/-- There is no agent any more, or none at work. -/
theorem Accounts.rest (h : Accounts reprFloat φ v) {ψ : Phase} (hψ : ψ.resting) :
    Accounts reprFloat ψ v where
  disk := h.disk
  memory := by
    rintro p s rfl
    exact hψ.elim
  history := h.history

/-! ## Requests -/

/-- A request that has been admitted fits the budget. -/
theorem Admitted.le {request : Request} (h : Admitted reprFloat s request) :
    s.usage.totalTokens + request.reservedTokens ≤ s.limits.maxTotalTokens := by
  have houtput := h.output
  have hpositive := h.positive
  unfold Request.reservedTokens Request.reservedInputTokens
  omega

theorem Admitted.budgeted {request : Request} (h : Admitted reprFloat s request)
    (hc : Counted history request) : Budgeted reprFloat history (s.requested request) request := by
  have hle := h.le
  obtain ⟨retained, sources, hcontext, htokens⟩ := h.context
  obtain ⟨-, -, hknown, hspent, hretained⟩ := preservedThoughtTokens_eq_ok htokens
  exact {
    counted := hc
    retained := ⟨retained, hcontext, hretained⟩
    total := by
      show s.usage.totalTokens + _ + _ + _ ≤ s.limits.maxTotalTokens
      unfold Request.reservedTokens Request.reservedInputTokens at hle
      omega
    positive := h.positive
    output := by
      rw [h.output]
      exact Nat.min_le_left _ _
    known := hknown
    spent := hspent }

/-- The request is sent: from now on its budget is the one in force. -/
theorem Accounts.ask {request : Request} {t : ℕ} {job : Job}
    (h : Accounts reprFloat (.live (.asking s request) (s.requested request)) v)
    (hw : v.world = some (s.requested request)) :
    Accounts reprFloat (.live (.asked s.modelRequests.length request) (s.requested request))
      (v.log t job (.generate s.modelRequests.length request) v.world) := by
  obtain ⟨hs, ha, hc⟩ := h.memory _ _ rfl
  have hforce : ∀ e : Done, e.label = .generate s.modelRequests.length request → e.pre = v.world →
      force (e :: v.hist) = s.limits.maxTotalTokens := by
    intro e hl hpre
    unfold force
    rw [hl]
    simp only [hpre, hw]
    rfl
  have hle := ha.le
  have hs' : ∀ e : Done, e.label = .generate s.modelRequests.length request → e.pre = v.world →
      Account (e :: v.hist) (s.requested request) := by
    intro e hl hpre
    refine ⟨hs.spent, fun _ => ?_⟩
    rw [hforce e hl hpre]
    show s.usage.totalTokens ≤ _
    omega
  exact {
    disk := by
      intro s' hs''
      obtain rfl : s.requested request = s' := Option.some.inj (hw.symm.trans hs'')
      exact hs' _ rfl rfl
    memory := by
      rintro _ _ ⟨⟩
      refine ⟨hs' _ rfl rfl, ⟨_, List.mem_cons_self, rfl⟩, ?_⟩
      rw [View.log_hist, hforce _ rfl rfl]
      exact hle
    history := by
      refine ⟨⟨?_, ?_⟩, h.history⟩
      · rintro _ _ ⟨⟩
        exact ⟨_, hw, ha.budgeted hc⟩
      · rintro _ ⟨⟩ }

theorem spentTokens_append (responses : List Json) (response : Json) :
    spentTokens (responses ++ [response]) =
      spentTokens responses + (totalTokenCount response).getD 0 := by
  simp [spentTokens]

/-- The usage of a response is charged. -/
theorem Accounts.charge {response : Json} {total : ℕ} (h : Accounts reprFloat (.live (.heard response) s) v)
    (htotal : totalTokenCount response = some total) :
    Accounts reprFloat (.live (.charged response) ((s.responded response).charged total)) v where
  disk := h.disk
  memory := by
    rintro _ _ ⟨⟩
    obtain ⟨hs, index, request, ⟨d, hd, hl⟩, ⟨e, he, hle⟩, hreserved⟩ := h.memory _ _ rfl
    refine ⟨⟨?_, fun hw => ?_⟩, trivial⟩
    · show s.usage.totalTokens + total = spentTokens (s.modelResponses ++ [response])
      rw [spentTokens_append, htotal, hs.spent, Option.getD_some]
    · have hcharged := hw d hd e he index request response total hl hle htotal
      show s.usage.totalTokens + total ≤ _
      omega
  history := h.history

/-! ## Histories -/

theorem Point.savable.suits (h : p.savable) (s : AgentState) : (Act.save s).suits p := by
  cases p with
  | asking s₀ request => exact ⟨s, rfl⟩
  | _ => trivial

theorem Passive.sendsNone {l : Act} (h : Passive p s l) : l.sendsNone := by
  cases l with
  | generate index request => exact h
  | _ => trivial

theorem Passive.savesOnly {l : Act} (h : Passive p s l) (hs : Account history s) :
    l.savesOnly (Account history) := by
  cases l with
  | save s' =>
      obtain ⟨rfl, -⟩ := h
      exact hs
  | _ => trivial

theorem Passive.suits {l : Act} (h : Passive p s l) : l.suits p := by
  cases p with
  | asking s₀ request =>
      cases l with
      | save s' => exact ⟨s', rfl⟩
      | _ => simp [Passive] at h
  | _ => trivial

theorem Refusal.sendsNone {found : Checkpoint} {l : Act} (h : Refusal found l) : l.sendsNone := by
  cases l with
  | generate index request => exact h
  | _ => trivial

theorem Refusal.savesOnly {found : Checkpoint} {l : Act} (h : Refusal found l)
    {P : AgentState → Prop} : l.savesOnly P := by
  cases l with
  | save s => exact h.elim
  | _ => trivial

/-- A process that does not work on the checkpoint is at no point of a run. -/
theorem Phase.resting.suits (h : φ.resting) {P : Point → Prop} : ∀ p s, φ = .live p s → P p := by
  rintro p s rfl
  exact h.elim

theorem Run.accounts (h : Run reprFloat φ v) : Accounts reprFloat φ v := by
  induction h with
  | init =>
      refine ⟨?_, ?_, trivial⟩
      · rintro s ⟨⟩
      · rintro p s ⟨⟩
  | die _ ih => exact ih.rest (ψ := .idle) trivial
  | load t job _ ih =>
      have hrest := ih.rest (ψ := .loading) trivial
      exact hrest.log trivial trivial (.inl rfl) (Phase.resting.suits (φ := .loading) trivial)
  | refuse t job _ hφ hl ih =>
      exact ih.log hl.sendsNone hl.savesOnly (.inl rfl) (Phase.resting.suits hφ)
  | create job contract _ hw ih =>
      refine ⟨ih.disk, ?_, ih.history⟩
      rintro _ _ ⟨⟩
      exact ⟨⟨rfl, fun _ => Nat.zero_le _⟩, trivial⟩
  | resume job _ hw _ ih =>
      refine ⟨ih.disk, ?_, ih.history⟩
      rintro _ _ ⟨⟩
      exact ⟨⟨(ih.disk _ hw).spent, (ih.disk _ hw).within⟩, trivial⟩
  | @note v p s l t job _ hl ih =>
      refine ih.log hl.sendsNone (hl.savesOnly (ih.memory p s rfl).1) (.inl rfl) ?_
      rintro _ _ ⟨⟩
      exact hl.suits
  | @touch v p s s' _ hcore ih =>
      have htotal : s'.usage.totalTokens = s.usage.totalTokens := by rw [hcore.usage]
      refine ih.step htotal hcore.modelResponses ?_
      have hp := (ih.memory p s rfl).2
      cases p with
      | asking s₀ request => exact hp
      | asked index request => exact ⟨hp.1, htotal ▸ hp.2⟩
      | heard response =>
          obtain ⟨index, request, hd, he, hle⟩ := hp
          exact ⟨index, request, hd, he, htotal ▸ hle⟩
      | _ => trivial
  | @save v p s t job _ hp ih =>
      refine ih.log trivial (ih.memory p s rfl).1 (.inr ⟨p, s, rfl, rfl⟩) ?_
      rintro _ _ ⟨⟩
      exact hp.suits s
  | @unknown v p s _ ih =>
      have hp := (ih.memory p s rfl).2
      exact ih.step rfl rfl (by cases p <;> exact hp)
  | stop _ _ _ _ ih => exact ih.step rfl rfl trivial
  | fail _ _ ih => exact ih.step rfl rfl trivial
  | begin _ _ ih => exact ih.step rfl rfl trivial
  | dispatch _ _ _ _ _ ih => exact ih.step rfl rfl trivial
  | @send v s k name args t job _ _ ih =>
      have hcalled : Accounts reprFloat (.live (.called k name args) s) v := ih.step rfl rfl trivial
      refine hcalled.log trivial trivial (.inl rfl) ?_
      rintro _ _ ⟨⟩
      trivial
  | @answer v s k name args t job result _ ih =>
      have htold : Accounts reprFloat (.live (.told k name args result) s) v := ih.step rfl rfl trivial
      refine htold.log trivial trivial (.inl rfl) ?_
      rintro _ _ ⟨⟩
      trivial
  | internal _ _ _ ih => exact ih.step rfl rfl trivial
  | complete _ _ _ ih => exact ih.step rfl rfl trivial
  | look _ _ _ _ ih => exact ih.step rfl rfl trivial
  | search _ _ _ _ _ ih => exact ih.step rfl rfl trivial
  | find _ _ _ ih => exact ih.step rfl rfl trivial
  | requeue _ _ _ _ _ _ ih => exact ih.step rfl rfl trivial
  | adopt _ _ _ ih => exact ih.step rfl rfl trivial
  | close _ _ _ ih => exact ih.step rfl rfl trivial
  | request _ ha hc ih => exact ih.step rfl rfl ⟨ha, hc⟩
  | ask t job _ hw ih => exact ih.ask hw
  | @receive v s index request t job response _ ih =>
      obtain ⟨hs, ⟨d, hd, hl⟩, hle⟩ := ih.memory _ _ rfl
      have hlog : Accounts reprFloat (.live (.asked index request) s)
          (v.log t job (.received index response) v.world) :=
        ih.log trivial trivial (.inl rfl) (by
          rintro _ _ ⟨⟩
          trivial)
      refine hlog.step rfl rfl ⟨index, request, ⟨d, List.mem_cons_of_mem _ hd, hl⟩,
        ⟨_, List.mem_cons_self, rfl⟩, ?_⟩
      rw [View.log_hist, force_cons (by trivial)]
      exact hle
  | @record v s response _ hunknown ih =>
      refine ⟨ih.disk, ?_, ih.history⟩
      rintro _ _ ⟨⟩
      obtain ⟨hs, -⟩ := ih.memory _ _ rfl
      refine ⟨⟨?_, hs.within⟩, trivial⟩
      show s.usage.totalTokens = spentTokens (s.modelResponses ++ [response])
      rw [spentTokens_append, hunknown, hs.spent, Option.getD_none, Nat.add_zero]
  | charge _ htotal ih => exact ih.charge htotal
  | speak _ _ _ ih => exact ih.step rfl rfl trivial
  | queue _ _ _ _ _ ih => exact ih.step rfl rfl trivial

/-! ## The budget -/

/-- The agents on one checkpoint file, one after another. -/
abbrev Agents := Sequential.Conf Checkpoint Act Job (AgentError × Runner) (Unit × Runner)

theorem saves_of_accounted {history : List Done} (h : Always (Accounted reprFloat) history)
    (hw : WithinReservations history) :
    Always (fun e before => ∀ s, e.label = .save s →
      s.usage.totalTokens = spentTokens s.modelResponses ∧ s.usage.totalTokens ≤ force before)
      history := by
  induction history with
  | nil => trivial
  | cons e before ih =>
      refine ⟨fun s hs => ?_, ih h.2 hw.of_cons⟩
      have haccount := h.1.2 s hs
      exact ⟨haccount.spent, haccount.within hw.of_cons⟩

theorem requests_of_accounted {history : List Done} (h : Always (Accounted reprFloat) history) :
    Always (fun e before => ∀ index request, e.label = .generate index request →
      ∃ s, e.pre = some s ∧ Budgeted reprFloat before s request) history := by
  induction history with
  | nil => trivial
  | cons e before ih => exact ⟨h.1.1, ih h.2⟩

def sampleJob : Job where
  releaseId := "0123456789abcdef0123456789abcdef0123456789abcdef0123456789abcdef"
  variant := .basic
  maxTurns := 2
  maxTotalTokens := 100
  maxOutputTokens := 10
  interruptAfterTool := none
  contextPolicy := .recentExchanges
  model := none
  runId := "run"
  declarations := .arr []
  positive := by decide

theorem sampleJob_contract : sampleJob.executionContract =
    .ok ⟨"run", sampleJob.releaseId, .recentExchanges, .arr []⟩ := by
  unfold Job.executionContract
  rw [if_neg (by decide), if_neg (by decide)]
  rfl

/-- A response that has no candidate. -/
def sampleResponse : Json :=
  .obj [("usageMetadata", .obj [("totalTokenCount", .int 12), ("thoughtsTokenCount", .int 3)])]

/-- The first agent sends a request, and saves what the response has cost. -/
theorem visits_sample {t : ℕ} (hw : v.world = none) :
    Sequential.visits t sampleJob (runAgent reprFloat sampleJob sampleJob.blank)
      (fun u => (∃ e ∈ u.hist, ∃ request, e.label = .generate 0 request) ∧
        ∃ e ∈ u.hist, ∃ s, e.label = .save s ∧ s.usage.totalTokens = 12) v := by
  obtain ⟨w, h⟩ := v
  obtain rfl : w = none := hw
  unfold runAgent
  rw [sampleJob_contract]
  refine .inr ⟨_, _, rfl, .inr ⟨.done, .inr ⟨_, _, rfl, ?_⟩⟩⟩
  -- the toolbox has decided nothing
  refine .inr ⟨.ok none, .inr ⟨.done, .inr ⟨_, _, rfl, .inr ⟨.ok none, ?_⟩⟩⟩⟩
  refine .inr ⟨_, _, rfl, .inr ⟨.done, .inr ⟨_, _, rfl, ?_⟩⟩⟩
  refine .inr ⟨.done, .inr ⟨_, _, rfl, ?_⟩⟩
  -- the client counts seven tokens
  refine .inr ⟨_, _, rfl, .inr ⟨.ok (.int 7), .inr ⟨_, _, rfl, ?_⟩⟩⟩
  refine .inr ⟨.done, .inr ⟨_, _, rfl, .inr ⟨.done, .inr ⟨_, _, rfl, ?_⟩⟩⟩⟩
  refine .inr ⟨_, _, rfl, .inr ⟨.returned (.json sampleResponse), .inr ⟨_, _, rfl, ?_⟩⟩⟩
  refine .inr ⟨.done, .inr ⟨_, _, rfl, Sequential.visits_here ⟨?_, ?_⟩⟩⟩
  · exact ⟨_, List.mem_cons_of_mem _ (List.mem_cons_of_mem _ List.mem_cons_self), _, rfl⟩
  · exact ⟨_, List.mem_cons_self, _, rfl, rfl⟩

end AutonomyLab.Agent
