import AutonomyLab.Relayed.Run

/-!
# The two accounts of what has been spent

The agent and the relay keep the responses, the tokens and the calls each for itself.  Wherever
an agent may put a request down, the two accounts agree, however often agents were killed.

* `Synced` — the accounts agree.
* `Heard` — they do once the agent has recorded the response it has heard of.
* `Point.InStep`, `InStep` — the invariant.
* `inStep_of_run` — it holds along every history, by induction over the protocol.
-/

namespace AutonomyLab.Relayed

open Json Process
open Agent (AgentState Inputs Request Phase)

/-! ## Accounts -/

/-- The relay and a state of an agent agree on what has been spent. -/
structure Synced (s : AgentState) (r : Relay.RelayState) : Prop where
  responses : r.responses = s.modelResponses
  tokens : r.tokens = s.usage.totalTokens
  calls : r.calls = s.usage.modelCalls
  pending : r.pending = false

/-- So they do once a response is recorded in the state. -/
structure Heard (s : AgentState) (r : Relay.RelayState) (response : Json) : Prop where
  usage : ∃ usage, Relay.usageOf response = .ok usage ∧ r.tokens = s.usage.totalTokens + usage
  responses : r.responses = s.modelResponses ++ [response]
  calls : r.calls = s.usage.modelCalls
  pending : r.pending = false

/-- A state with which an agent may put a request down is in step with the relay. -/
def Settled (s : AgentState) (r : Relay.RelayState) : Prop :=
  s.pendingModel ≠ none ∨ Synced s r

/-- What holds at a point. -/
def InStepAt (s : AgentState) (host : Host) (reply : Reply) : Agent.Point → Prop
  | .opened | .ending => Settled s host.relay.state
  | .ready | .sending _ _ _ | .called _ _ _ | .told _ _ _ _ | .charged _ | .spoken _ =>
      s.pendingModel = none ∧ Synced s host.relay.state
  | .asking s₀ _ => s.pendingModel ≠ none ∧ Synced s₀ host.relay.state
  | .asked index _ => s.pendingModel ≠ none ∧ ∀ ended, reply = .generated index ended →
      ∀ response, Relay.Tells ended host.view response → Heard s host.relay.state response
  | .heard response => s.pendingModel ≠ none ∧ Heard s host.relay.state response
  | .recorded _ => False

/-- What holds of a history, of where its last agent is, and of the relay. -/
structure InStep (φ : Phase) (v : Agent.Seen) (host : Host) (reply : Reply) : Prop where
  fresh : v.world = none → host.relay.state.calls = 0 ∧ host.relay.state.tokens = 0 ∧
    host.relay.state.pending = false ∧ host.relay.state.responses = []
  disk : ∀ s, v.world = some s → Settled s host.relay.state
  memory : ∀ p s, φ = .live p s → InStepAt s host reply p

variable {o : Relay.Options} {host host' : Host} {reply reply' : Reply} {φ : Phase} {v : Agent.Seen}
  {p p' : Agent.Point} {s s' : AgentState} {response : Json} {r r' : Relay.RelayState} {l : Agent.Act}
  {t index : ℕ} {job : Agent.Job} {w : Agent.Checkpoint} {reprFloat : ℚ → String}

theorem Synced.recounted (h : Synced s r) (hr : Relay.SameButCounts r r') : Synced s r' := by
  rw [hr]
  exact ⟨h.responses, h.tokens, h.calls, h.pending⟩

theorem Settled.recounted (h : Settled s r) (hr : Relay.SameButCounts r r') : Settled s r' :=
  h.imp_right fun h => h.recounted hr

theorem Synced.of_same (h : Synced s r) (hresponses : s'.modelResponses = s.modelResponses)
    (husage : s'.usage.totalTokens = s.usage.totalTokens) (hcalls : s'.usage.modelCalls = s.usage.modelCalls) :
    Synced s' r := by
  refine ⟨?_, ?_, ?_, h.pending⟩
  · rw [hresponses, h.responses]
  · rw [husage, h.tokens]
  · rw [hcalls, h.calls]

/-- A state is what a process may go on from. -/
theorem InStepAt.settled (h : InStepAt s host reply p) (hp : p.savable) : Settled s host.relay.state := by
  cases p with
  | opened | ending => exact h
  | ready | sending k name args => exact .inr h.2
  | asking s₀ request => exact .inl h.1
  | _ => exact hp.elim

theorem Settled.of_same (h : Settled s r) (hresponses : s'.modelResponses = s.modelResponses)
    (husage : s'.usage.totalTokens = s.usage.totalTokens) (hcalls : s'.usage.modelCalls = s.usage.modelCalls)
    (hpending : s'.pendingModel = s.pendingModel) : Settled s' r := by
  rw [Settled, hpending]
  exact h.imp_right fun hs => hs.of_same hresponses husage hcalls

/-- Where a run ends, the accounts are settled. -/
theorem InStepAt.over (h : InStepAt s host reply p) : Settled s host.relay.state := by
  cases p with
  | opened | ending => exact h
  | ready | sending k name args | called k name args | told k name args result | charged response
      | spoken response => exact .inr h.2
  | asking s₀ request | asked index request | heard response => exact .inl h.1
  | recorded response => exact h.elim

/-- A change of what the accounts do not depend on, at one point. -/
theorem InStepAt.stay (h : InStepAt s host reply p) (hresponses : s'.modelResponses = s.modelResponses)
    (husage : s'.usage.totalTokens = s.usage.totalTokens) (hcalls : s'.usage.modelCalls = s.usage.modelCalls)
    (hpending : s'.pendingModel = s.pendingModel) : InStepAt s' host reply p := by
  have hheard : ∀ {response}, Heard s host.relay.state response → Heard s' host.relay.state response := by
    intro response hh
    refine ⟨?_, ?_, ?_, hh.pending⟩
    · rw [husage]
      exact hh.usage
    · rw [hresponses]
      exact hh.responses
    · rw [hcalls]
      exact hh.calls
  cases p with
  | opened | ending => exact Settled.of_same h hresponses husage hcalls hpending
  | ready | sending k name args | called k name args | told k name args result | charged response
      | spoken response => exact ⟨hpending.trans h.1, h.2.of_same hresponses husage hcalls⟩
  | asking s₀ request =>
      rw [InStepAt, hpending]
      exact h
  | asked index request =>
      rw [InStepAt, hpending]
      exact ⟨h.1, fun ended hreply response htells => hheard (h.2 ended hreply response htells)⟩
  | heard response =>
      rw [InStepAt, hpending]
      exact ⟨h.1, hheard h.2⟩
  | recorded response => exact h.elim

/-! ## Another act -/

/-- An act that is none of the client, and leaves the checkpoint as it is or as the state in
memory. -/
theorem InStep.log (h : InStep φ v host reply)
    (hw : w = v.world ∨ ∃ p s, φ = .live p s ∧ p.savable ∧ w = some s) :
    InStep φ (v.log t job l w) host reply where
  fresh := by
    intro hnone
    obtain rfl : w = none := hnone
    rcases hw with hw | ⟨p, s, -, -, hw⟩
    · exact h.fresh hw.symm
    · cases hw
  disk := by
    intro s hs
    obtain rfl : w = some s := hs
    rcases hw with hw | ⟨p, s', hφ, hp, hw⟩
    · exact h.disk s hw.symm
    · cases hw
      exact (h.memory p s hφ).settled hp
  memory := h.memory

/-- The relay has counted. -/
theorem InStep.recount (h : InStep (.live .ready s) v host reply) (hr : host.Recounted host') :
    InStep (.live .ready s) (v.log t job l v.world) host' reply' where
  fresh := by
    intro hnone
    rw [show host'.relay.state = _ from hr]
    exact h.fresh hnone
  disk s' hs := (h.disk s' hs).recounted hr
  memory := by
    rintro _ _ ⟨⟩
    obtain ⟨hpending, hs⟩ := h.memory _ _ rfl
    exact ⟨hpending, hs.recounted hr⟩

/-- A step of the agent. -/
theorem InStep.step (h : InStep (.live p s) v host reply) (hp : InStepAt s' host reply p') :
    InStep (.live p' s') v host reply := by
  refine { h with memory := ?_ }
  rintro _ _ ⟨⟩
  exact hp

/-- There is no agent any more, or none at work. -/
theorem InStep.resting (h : InStep φ v host reply) {ψ : Phase} (hψ : ψ.resting) : InStep ψ v host reply := by
  refine { h with memory := ?_ }
  rintro p s rfl
  exact hψ.elim

/-- What may be logged while nothing changes; the relay may have counted. -/
theorem InStep.note (hl : Agent.Passive p s l)
    (ih : ∀ {host reply}, Through o v.hist host reply → InStep (.live p s) v host reply)
    (hthrough : Through o ((⟨t, job, l, v.world, v.world⟩ : Agent.Done) :: v.hist) host reply) :
    InStep (.live p s) (v.log t job l v.world) host reply := by
  cases l with
  | count inputs =>
      obtain rfl : p = .ready := hl
      cases hthrough with
      | other _ hquiet => cases hquiet
      | count hthrough _ hanswers => exact (ih hthrough).recount hanswers.recounted.1
      | counted _ hl => cases hl
      | generate _ hl _ => cases hl
      | received _ hl _ => cases hl
  | counted inputs value =>
      obtain rfl : p = .ready := hl
      cases hthrough with
      | other _ hquiet => cases hquiet
      | count _ hl _ => cases hl
      | counted hthrough _ => exact (ih hthrough).recount (show host.Recounted host from rfl)
      | generate _ hl _ => cases hl
      | received _ hl _ => cases hl
  | generate index request => exact hl.elim
  | received index response => exact hl.elim
  | _ => exact (ih (hthrough.quiet rfl)).log (.inl rfl)

/-- The request is sent: whatever the relay makes of it, a response that comes back is
accounted for. -/
theorem InStep.ask {request : Request}
    (ih : ∀ {host reply}, Through o v.hist host reply →
      InStep (.live (.asking s request) (s.requested request)) v host reply)
    (hw : v.world = some (s.requested request))
    (hthrough : Through o ((⟨t, job, .generate s.modelRequests.length request, v.world, v.world⟩ : Agent.Done) ::
      v.hist) host reply) :
    InStep (.live (.asked s.modelRequests.length request) (s.requested request))
      (v.log t job (.generate s.modelRequests.length request) v.world) host reply := by
  have hpending : (s.requested request).pendingModel ≠ none := Option.some_ne_none _
  cases hthrough with
  | other _ hquiet => cases hquiet
  | count _ hl _ => cases hl
  | counted _ hl => cases hl
  | received _ hl _ => cases hl
  | generate hthrough hl hanswers =>
      cases hl
      obtain ⟨-, hs⟩ := (ih hthrough).memory _ _ rfl
      exact {
        fresh := by
          intro hnone
          cases hw.symm.trans hnone
        disk := by
          intro s' hs'
          cases hw.symm.trans hs'
          exact .inl hpending
        memory := by
          rintro _ _ ⟨⟩
          refine ⟨hpending, ?_⟩
          rintro ended ⟨⟩ response htells
          obtain ⟨usage, husage, hstate⟩ := hanswers.accounted response htells
          refine ⟨⟨usage, husage, ?_⟩, ?_, ?_, ?_⟩
          · rw [hstate]
            show _ + usage = _
            rw [show (_ : Relay.RelayState).requested.tokens = _ from hs.tokens]
            rfl
          · rw [hstate]
            show _ ++ [response] = _
            rw [show (_ : Relay.RelayState).requested.responses = _ from hs.responses]
            rfl
          · rw [hstate]
            show _ + 1 = s.usage.modelCalls + 1
            rw [hs.calls]
          · rw [hstate]
            rfl }

/-- The agent hears of the response. -/
theorem InStep.hear {request : Request}
    (ih : ∀ {host reply}, Through o v.hist host reply → InStep (.live (.asked index request) s) v host reply)
    (hthrough : Through o ((⟨t, job, .received index response, v.world, v.world⟩ : Agent.Done) :: v.hist)
      host reply) :
    InStep (.live (.heard response) s) (v.log t job (.received index response) v.world) host reply := by
  cases hthrough with
  | other _ hquiet => cases hquiet
  | count _ hl _ => cases hl
  | counted _ hl => cases hl
  | generate _ hl _ => cases hl
  | received hthrough hl htells =>
      cases hl
      have h := ih hthrough
      obtain ⟨hpending, hheard⟩ := h.memory _ _ rfl
      refine ⟨h.fresh, h.disk, ?_⟩
      rintro _ _ ⟨⟩
      exact ⟨hpending, hheard _ rfl response htells⟩

/-- The usage of a response is charged. -/
theorem InStep.charge {total : ℕ} (h : InStep (.live (.heard response) s) v host reply)
    (htotal : Agent.totalTokenCount response = some total) :
    InStep (.live (.charged response) ((s.responded response).charged total)) v host reply := by
  obtain ⟨-, hheard⟩ := h.memory _ _ rfl
  obtain ⟨usage, husage, htokens⟩ := hheard.usage
  obtain rfl : usage = total := Option.some.inj ((total_of_usageOf husage).symm.trans htotal)
  exact h.step ⟨rfl, hheard.responses, htokens, hheard.calls, hheard.pending⟩

/-! ## Histories -/

theorem isClient_of_refusal {found : Agent.Checkpoint} (h : Agent.Refusal found l) : isClient l = false := by
  cases l with
  | failure reason => rfl
  | returned status => rfl
  | _ => exact h.elim

/-- **The two accounts are in step along every history.** -/
theorem inStep_of_run (h : Agent.Run reprFloat φ v) :
    ∀ {host reply}, Through o v.hist host reply → InStep φ v host reply := by
  induction h with
  | init =>
      intro host reply hthrough
      cases hthrough
      refine ⟨fun _ => ⟨rfl, rfl, rfl, rfl⟩, ?_, ?_⟩
      · rintro s ⟨⟩
      · rintro p s ⟨⟩
  | die _ ih => exact fun hthrough => (ih hthrough).resting (ψ := .idle) trivial
  | load t job _ ih =>
      intro host reply hthrough
      have hresting := (ih (hthrough.quiet rfl)).resting (ψ := .loading) trivial
      exact hresting.log (.inl rfl)
  | refuse t job _ _ hl ih =>
      intro host reply hthrough
      exact (ih (hthrough.quiet (isClient_of_refusal hl))).log (.inl rfl)
  | create job contract _ hw ih =>
      intro host reply hthrough
      have h := ih hthrough
      obtain ⟨hcalls, htokens, hpending, hresponses⟩ := h.fresh hw
      refine { h with memory := ?_ }
      rintro _ _ ⟨⟩
      exact .inr ⟨hresponses, htokens, hcalls, hpending⟩
  | resume job _ hw hopen ih =>
      intro host reply hthrough
      have h := ih hthrough
      refine { h with memory := ?_ }
      rintro _ _ ⟨⟩
      exact (h.disk _ hw).of_same rfl rfl rfl rfl
  | note t job _ hl ih => exact fun hthrough => InStep.note hl ih hthrough
  | touch _ hcore ih =>
      intro host reply hthrough
      have h := ih hthrough
      refine h.step ((h.memory _ _ rfl).stay hcore.modelResponses ?_ ?_ hcore.pendingModel)
      · rw [hcore.usage]
      · rw [hcore.usage]
  | save t job _ hp ih =>
      intro host reply hthrough
      exact (ih (hthrough.quiet rfl)).log (.inr ⟨_, _, rfl, hp, rfl⟩)
  | unknown _ ih =>
      intro host reply hthrough
      have h := ih hthrough
      exact h.step ((h.memory _ _ rfl).stay rfl rfl rfl rfl)
  | stop status reason _ _ ih | fail e _ ih =>
      intro host reply hthrough
      have h := ih hthrough
      exact h.step ((h.memory _ _ rfl).over.of_same rfl rfl rfl rfl)
  | begin _ hpending ih =>
      intro host reply hthrough
      have h := ih hthrough
      refine h.step ⟨hpending, ?_⟩
      rcases h.memory _ _ rfl with hlost | hs
      · exact absurd hpending hlost
      · exact hs.of_same rfl rfl rfl
  | dispatch _ _ _ _ _ ih | internal result _ _ ih | complete _ _ _ ih | look _ _ _ _ ih
      | search _ _ _ _ _ ih | find _ _ _ ih | requeue _ _ _ _ _ _ ih | adopt _ _ _ ih | close _ _ _ ih
      | speak _ _ _ ih | queue _ _ _ _ _ ih =>
      intro host reply hthrough
      have h := ih hthrough
      obtain ⟨hpending, hs⟩ := h.memory _ _ rfl
      exact h.step ⟨hpending, hs.of_same rfl rfl rfl⟩
  | @send v s k name args t job _ _ ih =>
      intro host reply hthrough
      have h := ih (hthrough.quiet rfl)
      have hcalled : InStep (.live (.called k name args) s) v host reply :=
        h.step (h.memory (.sending k name args) s rfl)
      exact hcalled.log (.inl rfl)
  | @answer v s k name args t job result _ ih =>
      intro host reply hthrough
      have h := ih (hthrough.quiet rfl)
      have htold : InStep (.live (.told k name args result) s) v host reply :=
        h.step (h.memory (.called k name args) s rfl)
      exact htold.log (.inl rfl)
  | request _ _ _ ih =>
      intro host reply hthrough
      have h := ih hthrough
      exact h.step ⟨Option.some_ne_none _, (h.memory _ _ rfl).2⟩
  | ask t job _ hw ih => exact fun hthrough => InStep.ask ih hw hthrough
  | receive t job response _ ih => exact fun hthrough => InStep.hear ih hthrough
  | record _ htotal ih =>
      intro host reply hthrough
      obtain ⟨usage, husage, -⟩ := ((ih hthrough).memory _ _ rfl).2.usage
      cases (total_of_usageOf husage).symm.trans htotal
  | charge _ htotal ih => exact fun hthrough => (ih hthrough).charge htotal

end AutonomyLab.Relayed
