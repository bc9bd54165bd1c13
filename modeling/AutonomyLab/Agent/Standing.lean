import AutonomyLab.Agent.Budget

/-!
# What an agent never takes back

Counters, limits and requests from one checkpoint to the next, and what becomes of a
request that is found pending.

* `Grows`, `WithinLimits` — two states of one investigation; a counter that is not raised
  beyond its limit.
* `FoundPending` — an agent has found a request whose response it does not know.
* `Onward` — what holds of an act and the acts before it.
* `Standing` — the invariant, by induction over the protocol.
-/

namespace AutonomyLab.Agent

open Json Process

/-- A request as it was sent. -/
def Request.asSent (request : Request) : Request := { request with received := false }

/-- A later state of the same investigation. -/
structure Grows (s s' : AgentState) : Prop where
  modelCalls : s.usage.modelCalls ≤ s'.usage.modelCalls
  toolCalls : s.usage.toolCalls ≤ s'.usage.toolCalls
  limits : s'.limits.Le s.limits
  requests : s.modelRequests.map Request.asSent <+: s'.modelRequests.map Request.asSent

theorem Grows.refl (s : AgentState) : Grows s s :=
  ⟨Nat.le_refl _, Nat.le_refl _, Limits.Le.refl _, List.prefix_refl _⟩

theorem Grows.trans {s s' s'' : AgentState} (h : Grows s s') (h' : Grows s' s'') : Grows s s'' :=
  ⟨h.modelCalls.trans h'.modelCalls, h.toolCalls.trans h'.toolCalls, h'.limits.trans h.limits,
    h.requests.trans h'.requests⟩

theorem Grows.length_le {s s' : AgentState} (h : Grows s s') :
    s.modelRequests.length ≤ s'.modelRequests.length := by
  have hlength := h.requests.length_le
  rwa [List.length_map, List.length_map] at hlength

/-- The model calls of a checkpoint. -/
def modelCallsOf (found : Checkpoint) : ℕ := (found.map fun s => s.usage.modelCalls).getD 0

/-- The tool calls of a checkpoint. -/
def toolCallsOf (found : Checkpoint) : ℕ := (found.map fun s => s.usage.toolCalls).getD 0

/-- No counter is beyond its limit that was not there before. -/
structure WithinLimits (found : Checkpoint) (s : AgentState) : Prop where
  modelCalls : s.usage.modelCalls ≤ modelCallsOf found ∨ s.usage.modelCalls ≤ s.limits.maxTurns
  toolCalls : s.usage.toolCalls ≤ toolCallsOf found ∨ s.usage.toolCalls ≤ s.limits.maxToolCalls

theorem WithinLimits.refl (s : AgentState) : WithinLimits (some s) s :=
  ⟨.inl (Nat.le_refl _), .inl (Nat.le_refl _)⟩

theorem WithinLimits.trans {found : Checkpoint} {s s' : AgentState} (h : WithinLimits found s)
    (h' : WithinLimits (some s) s') (hlimits : s'.limits = s.limits) : WithinLimits found s' where
  modelCalls := by
    rw [hlimits]
    rcases h'.modelCalls with hle | hle
    · exact h.modelCalls.imp hle.trans hle.trans
    · rw [hlimits] at hle
      exact .inr hle
  toolCalls := by
    rw [hlimits]
    rcases h'.toolCalls with hle | hle
    · exact h.toolCalls.imp hle.trans hle.trans
    · rw [hlimits] at hle
      exact .inr hle

/-- An agent has found a request pending. -/
def FoundPending (history : List Done) : Prop :=
  ∃ d ∈ history, d.label = .load ∧ ∃ s, d.pre = some s ∧ s.pendingModel ≠ none

/-- How a run may end that has found a request pending. -/
def Status.abandoned : Status → Prop
  | .completed | .blocked | .indeterminate | .error => True
  | _ => False

/-- What holds of an act and the acts before it. -/
structure Onward (e : Done) (before : List Done) : Prop where
  grows : ∀ s', e.post = some s' → WithinLimits e.pre s' ∧
    ∀ d ∈ before, ∀ s, d.post = some s → Grows s s'
  sent : ∀ index request, e.label = .generate index request →
    (∃ s, e.pre = some s ∧ s.modelRequests[index]? = some request) ∧
    (∀ d ∈ before, ∀ i r, d.label = .generate i r → i < index) ∧ ¬FoundPending before
  returned : ∀ status, e.label = .returned status → FoundPending before → status.abandoned

/-! ## The invariant -/

/-- A request that is pending has not been answered. -/
def Unanswered (s : AgentState) : Prop :=
  s.pendingModel ≠ none → s.status = .running ∨ s.status.abandoned

/-- The points before and after the work of an agent. -/
def Point.outside : Point → Prop
  | .opened | .ending => True
  | _ => False

/-- No request below an index has been sent. -/
def SentBelow (history : List Done) (index : ℕ) : Prop :=
  ∀ d ∈ history, ∀ i r, d.label = .generate i r → i < index

/-- What holds at a point. -/
def Point.Standing (history : List Done) (s : AgentState) : Point → Prop
  | .opened => True
  | .ending => s.pendingModel ≠ none → s.status.abandoned
  | .asking s₀ _ => s.status = .running ∧ SentBelow history s₀.modelRequests.length
  | .asked _ _ | .heard _ => s.status = .running
  | .ready | .sending _ _ _ | .called _ _ _ | .told _ _ _ _ | .recorded _ | .charged _ | .spoken _ =>
      s.pendingModel = none ∧ s.status = .running

/-- What holds of an agent at work. -/
structure Held (v : Seen) (p : Point) (s : AgentState) : Prop where
  grows : ∀ s', v.world = some s' → Grows s' s
  within : WithinLimits v.world s
  unanswered : Unanswered s
  pending : FoundPending v.hist → p.outside ∧ s.pendingModel ≠ none
  point : p.Standing v.hist s

/-- What holds of a history, and of its last agent. -/
structure Standing (φ : Phase) (v : Seen) : Prop where
  seen : ∀ d ∈ v.hist, ∀ s, d.post = some s → ∃ s', v.world = some s' ∧ Grows s s'
  sent : ∀ d ∈ v.hist, ∀ i r, d.label = .generate i r →
    ∃ s, v.world = some s ∧ i < s.modelRequests.length
  pending : FoundPending v.hist → ∃ s, v.world = some s ∧ s.pendingModel ≠ none
  disk : ∀ s, v.world = some s → Unanswered s
  memory : ∀ p s, φ = .live p s → Held v p s
  history : Always Onward v.hist

variable {reprFloat : ℚ → String} {φ : Phase} {v : Seen} {p p' : Point} {s s' : AgentState} {e : Done}
  {history : List Done} {t : ℕ} {job : Job} {l : Act}

theorem Standing.sentBelow (h : Standing (.live p s) v) : SentBelow v.hist s.modelRequests.length := by
  intro d hd i r hl
  obtain ⟨s', hw, hlt⟩ := h.sent d hd i r hl
  exact hlt.trans_le ((h.memory p s rfl).grows s' hw).length_le

/-- An act that neither sends a request nor looks for the checkpoint. -/
def Act.silent : Act → Prop
  | .generate _ _ | .load => False
  | _ => True

theorem foundPending_cons (h : e.label.silent) : FoundPending (e :: history) ↔ FoundPending history := by
  refine ⟨?_, ?_⟩
  · rintro ⟨d, hd, hl, hfound⟩
    rcases List.mem_cons.1 hd with rfl | hd
    · rw [hl] at h
      exact h.elim
    · exact ⟨d, hd, hl, hfound⟩
  · rintro ⟨d, hd, hfound⟩
    exact ⟨d, List.mem_cons_of_mem _ hd, hfound⟩

theorem sentBelow_cons {index : ℕ} (hl : e.label.silent) (h : SentBelow history index) :
    SentBelow (e :: history) index := by
  intro d hd i r hg
  rcases List.mem_cons.1 hd with rfl | hd
  · rw [hg] at hl
    exact hl.elim
  · exact h d hd i r hg

theorem Point.Standing.cons (h : p.Standing history s) (hl : e.label.silent) :
    p.Standing (e :: history) s := by
  cases p with
  | asking s₀ request => exact ⟨h.1, sentBelow_cons hl h.2⟩
  | _ => exact h

/-- An act that returns only with a status of which `P` holds. -/
def Act.returnsOnly (P : Status → Prop) : Act → Prop
  | .returned status => P status
  | _ => True

theorem Onward.of_same (h : Standing φ v) (hl : l.silent)
    (hreturned : l.returnsOnly fun status => FoundPending v.hist → status.abandoned) :
    Onward ⟨t, job, l, v.world, v.world⟩ v.hist where
  grows := by
    intro s' hs'
    obtain hs' : v.world = some s' := hs'
    refine ⟨hs' ▸ WithinLimits.refl s', fun d hd s hs => ?_⟩
    obtain ⟨s'', hw, hgrows⟩ := h.seen d hd s hs
    cases hs'.symm.trans hw
    exact hgrows
  sent := by
    rintro index request rfl
    exact hl.elim
  returned := by
    rintro status rfl
    exact hreturned

/-- An act that leaves the checkpoint as it is. -/
theorem Standing.log (h : Standing φ v) (hl : l.silent)
    (hreturned : l.returnsOnly fun status => FoundPending v.hist → status.abandoned) :
    Standing φ (v.log t job l v.world) where
  seen := by
    intro d hd s hs
    rcases List.mem_cons.1 hd with rfl | hd
    · exact ⟨s, hs, Grows.refl s⟩
    · exact h.seen d hd s hs
  sent := by
    intro d hd i r hg
    rcases List.mem_cons.1 hd with rfl | hd
    · obtain rfl : l = .generate i r := hg
      exact hl.elim
    · exact h.sent d hd i r hg
  pending hfound := h.pending ((foundPending_cons hl).1 hfound)
  disk := h.disk
  memory := by
    intro p s hφ
    obtain ⟨hgrows, hwithin, hunanswered, hpending, hpoint⟩ := h.memory p s hφ
    exact ⟨hgrows, hwithin, hunanswered, fun hfound => hpending ((foundPending_cons hl).1 hfound),
      hpoint.cons hl⟩
  history := ⟨.of_same h hl hreturned, h.history⟩

/-- The checkpoint is replaced by the state in memory. -/
theorem Standing.save (h : Standing (.live p s) v) :
    Standing (.live p s) (v.log t job (.save s) (some s)) := by
  have hheld := h.memory p s rfl
  have hseen : ∀ d ∈ v.hist, ∀ s₀, d.post = some s₀ → Grows s₀ s := by
    intro d hd s₀ hs₀
    obtain ⟨s₁, hw, hgrows⟩ := h.seen d hd s₀ hs₀
    exact hgrows.trans (hheld.grows s₁ hw)
  have hfound : FoundPending (v.log t job (.save s) (some s)).hist → FoundPending v.hist :=
    (foundPending_cons (by trivial)).1
  exact {
    seen := by
      intro d hd s₀ hs₀
      refine ⟨s, rfl, ?_⟩
      rcases List.mem_cons.1 hd with rfl | hd
      · cases hs₀
        exact Grows.refl _
      · exact hseen d hd s₀ hs₀
    sent := by
      intro d hd i r hl
      refine ⟨s, rfl, ?_⟩
      rcases List.mem_cons.1 hd with rfl | hd
      · cases hl
      · exact h.sentBelow d hd i r hl
    pending := fun hf => ⟨s, rfl, (hheld.pending (hfound hf)).2⟩
    disk := by
      rintro _ ⟨⟩
      exact hheld.unanswered
    memory := by
      rintro _ _ ⟨⟩
      refine ⟨?_, WithinLimits.refl s, hheld.unanswered, fun hf => hheld.pending (hfound hf),
        hheld.point.cons (by trivial)⟩
      rintro _ ⟨⟩
      exact Grows.refl s
    history := by
      refine ⟨⟨?_, ?_, ?_⟩, h.history⟩
      · rintro _ ⟨⟩
        exact ⟨hheld.within, hseen⟩
      · rintro index request ⟨⟩
      · rintro status ⟨⟩ }

/-- A step of the agent that leaves the file alone. -/
theorem Standing.step (h : Standing (.live p s) v) (hgrows : Grows s s')
    (hwithin : WithinLimits (some s) s') (hlimits : s'.limits = s.limits) (hunanswered : Unanswered s')
    (hpending : p.outside → s.pendingModel ≠ none → p'.outside ∧ s'.pendingModel ≠ none)
    (hpoint : p'.Standing v.hist s') : Standing (.live p' s') v := by
  have hheld := h.memory p s rfl
  refine { h with memory := ?_ }
  rintro _ _ ⟨⟩
  refine ⟨fun s₀ hw => (hheld.grows s₀ hw).trans hgrows, hheld.within.trans hwithin hlimits,
    hunanswered, fun hfound => ?_, hpoint⟩
  obtain ⟨hout, hne⟩ := hheld.pending hfound
  exact hpending hout hne

/-- There is no agent any more, or none at work. -/
theorem Standing.rest (h : Standing φ v) {ψ : Phase} (hψ : ψ.resting) : Standing ψ v := by
  refine { h with memory := ?_ }
  rintro p s rfl
  exact hψ.elim

/-! ## Histories -/

/-- The same limits, requests and status, and as many model calls. -/
structure Alike (s s' : AgentState) : Prop where
  limits : s'.limits = s.limits
  requests : s'.modelRequests = s.modelRequests
  pending : s'.pendingModel = s.pendingModel
  status : s'.status = s.status
  modelCalls : s'.usage.modelCalls = s.usage.modelCalls

theorem Core.alike (h : Core s s') : Alike s s' :=
  ⟨h.limits, h.modelRequests, h.pendingModel, h.status, congrArg Usage.modelCalls h.usage⟩

theorem Alike.grows (h : Alike s s') (htools : s.usage.toolCalls ≤ s'.usage.toolCalls) : Grows s s' where
  modelCalls := h.modelCalls.ge
  toolCalls := htools
  limits := h.limits ▸ Limits.Le.refl _
  requests := by rw [h.requests]

theorem Alike.unanswered (h : Alike s s') (hs : Unanswered s) : Unanswered s' := by
  unfold Unanswered
  rw [h.pending, h.status]
  exact hs

/-- Where the calls of a turn are worked on. -/
def Point.working : Point → Prop
  | .ready | .sending _ _ _ | .called _ _ _ | .told _ _ _ _ => True
  | _ => False

theorem Point.working.standing (hp : p.working) :
    p.Standing history s ↔ s.pendingModel = none ∧ s.status = .running := by
  cases p with
  | ready | sending _ _ _ | called _ _ _ | told _ _ _ _ => exact Iff.rfl
  | _ => exact hp.elim

theorem Point.working.not_outside (hp : p.working) : ¬p.outside := by
  cases p with
  | ready | sending _ _ _ | called _ _ _ | told _ _ _ _ => exact id
  | _ => exact hp.elim

/-- A step of the work on the calls of a turn, which may count a tool call. -/
theorem Standing.work (h : Standing (.live p s) v) (halike : Alike s s') (hp : p.working)
    (hp' : p'.working) (htools : s.usage.toolCalls ≤ s'.usage.toolCalls)
    (hlimit : s'.usage.toolCalls ≤ s.usage.toolCalls ∨ s'.usage.toolCalls ≤ s.limits.maxToolCalls) :
    Standing (.live p' s') v := by
  have hheld := h.memory p s rfl
  have hpoint := hp.standing.1 hheld.point
  refine h.step (halike.grows htools) ⟨.inl halike.modelCalls.le, ?_⟩ halike.limits
    (halike.unanswered hheld.unanswered) (fun hout => absurd hout hp.not_outside) ?_
  · rw [halike.limits]
    exact hlimit
  · rw [hp'.standing, halike.pending, halike.status]
    exact hpoint

/-- A step of the work on the calls of a turn that counts nothing. -/
theorem Standing.go (h : Standing (.live p s) v) (halike : Alike s s') (hp : p.working)
    (hp' : p'.working) (htools : s'.usage.toolCalls = s.usage.toolCalls) :
    Standing (.live p' s') v :=
  h.work halike hp hp' htools.ge (.inl htools.le)

/-- A change that counts nothing, at one point. -/
theorem Standing.stay (h : Standing (.live p s) v) (halike : Alike s s')
    (htools : s'.usage.toolCalls = s.usage.toolCalls) : Standing (.live p s') v := by
  have hheld := h.memory p s rfl
  refine h.step (halike.grows htools.ge) ⟨.inl halike.modelCalls.le, .inl htools.le⟩ halike.limits
    (halike.unanswered hheld.unanswered) (fun hout hne => ⟨hout, halike.pending ▸ hne⟩) ?_
  have hpoint := hheld.point
  cases p with
  | asking s₀ request => exact ⟨halike.status.trans hpoint.1, hpoint.2⟩
  | opened => trivial
  | asked index request | heard response => exact halike.status.trans hpoint
  | ending =>
      intro hne
      rw [halike.status]
      exact hpoint (halike.pending ▸ hne)
  | _ => exact ⟨halike.pending.trans hpoint.1, halike.status.trans hpoint.2⟩

/-- Only an open run or one that waits for a response has a request pending when it stops. -/
theorem Point.mayStop.abandoned {status : Status} (h : p.mayStop s status)
    (hpoint : p.Standing history s) (hpending : s.pendingModel ≠ none) : status.abandoned := by
  cases p with
  | opened =>
      rcases h.2 hpending with rfl | rfl
      · trivial
      · trivial
  | asked index request =>
      obtain rfl : status = .indeterminate := h
      trivial
  | ready => exact absurd hpoint.1 hpending
  | recorded response | charged response | spoken response => exact absurd hpoint.1 hpending
  | _ => exact h.elim

/-- The run is over. -/
theorem Standing.over (h : Standing (.live p s) v) (hlimits : s'.limits = s.limits)
    (hrequests : s'.modelRequests = s.modelRequests) (husage : s'.usage = s.usage)
    (hpending : s'.pendingModel = s.pendingModel)
    (hstatus : s.pendingModel ≠ none → s'.status.abandoned) : Standing (.live .ending s') v := by
  have habandoned : s'.pendingModel ≠ none → s'.status.abandoned := by
    rw [hpending]
    exact hstatus
  refine h.step ⟨?_, ?_, ?_, ?_⟩ ⟨.inl ?_, .inl ?_⟩ hlimits (fun hne => .inr (habandoned hne)) ?_ habandoned
  · rw [husage]
  · rw [husage]
  · rw [hlimits]
    exact Limits.Le.refl _
  · rw [hrequests]
  · rw [husage]
    exact Nat.le_refl _
  · rw [husage]
    exact Nat.le_refl _
  · intro _ hne
    exact ⟨trivial, hpending ▸ hne⟩

theorem Passive.silent (h : Passive p s l) : l.silent := by
  cases l with
  | generate index request => exact h
  | load => exact h
  | _ => trivial

theorem Refusal.silent {found : Checkpoint} (h : Refusal found l) : l.silent := by
  cases l with
  | generate index request => exact h
  | load => exact h
  | _ => trivial

theorem Passive.returnsOnly (h : Passive p s l) (hs : Standing (.live p s) v) :
    l.returnsOnly fun status => FoundPending v.hist → status.abandoned := by
  cases l with
  | returned status =>
      intro hfound
      have hheld := hs.memory p s rfl
      rcases h with ⟨rfl, rfl⟩ | ⟨rfl, rfl⟩
      · exact hheld.point (hheld.pending hfound).2
      · trivial
  | _ => trivial

theorem abandoned_of_closed (h : Unanswered s) (hpending : s.pendingModel ≠ none)
    (hclosed : s.closed = true) : s.status.abandoned := by
  rcases h hpending with hrunning | habandoned
  · unfold AgentState.closed at hclosed
    rw [hrunning] at hclosed
    cases hclosed
  · exact habandoned

theorem Refusal.returnsOnly (h : Refusal v.world l) (hs : Standing φ v) :
    l.returnsOnly fun status => FoundPending v.hist → status.abandoned := by
  cases l with
  | returned status =>
      intro hfound
      rcases h with rfl | ⟨s, hw, hclosed, rfl⟩
      · trivial
      · obtain ⟨s', hw', hpending⟩ := hs.pending hfound
        cases hw.symm.trans hw'
        exact abandoned_of_closed (hs.disk s hw) hpending hclosed
  | _ => trivial

/-- An agent looks for the checkpoint. -/
theorem Standing.load (h : Standing .idle v) : Standing .loading (v.log t job .load v.world) where
  seen := by
    intro d hd s hs
    rcases List.mem_cons.1 hd with rfl | hd
    · exact ⟨s, hs, Grows.refl s⟩
    · exact h.seen d hd s hs
  sent := by
    intro d hd i r hl
    rcases List.mem_cons.1 hd with rfl | hd
    · cases hl
    · exact h.sent d hd i r hl
  pending := by
    rintro ⟨d, hd, hl, s, hs, hne⟩
    rcases List.mem_cons.1 hd with rfl | hd
    · exact ⟨s, hs, hne⟩
    · exact h.pending ⟨d, hd, hl, s, hs, hne⟩
  disk := h.disk
  memory := by rintro p s ⟨⟩
  history := by
    refine ⟨⟨?_, ?_, ?_⟩, h.history⟩
    · intro s' hs'
      obtain hs' : v.world = some s' := hs'
      refine ⟨hs' ▸ WithinLimits.refl s', fun d hd s hs => ?_⟩
      obtain ⟨s'', hw, hgrows⟩ := h.seen d hd s hs
      cases hs'.symm.trans hw
      exact hgrows
    · rintro index request ⟨⟩
    · rintro status ⟨⟩

/-- A request is sent that has been saved as pending. -/
theorem Standing.ask {request : Request}
    (h : Standing (.live (.asking s request) (s.requested request)) v)
    (hw : v.world = some (s.requested request)) :
    Standing (.live (.asked s.modelRequests.length request) (s.requested request))
      (v.log t job (.generate s.modelRequests.length request) v.world) := by
  have hheld := h.memory _ _ rfl
  obtain ⟨hrunning, hbelow⟩ := hheld.point
  have hnot : ¬FoundPending v.hist := fun hfound => (hheld.pending hfound).1
  have hnot' : ∀ w, ¬FoundPending (v.log t job (.generate s.modelRequests.length request) w).hist := by
    rintro w ⟨d, hd, hl, hfound⟩
    rcases List.mem_cons.1 hd with rfl | hd
    · cases hl
    · exact hnot ⟨d, hd, hl, hfound⟩
  exact {
    seen := by
      intro d hd s' hs'
      rcases List.mem_cons.1 hd with rfl | hd
      · exact ⟨s', hs', Grows.refl s'⟩
      · exact h.seen d hd s' hs'
    sent := by
      intro d hd i r hl
      rcases List.mem_cons.1 hd with rfl | hd
      · cases hl
        refine ⟨_, hw, ?_⟩
        show s.modelRequests.length < (s.modelRequests ++ [request]).length
        rw [List.length_append, List.length_singleton]
        exact Nat.lt_succ_self _
      · exact h.sent d hd i r hl
    pending := fun hfound => absurd hfound (hnot' _)
    disk := h.disk
    memory := by
      rintro _ _ ⟨⟩
      exact ⟨hheld.grows, hheld.within, hheld.unanswered, fun hfound => absurd hfound (hnot' _), hrunning⟩
    history := by
      refine ⟨⟨?_, ?_, ?_⟩, h.history⟩
      · intro s' hs'
        obtain hs' : v.world = some s' := hs'
        refine ⟨hs' ▸ WithinLimits.refl s', fun d hd s₀ hs₀ => ?_⟩
        obtain ⟨s'', hw', hgrows⟩ := h.seen d hd s₀ hs₀
        cases hs'.symm.trans hw'
        exact hgrows
      · rintro _ _ ⟨⟩
        exact ⟨⟨_, hw, List.getElem?_concat_length⟩, hbelow, hnot⟩
      · rintro status ⟨⟩ }

theorem asSent_modify (requests : List Request) (index : ℕ) :
    (requests.modify index fun request => { request with received := true }).map Request.asSent =
      requests.map Request.asSent := by
  induction requests generalizing index with
  | nil => rw [List.modify_nil]
  | cons request requests ih =>
      cases index with
      | zero => rfl
      | succ index => rw [List.modify_succ_cons, List.map_cons, List.map_cons, ih]

theorem asSent_responded (s : AgentState) (response : Json) :
    (s.responded response).modelRequests.map Request.asSent = s.modelRequests.map Request.asSent := by
  unfold AgentState.responded
  cases s.pendingModel with
  | none => rfl
  | some index => exact asSent_modify _ index

/-- The response of a request is recorded. -/
theorem Standing.hear {response : Json} (h : Standing (.live (.heard response) s) v)
    (s' : AgentState) (hlimits : s'.limits = s.limits) (hmodel : s'.usage.modelCalls = s.usage.modelCalls)
    (htool : s'.usage.toolCalls = s.usage.toolCalls) (hpending : s'.pendingModel = none)
    (hstatus : s'.status = s.status)
    (hrequests : s'.modelRequests.map Request.asSent = s.modelRequests.map Request.asSent)
    (hp : p'.Standing v.hist s' ↔ s'.pendingModel = none ∧ s'.status = .running) :
    Standing (.live p' s') v := by
  have hheld := h.memory _ _ rfl
  refine h.step ⟨hmodel.ge, htool.ge, ?_, ?_⟩ ⟨.inl hmodel.le, .inl htool.le⟩ hlimits
    (fun hne => absurd hpending hne) (fun hout => hout.elim) (hp.2 ⟨hpending, hstatus.trans hheld.point⟩)
  · rw [hlimits]
    exact Limits.Le.refl _
  · rw [hrequests]

theorem Run.standing (h : Run reprFloat φ v) : Standing φ v := by
  induction h with
  | init =>
      refine ⟨?_, ?_, ?_, ?_, ?_, trivial⟩
      · rintro d ⟨⟩
      · rintro d ⟨⟩
      · rintro ⟨d, ⟨⟩, -⟩
      · rintro s ⟨⟩
      · rintro p s ⟨⟩
  | die _ ih => exact ih.rest (ψ := .idle) trivial
  | load t job _ ih => exact ih.load
  | refuse t job _ hφ hl ih => exact ih.log hl.silent (hl.returnsOnly ih)
  | create job contract _ hw ih =>
      refine { ih with memory := ?_ }
      rintro _ _ ⟨⟩
      refine ⟨?_, ⟨.inl (Nat.zero_le _), .inl (Nat.zero_le _)⟩, fun hne => absurd rfl hne, ?_, trivial⟩
      · rintro s' hs'
        cases hw.symm.trans hs'
      · intro hfound
        obtain ⟨s', hs', -⟩ := ih.pending hfound
        cases hw.symm.trans hs'
  | @resume v s job _ hw _ ih =>
      refine { ih with memory := ?_ }
      rintro _ _ ⟨⟩
      have hgrows : Grows s (s.resumed job.limits) :=
        ⟨Nat.le_refl _, Nat.le_refl _, Limits.least_le _ _, List.prefix_refl _⟩
      refine ⟨?_, ?_, ih.disk s hw, ?_, trivial⟩
      · intro s' hs'
        cases hw.symm.trans hs'
        exact hgrows
      · rw [hw]
        exact ⟨.inl (Nat.le_refl _), .inl (Nat.le_refl _)⟩
      · intro hfound
        obtain ⟨s', hs', hne⟩ := ih.pending hfound
        cases hw.symm.trans hs'
        exact ⟨trivial, hne⟩
  | note t job _ hl ih => exact ih.log hl.silent (hl.returnsOnly ih)
  | touch _ hcore ih => exact ih.stay hcore.alike (congrArg Usage.toolCalls hcore.usage)
  | save t job _ _ ih => exact ih.save
  | unknown _ ih => exact ih.stay ⟨rfl, rfl, rfl, rfl, rfl⟩ rfl
  | @stop v p s status reason _ hstop ih =>
      exact ih.over rfl rfl rfl rfl (hstop.abandoned (ih.memory p s rfl).point)
  | fail e _ ih => exact ih.over rfl rfl rfl rfl fun _ => trivial
  | begin _ hnone ih =>
      refine ih.step ⟨Nat.le_refl _, Nat.le_refl _, Limits.Le.refl _, List.prefix_refl _⟩
        ⟨.inl (Nat.le_refl _), .inl (Nat.le_refl _)⟩ rfl (fun hne => absurd hnone hne)
        (fun _ hne => absurd hnone hne) ⟨hnone, rfl⟩
  | dispatch _ _ _ _ hlimit ih =>
      exact ih.work ⟨rfl, rfl, rfl, rfl, rfl⟩ trivial trivial (Nat.le_succ _) (.inr hlimit)
  | @send v s k name args t job _ _ ih =>
      have hcalled : Standing (.live (.called k name args) s) v :=
        ih.go ⟨rfl, rfl, rfl, rfl, rfl⟩ trivial trivial rfl
      exact hcalled.log trivial trivial
  | @answer v s k name args t job result _ ih =>
      have htold : Standing (.live (.told k name args result) s) v :=
        ih.go ⟨rfl, rfl, rfl, rfl, rfl⟩ trivial trivial rfl
      exact htold.log trivial trivial
  | internal _ _ _ ih => exact ih.go ⟨rfl, rfl, rfl, rfl, rfl⟩ trivial trivial rfl
  | complete _ _ _ ih => exact ih.go ⟨rfl, rfl, rfl, rfl, rfl⟩ trivial trivial rfl
  | look _ _ _ _ ih => exact ih.go ⟨rfl, rfl, rfl, rfl, rfl⟩ trivial trivial rfl
  | search _ _ _ _ hlimit ih =>
      exact ih.work ⟨rfl, rfl, rfl, rfl, rfl⟩ trivial trivial (Nat.le_succ _) (.inr hlimit)
  | find _ _ _ ih => exact ih.go ⟨rfl, rfl, rfl, rfl, rfl⟩ trivial trivial rfl
  | requeue _ _ _ _ _ _ ih => exact ih.go ⟨rfl, rfl, rfl, rfl, rfl⟩ trivial trivial rfl
  | adopt _ _ _ ih => exact ih.go ⟨rfl, rfl, rfl, rfl, rfl⟩ trivial trivial rfl
  | close _ _ _ ih => exact ih.go ⟨rfl, rfl, rfl, rfl, rfl⟩ trivial trivial rfl
  | @request v s request _ ha _ ih =>
      have hpoint := (ih.memory _ _ rfl).point
      refine ih.step ⟨Nat.le_succ _, Nat.le_refl _, Limits.Le.refl _, ?_⟩
        ⟨.inr (Nat.succ_le_of_lt ha.turn), .inl (Nat.le_refl _)⟩ rfl (fun _ => .inl hpoint.2)
        (fun hout => hout.elim) ⟨hpoint.2, ih.sentBelow⟩
      show _ <+: (s.modelRequests ++ [request]).map Request.asSent
      rw [List.map_append]
      exact List.prefix_append _ _
  | ask t job _ hw ih => exact ih.ask hw
  | @receive v s index request t job response _ ih =>
      have hheld := ih.memory _ _ rfl
      have hheard : Standing (.live (.heard response) s) v :=
        ih.step (Grows.refl s) (WithinLimits.refl s) rfl hheld.unanswered (fun hout => hout.elim)
          hheld.point
      exact hheard.log trivial trivial
  | @record v s response _ _ ih =>
      exact ih.hear (s.responded response) rfl rfl rfl rfl rfl (asSent_responded s response) Iff.rfl
  | @charge v s response total _ _ ih =>
      exact ih.hear ((s.responded response).charged total) rfl rfl rfl rfl rfl
        (asSent_responded s response) Iff.rfl
  | @speak v s response candidate content parts _ _ _ ih =>
      have hheld := ih.memory _ _ rfl
      exact ih.step ⟨Nat.le_refl _, Nat.le_refl _, Limits.Le.refl _, List.prefix_refl _⟩
        ⟨.inl (Nat.le_refl _), .inl (Nat.le_refl _)⟩ rfl hheld.unanswered (fun hout => hout.elim)
        hheld.point
  | @queue v s response candidate content parts tools calls _ _ _ _ _ ih =>
      have hheld := ih.memory _ _ rfl
      exact ih.step ⟨Nat.le_refl _, Nat.le_refl _, Limits.Le.refl _, List.prefix_refl _⟩
        ⟨.inl (Nat.le_refl _), .inl (Nat.le_refl _)⟩ rfl hheld.unanswered (fun hout => hout.elim)
        hheld.point

end AutonomyLab.Agent
