import AutonomyLab.Agent.Protocol

/-!
# The agent keeps to its protocol

Every function of the agent takes the history from one point of `Run` to another, whatever
it is answered and however its writes end, so every reachable view is such a history
(`run_of_reachable`).

* `KeepsTo`, `Keeps` — a program of the agent, from a memory and a view: where it ends in the
  protocol, and where it raises.
* one lemma for each function of the agent, in the order of the program.
-/

namespace AutonomyLab.Agent

open Json Process

variable {reprFloat : ℚ → String} {t : ℕ} {job : Job} {α β : Type} {m : Runner} {v : Seen}
  {E : Runner → Seen → Prop}

variable (reprFloat) in
/-- What the proof is relative to: the view is a history of agents. -/
def logic : Sequential.Logic (system reprFloat) where
  inv v := ∃ φ, Run reprFloat φ v
  idle v := Run reprFloat .idle v
  inv_init hw := ⟨.idle, hw ▸ .init⟩
  idle_init hw := hw ▸ .init

theorem Run.point {φ : Phase} (h : Run reprFloat φ v) : Sequential.Point (logic reprFloat) v :=
  ⟨⟨φ, h⟩, fun _ => h.die⟩

variable (reprFloat) in
/-- An agent is somewhere in its work. -/
def Live (m : Runner) (v : Seen) : Prop := ∃ p, Run reprFloat (.live p m.state) v

variable (reprFloat) in
/-- From the memory `m` and the view `v`, a program passes only through histories of agents;
`Q` holds where it returns, and `E` where it raises. -/
def KeepsTo (E : Runner → Seen → Prop) (t : ℕ) (job : Job) (p : Program α) (m : Runner)
    (Q : α → Runner → Seen → Prop) (v : Seen) : Prop :=
  Sequential.keeps (logic reprFloat) t job (p m) (fun r u => match r with
    | .ok b => Q b.1 b.2 u
    | .error e => E e.2 u) v

variable (reprFloat) in
/-- Where the program raises, the agent is somewhere in its work. -/
abbrev Keeps (t : ℕ) (job : Job) (p : Program α) (m : Runner) (Q : α → Runner → Seen → Prop)
    (v : Seen) : Prop := KeepsTo reprFloat (Live reprFloat) t job p m Q v

/-! ## Rules -/

section
variable {Q : β → Runner → Seen → Prop} {R : α → Runner → Seen → Prop}

theorem KeepsTo.bind {p : Program α} {q : α → Program β} (hp : KeepsTo reprFloat E t job p m R v)
    (hq : ∀ a m' u, R a m' u → KeepsTo reprFloat E t job (q a) m' Q u) :
    KeepsTo reprFloat E t job (p >>= q) m Q v := by
  refine Sequential.keeps_andThen (Sequential.keeps_mono hp ?_)
  rintro (e | b) u hu
  · exact hu
  · exact hq _ _ _ hu

theorem KeepsTo.mono {p : Program α} {R' : α → Runner → Seen → Prop}
    (hp : KeepsTo reprFloat E t job p m R v) (h : ∀ a m' u, R a m' u → R' a m' u) :
    KeepsTo reprFloat E t job p m R' v := by
  refine Sequential.keeps_mono hp ?_
  rintro (e | b) u hu
  · exact hu
  · exact h _ _ _ hu

/-- A program that is run for its result, exception included. -/
theorem KeepsTo.attempt {F : Runner → Seen → Prop} {p : Program α} {q : Except AgentError α → Program β}
    (hp : KeepsTo reprFloat F t job p m R v)
    (hok : ∀ a m' u, R a m' u → KeepsTo reprFloat E t job (q (.ok a)) m' Q u)
    (herror : ∀ e m' u, F m' u → KeepsTo reprFloat E t job (q (.error e)) m' Q u) :
    KeepsTo reprFloat E t job (p.attempt >>= q) m Q v := by
  refine Sequential.keeps_andThen (Sequential.keeps_attempt (Sequential.keeps_mono hp ?_))
  rintro (e | b) u hu
  · exact herror _ _ _ hu
  · exact hok _ _ _ hu

theorem KeepsTo.handled {E' : Runner → Seen → Prop} {p : Program β} {h : AgentError → Program β}
    (hp : KeepsTo reprFloat E' t job p m Q v)
    (herror : ∀ e m' u, E' m' u → KeepsTo reprFloat E t job (h e) m' Q u) :
    KeepsTo reprFloat E t job (tryCatch p h) m Q v := by
  refine Sequential.keeps_tryCatch (Sequential.keeps_mono hp ?_)
  rintro (e | b) u hu
  · exact herror _ _ _ hu
  · exact hu

theorem keeps_pure {b : β} (h : Q b m v) : KeepsTo reprFloat E t job (pure b) m Q v := h

theorem keeps_throw {e : AgentError} (h : E m v) :
    KeepsTo reprFloat E t job (throw e) m Q v := h

theorem keeps_get {q : Runner → Program β} (h : KeepsTo reprFloat E t job (q m) m Q v) :
    KeepsTo reprFloat E t job (get >>= q) m Q v := h

theorem keeps_state {q : AgentState → Program β} (h : KeepsTo reprFloat E t job (q m.state) m Q v) :
    KeepsTo reprFloat E t job (state >>= q) m Q v := h

theorem keeps_modify {f : Runner → Runner} {q : Unit → Program β}
    (h : KeepsTo reprFloat E t job (q ()) (f m) Q v) :
    KeepsTo reprFloat E t job (modify f >>= q) m Q v := h

theorem keeps_update {f : AgentState → AgentState} {q : Unit → Program β}
    (h : KeepsTo reprFloat E t job (q ()) { m with state := f m.state } Q v) :
    KeepsTo reprFloat E t job (update f >>= q) m Q v := h

theorem keeps_ask {q : α → Program β} (h : ∀ a, KeepsTo reprFloat E t job (q a) m Q v) :
    KeepsTo reprFloat E t job (Prog.ask α >>= q) m Q v := h

theorem keeps_ofPy {r : Except PyError α} {q : α → Program β} (hl : E m v)
    (h : ∀ a, r = .ok a → KeepsTo reprFloat E t job (q a) m Q v) :
    KeepsTo reprFloat E t job (ofPy r >>= q) m Q v := by
  cases r with
  | ok a => exact h a rfl
  | error e => exact hl

/-- The environment returns or raises. -/
theorem keeps_outside {q : α → Program β} (hl : E m v)
    (h : ∀ a, KeepsTo reprFloat E t job (q a) m Q v) :
    KeepsTo reprFloat E t job (outside α >>= q) m Q v := by
  rintro (e | a)
  · exact hl
  · exact h a

theorem keeps_emit {l : Act} {φ : Phase} {q : Unit → Program β}
    (h : Run reprFloat φ (v.log t job l v.world))
    (hq : KeepsTo reprFloat E t job (q ()) m Q (v.log t job l v.world)) :
    KeepsTo reprFloat E t job (Prog.emit l >>= q) m Q v := by
  rintro ⟨⟩ _ ⟨⟩
  exact ⟨h.point, hq⟩

end

/-! ## The checkpoint -/

section
variable {p : Point}

/-- A write of the checkpoint that returns has replaced the file. -/
theorem keepsTo_save (h : Run reprFloat (.live p m.state) v) (hp : p.savable)
    (hE : ∀ u, Run reprFloat (.live p m.state) u → E m u) :
    KeepsTo reprFloat E t job save m (fun _ m' u => m' = m ∧ Run reprFloat (.live p m.state) u ∧
      u.world = some m.state ∧ ∃ e, e.label = .save m.state ∧ u.hist = e :: v.hist) v := by
  have hdone := h.save t job hp
  refine keeps_state (keeps_ask ?_)
  rintro (_ | e | e)
  · rintro ⟨⟩ _ ⟨⟩
    exact ⟨hdone.point, rfl, hdone, rfl, _, rfl, rfl⟩
  · have hlost := h.note (l := .save m.state) t job ⟨rfl, hp⟩
    exact keeps_emit hlost (hE _ hlost)
  · rintro ⟨⟩ _ ⟨⟩
    exact ⟨hdone.point, hE _ hdone⟩

theorem keeps_save (h : Run reprFloat (.live p m.state) v) (hp : p.savable) :
    Keeps reprFloat t job save m (fun _ m' u => m' = m ∧ Run reprFloat (.live p m.state) u ∧
      u.world = some m.state ∧ ∃ e, e.label = .save m.state ∧ u.hist = e :: v.hist) v :=
  keepsTo_save h hp fun _ hu => ⟨p, hu⟩

/-- The memory with another state. -/
def Runner.withState (m : Runner) (s : AgentState) : Runner := { m with state := s }

/-- A change of the state that is saved. -/
theorem keeps_update_save {f : AgentState → AgentState} {q : Unit → Program β}
    {Q : β → Runner → Seen → Prop} (h : Run reprFloat (.live p (f m.state)) v) (hp : p.savable)
    (hq : ∀ u, Run reprFloat (.live p (f m.state)) u → u.world = some (f m.state) →
      Keeps reprFloat t job (q ()) (m.withState (f m.state)) Q u) :
    Keeps reprFloat t job (update f >>= fun _ => save >>= q) m Q v := by
  refine keeps_update ((keeps_save (m := m.withState (f m.state)) h hp).bind ?_)
  rintro ⟨⟩ _ u ⟨rfl, hu, hworld, -⟩
  exact hq u hu hworld

variable (reprFloat) in
/-- The run has stopped. -/
def Ended (m : Runner) (v : Seen) : Prop := Run reprFloat (.live .ending m.state) v

theorem keeps_stop {status : Status} {reason : String} (h : Run reprFloat (.live p m.state) v)
    (hp : p.mayStop m.state status) :
    Keeps reprFloat t job (stop status reason) m (fun _ => Ended reprFloat) v := by
  have hstop := h.stop status reason hp
  refine keeps_update ?_
  refine (keeps_save (m := m.withState (m.state.stopped status reason)) hstop trivial).mono ?_
  rintro ⟨⟩ m' u ⟨rfl, hu, -⟩
  exact hu

/-- A run that stops, and what the function it stops in returns. -/
theorem keeps_stop_return {b : β} {Q : β → Runner → Seen → Prop} {status : Status} {reason : String}
    (h : Run reprFloat (.live p m.state) v) (hp : p.mayStop m.state status)
    (hQ : ∀ m' u, Ended reprFloat m' u → Q b m' u) :
    Keeps reprFloat t job (stop status reason >>= fun _ => pure b) m Q v :=
  (keeps_stop h hp).bind fun _ m' u hu => keeps_pure (hQ m' u hu)

end

/-! ## The calls of a turn -/

/-- The state is as it was before the calls of a turn, in what they leave alone. -/
structure Frame (s₀ s : AgentState) : Prop where
  limits : s.limits = s₀.limits
  responses : s.modelResponses = s₀.modelResponses
  modelCalls : s.usage.modelCalls = s₀.usage.modelCalls

theorem Frame.refl (s : AgentState) : Frame s s := ⟨rfl, rfl, rfl⟩

theorem Core.frame {s₀ s s' : AgentState} (h : Core s s') (hf : Frame s₀ s) : Frame s₀ s' :=
  ⟨h.limits.trans hf.limits, h.modelResponses.trans hf.responses,
    (congrArg Usage.modelCalls h.usage).trans hf.modelCalls⟩

theorem Core.trans {s s' s'' : AgentState} (h : Core s s') (h' : Core s' s'') : Core s s'' :=
  ⟨h'.variant.trans h.variant, h'.model.trans h.model, h'.contract.trans h.contract,
    h'.limits.trans h.limits, h'.status.trans h.status, h'.usage.trans h.usage,
    h'.contents.trans h.contents, h'.modelRequests.trans h.modelRequests,
    h'.modelResponses.trans h.modelResponses, h'.pendingModel.trans h.pendingModel,
    h'.pendingTurn.trans h.pendingTurn⟩

/-- What the toolbox decides is taken over, and nothing else changes. -/
theorem keeps_takeTerminal {p : Point} {q : Unit → Program β} {Q : β → Runner → Seen → Prop}
    (h : Run reprFloat (.live p m.state) v)
    (hq : ∀ s, Core m.state s → Run reprFloat (.live p s) v →
      Keeps reprFloat t job (q ()) (m.withState s) Q v) :
    Keeps reprFloat t job (takeTerminal >>= q) m Q v := by
  have hterminal : Keeps reprFloat t job takeTerminal m (fun _ m' u => u = v ∧
      ∃ s, m' = m.withState s ∧ Core m.state s) v := by
    refine keeps_outside ⟨p, h⟩ ?_
    rintro (_ | terminal)
    · exact ⟨rfl, m.state, rfl, Core.refl _⟩
    · exact ⟨rfl, _, rfl, { Core.refl m.state with }⟩
  refine hterminal.bind ?_
  rintro ⟨⟩ _ u ⟨rfl, s, rfl, hcore⟩
  exact hq s hcore (h.touch hcore)

theorem keeps_recordIncident {k : Key} {args : Dict} (hk : k.lookup = false)
    (h : Run reprFloat (.live (.sending k "record_incident" args) m.state) v) :
    Keeps reprFloat t job (recordIncident args) m (fun result m' u => Core m.state m'.state ∧
      Run reprFloat (.live (.told k "record_incident" args result) m'.state) u) v := by
  refine keeps_state (keeps_ofPy ⟨_, h⟩ ?_)
  rintro (_ | incident) -
  · exact ⟨Core.refl _, h.internal _ hk⟩
  · have hcore : Core m.state (m.state.withIncident incident) := { Core.refl m.state with }
    exact ⟨hcore, (h.touch hcore).internal _ hk⟩

theorem keeps_callToolbox {k : Key} {name : String} {args : Dict}
    (h : Run reprFloat (.live (.sending k name args) m.state) v) (hw : v.world = some m.state) :
    Keeps reprFloat t job (callToolbox k name args) m (fun result m' u => m' = m ∧
      Run reprFloat (.live (.told k name args result) m.state) u) v := by
  have hsend := h.send t job hw
  refine keeps_emit hsend (keeps_outside ⟨_, hsend⟩ fun object => ?_)
  split
  · exact ⟨_, hsend⟩
  · refine keeps_ofPy ⟨_, hsend⟩ ?_
    rintro value -
    cases value with
    | obj result =>
        have hanswer := hsend.answer t job result
        exact keeps_emit hanswer ⟨rfl, hanswer⟩
    | _ => exact ⟨_, hsend⟩

theorem keeps_toolResult {k : Key} {name : String} {args : Dict}
    (hname : name = "record_incident" → k.lookup = false)
    (h : Run reprFloat (.live (.sending k name args) m.state) v) (hw : v.world = some m.state) :
    Keeps reprFloat t job (toolResult k name args) m (fun result m' u => Core m.state m'.state ∧
      Run reprFloat (.live (.told k name args result) m'.state) u) v := by
  unfold toolResult
  split
  · rename_i hincident
    subst hincident
    exact keeps_recordIncident (hname rfl) h
  · refine (keeps_callToolbox h hw).mono ?_
    rintro result _ u ⟨rfl, hu⟩
    exact ⟨Core.refl _, hu⟩

variable (reprFloat) in
/-- The agent works on the queue of a turn that began in the state `s₀`. -/
structure Working (s₀ : AgentState) (queue : List Pending) (m : Runner) (v : Seen) : Prop where
  run : Run reprFloat (.live .ready m.state) v
  queue : m.state.pendingTurn = some queue
  frame : Frame s₀ m.state

variable (reprFloat) in
/-- A call that was made, or the run that stopped over it. -/
def Called {γ : Type} (Q : γ → Runner → Seen → Prop) : Option γ → Runner → Seen → Prop
  | none => Ended reprFloat
  | some c => Q c

/-- A call is dispatched and its result noted, or the run stops. -/
theorem keeps_callTool {k : Key} {name : String} {args : Dict} {q : Progress → List Pending}
    {s₀ : AgentState} (h : Run reprFloat (.live .ready m.state) v) (hf : Frame s₀ m.state)
    (hsend : m.state.usage.toolCalls < m.state.limits.maxToolCalls →
      Run reprFloat (.live (.sending k name args)
        ((m.state.withQueue (q .dispatched)).attempted name args)) v)
    (hname : name = "record_incident" → k.lookup = false)
    (hdone : ∀ result s u, Run reprFloat (.live (.told k name args result) s) u →
      s.pendingTurn = some (q .dispatched) → s.modelResponses = s₀.modelResponses →
      Run reprFloat (.live .ready (s.withQueue (q (.completed result)))) u) :
    Keeps reprFloat t job (callTool job k name args fun progress s => s.withQueue (q progress)) m
      (Called reprFloat fun result => Working reprFloat s₀ (q (.completed result))) v := by
  unfold callTool
  refine keeps_state ?_
  split
  · exact keeps_stop_return h (by simp [Point.mayStop]) fun _ _ hu => hu
  rename_i hbudget
  refine keeps_update_save (hsend (not_le.1 hbudget)) trivial fun u hu hworld => ?_
  refine (keeps_toolResult hname hu hworld).bind ?_
  rintro result m₁ u₁ ⟨hcore, htold⟩
  have hframe : Frame s₀ m₁.state := hcore.frame ⟨hf.limits, hf.responses, hf.modelCalls⟩
  have hready : Run reprFloat
      (.live .ready ((m₁.state.withQueue (q (.completed result))).recorded name args result)) u₁ :=
    (hdone result m₁.state u₁ htold hcore.pendingTurn hframe.responses).touch
      { Core.refl (m₁.state.withQueue (q (.completed result))) with }
  refine keeps_update ?_
  refine keeps_takeTerminal (m := ⟨_, m₁.interruptRequested⟩) hready fun s hcore₂ hready₂ => ?_
  refine (keeps_save (m := ⟨s, m₁.interruptRequested⟩) hready₂ trivial).bind ?_
  rintro ⟨⟩ _ u₃ ⟨rfl, hready₃, -⟩
  refine keeps_outside ⟨_, hready₃⟩ fun _ => keeps_modify ?_
  exact ⟨hready₃, hcore₂.pendingTurn, hcore₂.frame ⟨hframe.limits, hframe.responses, hframe.modelCalls⟩⟩

section
variable {s₀ : AgentState} {prior rest : List Pending} {pending : Pending}

variable (reprFloat) in
/-- The fate of a repair that may have been sent is known: it is done, or to be sent. -/
def Settled (s₀ : AgentState) (prior rest : List Pending) (pending : Pending) (m : Runner) (v : Seen) :
    Prop :=
  Working reprFloat s₀ (prior ++ pending :: rest) m v ∧
    (pending.progress.isCompleted = false → pending.progress = .queued)

theorem keeps_settle {operationId : Json} {result : Dict}
    (h : Working reprFloat s₀ (prior ++ pending :: rest) m v)
    (hrecovery : pending.recovery = some (.completed result))
    (hid : pending.call.args.lookup "operation_id" = some operationId) :
    Keeps reprFloat t job
      (settle (fun pending s => s.withQueue (prior ++ pending :: rest)) pending operationId result) m
      (Called reprFloat (Settled reprFloat s₀ prior rest)) v := by
  unfold settle
  split
  · exact keeps_stop_return h.run (by simp [Point.mayStop]) fun _ _ hu => hu
  rename_i payload hpayload
  split
  · rename_i hnot
    have hready := h.run.requeue h.queue hrecovery hid hpayload hnot
    refine keeps_update_save hready trivial fun u hu _ => ?_
    exact ⟨⟨hu, rfl, ⟨h.frame.limits, h.frame.responses, h.frame.modelCalls⟩⟩, fun _ => rfl⟩
  split
  · exact keeps_stop_return h.run (by simp [Point.mayStop]) fun _ _ hu => hu
  split
  · exact keeps_stop_return h.run (by simp [Point.mayStop]) fun _ _ hu => hu
  · have hadopt := h.run.adopt h.queue hrecovery
    have hready : Run reprFloat (.live .ready ((m.state.put prior
        { pending with progress := .completed result, recovered := true } rest).recoveredEvent
          pending.call result)) v := hadopt.touch { Core.refl (m.state.put prior _ rest) with }
    refine keeps_update_save hready trivial fun u hu _ => ?_
    exact ⟨⟨hu, rfl, ⟨h.frame.limits, h.frame.responses, h.frame.modelCalls⟩⟩, nofun⟩

theorem keeps_recoverProposal (h : Working reprFloat s₀ (prior ++ pending :: rest) m v)
    (hsent : pending.progress = .dispatched) :
    Keeps reprFloat t job (recoverProposal job ⟨s₀.modelResponses.length, prior.length, false⟩
      (fun pending s => s.withQueue (prior ++ pending :: rest)) pending) m
      (Called reprFloat (Settled reprFloat s₀ prior rest)) v := by
  unfold recoverProposal
  refine keeps_ofPy ⟨_, h.run⟩ fun operationId hsub => ?_
  obtain ⟨fs, hfs, hid⟩ := subscript_eq_ok hsub
  cases hfs
  split
  · rename_i result hrecovery
    exact keeps_settle h hrecovery hid
  rename_i hnone
  have hopen : (pending.recovery.getD .queued).isCompleted = false := by
    rcases hrec : pending.recovery with _ | (_ | _ | result)
    · rfl
    · rfl
    · rfl
    · exact absurd hrec (hnone result)
  have hlook : Run reprFloat (.live .ready (m.state.put prior
      { pending with recovery := some (pending.recovery.getD .queued) } rest)) v :=
    h.run.look h.queue hsent hopen
  refine keeps_update (keeps_state ?_)
  split
  · exact keeps_stop_return hlook (by simp [Point.mayStop]) fun _ _ hu => hu
  rename_i hbudget
  refine (keeps_callTool (m := m.withState _) (q := fun progress =>
    prior ++ { pending with recovery := some progress } :: rest) hlook
    ⟨h.frame.limits, h.frame.responses, h.frame.modelCalls⟩ (fun hlt => ?_)
    (fun hname => absurd hname (by decide)) ?_).bind ?_
  · have hsearch := hlook.search rfl hsent hid hlt
    rw [show (m.state.put prior _ rest).modelResponses = s₀.modelResponses from h.frame.responses]
      at hsearch
    exact hsearch
  · intro result s u htold hqueue hresponses
    have hentry : Entry s prior { pending with recovery := some .dispatched } rest := hqueue
    have hready := htold.find hentry (by rw [hresponses])
    exact hready
  · rintro (_ | result) m' u hu
    · exact hu
    · exact keeps_settle hu rfl hid

theorem keeps_unlessInterrupted {Q : Pending → Runner → Seen → Prop}
    (h : Run reprFloat (.live .ready m.state) v) (hQ : Q pending m v) :
    Keeps reprFloat t job (unlessInterrupted pending) m (Called reprFloat Q) v := by
  unfold unlessInterrupted
  refine keeps_get ?_
  split
  · exact keeps_stop_return h (by simp [Point.mayStop]) fun _ _ hu => hu
  · exact hQ

theorem keeps_dispatch (h : Working reprFloat s₀ (prior ++ pending :: rest) m v)
    (hrepair : pending.call.name = "propose_repair" → pending.progress.isCompleted = false →
      pending.progress = .queued) :
    Keeps reprFloat t job (dispatch job ⟨s₀.modelResponses.length, prior.length, false⟩
      (fun pending s => s.withQueue (prior ++ pending :: rest)) pending) m
      (Called reprFloat fun pending => Working reprFloat s₀ (prior ++ pending :: rest)) v := by
  unfold dispatch
  split
  · exact keeps_unlessInterrupted h.run h
  rename_i hopen
  rw [Bool.not_eq_true] at hopen
  refine (keeps_callTool (q := fun progress => prior ++ { pending with progress := progress } :: rest)
    h.run h.frame (fun hlt => ?_) (fun _ => rfl) ?_).bind ?_
  · have hdispatch := h.run.dispatch h.queue hopen (fun hname => hrepair hname hopen) hlt
    rw [h.frame.responses] at hdispatch
    exact hdispatch
  · intro result s u htold hqueue hresponses
    have hentry : Entry s prior { pending with progress := .dispatched } rest := hqueue
    have hready := htold.complete hentry (by rw [hresponses])
    exact hready
  · rintro (_ | result) m' u hu
    · exact hu
    · exact keeps_unlessInterrupted hu.run hu

theorem keeps_processCall (h : Working reprFloat s₀ (prior ++ pending :: rest) m v) :
    Keeps reprFloat t job (processCall job ⟨s₀.modelResponses.length, prior.length, false⟩
      (fun pending s => s.withQueue (prior ++ pending :: rest)) pending) m
      (Called reprFloat fun pending => Working reprFloat s₀ (prior ++ pending :: rest)) v := by
  unfold processCall
  split
  · rename_i hsent
    split
    · refine (keeps_recoverProposal h hsent).bind ?_
      rintro (_ | settled) m' u hu
      · exact hu
      · refine (keeps_unlessInterrupted (Q := Settled reprFloat s₀ prior rest) hu.1.run hu).bind ?_
        rintro (_ | same) m'' u' hu'
        · exact hu'
        · exact keeps_dispatch hu'.1 fun _ => hu'.2
    · rename_i hname
      exact keeps_dispatch h fun hname' => absurd hname' hname
  · rename_i hprogress
    refine keeps_dispatch h fun _ hopen => ?_
    cases hp : pending.progress with
    | queued => rfl
    | dispatched => exact absurd hp hprogress
    | completed result =>
        rw [hp] at hopen
        cases hopen

end

theorem keeps_processCalls {s₀ : AgentState} {prior queue : List Pending}
    (h : Working reprFloat s₀ (prior ++ queue) m v) :
    Keeps reprFloat t job (processCalls job s₀.modelResponses.length prior queue) m
      (Called reprFloat (Working reprFloat s₀)) v := by
  induction queue generalizing prior m v with
  | nil =>
      rw [List.append_nil] at h
      exact h
  | cons pending rest ih =>
      unfold processCalls
      split
      · rw [List.append_cons] at h
        exact ih h
      split
      · exact keeps_stop_return h.run (by simp [Point.mayStop]) fun _ _ hu => hu
      refine (keeps_processCall h).bind ?_
      rintro (_ | pending') m' u hu
      · exact hu
      · have hu' : Working reprFloat s₀ (prior ++ pending' :: rest) m' u := hu
        rw [List.append_cons] at hu'
        exact ih hu'

variable (reprFloat) in
/-- The agent is between two turns, the first of which began in the state `s₀`. -/
structure Between (s₀ : AgentState) (m : Runner) (v : Seen) : Prop where
  run : Run reprFloat (.live .ready m.state) v
  idle : m.state.pendingTurn = none
  frame : Frame s₀ m.state

variable (reprFloat) in
/-- The agent goes on, or its run has stopped. -/
def Passed (Q : Runner → Seen → Prop) : Bool → Runner → Seen → Prop
  | false => Ended reprFloat
  | true => Q

theorem keeps_processTools {queue : List Pending} (h : Run reprFloat (.live .ready m.state) v)
    (hqueue : m.state.pendingTurn = some queue) :
    Keeps reprFloat t job (processTools job queue) m
      (Passed reprFloat (Between reprFloat m.state)) v := by
  unfold processTools
  refine keeps_state ?_
  have hworking : Working reprFloat m.state ([] ++ queue) m v := ⟨h, hqueue, Frame.refl _⟩
  refine (keeps_processCalls hworking).bind ?_
  rintro (_ | done) m' u hu
  · exact hu
  have hu' : Working reprFloat m.state done m' u := hu
  refine keeps_ofPy ⟨_, hu'.run⟩ fun parts hparts => ?_
  refine keeps_update_save (hu'.run.close hu'.queue hparts) trivial fun u' hu'' _ => ?_
  exact ⟨hu'', rfl, ⟨hu'.frame.limits, hu'.frame.responses, hu'.frame.modelCalls⟩⟩

/-! ## Requests to the model -/

variable (reprFloat) in
/-- The agent is where it was, up to its notes. -/
def Noted (s : AgentState) (m : Runner) (v : Seen) : Prop :=
  Core s m.state ∧ Run reprFloat (.live .ready m.state) v

theorem keeps_failPreflight {γ : Type} {Q : γ → Runner → Seen → Prop} {stage : String} {e : AgentError}
    (h : Run reprFloat (.live .ready m.state) v) :
    Keeps reprFloat t job (failPreflight stage e >>= fun _ => pure none) m (Called reprFloat Q) v := by
  unfold failPreflight
  split
  · exact ⟨_, h⟩
  · have hnoted := h.touch { Core.refl m.state with :
      Core m.state ((m.state.updatePreflight fun preflight => { preflight with
        phase := .failed stage e.details.1 e.details.2 }).withDetails e) }
    exact (keeps_update (keeps_stop (m := m.withState _) hnoted (by simp [Point.mayStop]))).bind
      fun _ _ _ hu => hu

theorem keeps_reserve {retained : List ℕ} (h : Run reprFloat (.live .ready m.state) v) :
    KeepsTo reprFloat (Noted reprFloat m.state) t job (reserve retained) m
      (fun tokens m' u => Noted reprFloat m.state m' u ∧
        ∃ sources, preservedThoughtTokens m.state (some retained) = .ok (tokens, sources)) v := by
  unfold reserve
  refine keeps_state (keeps_ofPy ⟨Core.refl _, h⟩ ?_)
  rintro ⟨tokens, sources⟩ heq
  have hcore : Core m.state (m.state.updatePreflight fun preflight => { preflight with
      prior := some ⟨tokens, m.state.modelResponses.length, retained, sources⟩ }) :=
    { Core.refl m.state with }
  refine keeps_update ((keepsTo_save (m := m.withState _) (h.touch hcore) trivial
    fun u hu => ⟨hcore, hu⟩).bind ?_)
  rintro ⟨⟩ _ u ⟨rfl, hu, -⟩
  exact ⟨⟨hcore, hu⟩, sources, heq⟩

theorem keeps_countTokens {inputs : Inputs} (h : Run reprFloat (.live .ready m.state) v) :
    KeepsTo reprFloat (Noted reprFloat m.state) t job (countTokens inputs) m
      (fun n m' u => Noted reprFloat m.state m' u ∧ ∃ e value, e.label = .counted inputs value ∧
        count? value = some n ∧ u.hist = e :: u.hist.tail) v := by
  unfold countTokens
  have hcount := h.note (l := .count inputs) t job rfl
  refine keeps_emit hcount (keeps_outside ⟨Core.refl _, hcount⟩ fun value => ?_)
  have hcounted := hcount.note (l := .counted inputs value) t job rfl
  refine keeps_emit hcounted ?_
  split
  · rename_i n hn
    exact ⟨⟨Core.refl _, hcounted⟩, _, value, rfl, hn, rfl⟩
  · exact ⟨Core.refl _, hcounted⟩

theorem Core.requestContext {s s' : AgentState} (h : Core s s') (policy : Policy) :
    requestContext reprFloat s' policy = requestContext reprFloat s policy := by
  unfold Agent.requestContext
  rw [h.contents, h.modelResponses]

theorem Core.preservedThoughtTokens {s s' : AgentState} (h : Core s s') :
    preservedThoughtTokens s' = preservedThoughtTokens s := by
  funext retained
  unfold Agent.preservedThoughtTokens
  rw [h.usage, h.modelResponses]

theorem Core.admitted {s s' : AgentState} {request : Request} (h : Core s s')
    (ha : Admitted reprFloat s request) : Admitted reprFloat s' request where
  turn := by
    rw [h.usage, h.limits]
    exact ha.turn
  idle := h.pendingTurn.trans ha.idle
  context := by
    rw [h.requestContext, h.preservedThoughtTokens, h.contract]
    exact ha.context
  output := by
    rw [h.limits, h.usage]
    exact ha.output
  positive := ha.positive
  pending := ha.pending

theorem Core.between {s₀ : AgentState} {m m' : Runner} {u : Seen} (h : Core m.state m'.state)
    (hb : Between reprFloat s₀ m v) (hu : Run reprFloat (.live .ready m'.state) u) :
    Between reprFloat s₀ m' u :=
  ⟨hu, h.pendingTurn.trans hb.idle, h.frame hb.frame⟩

theorem keeps_preflight {s₀ : AgentState} {declarations : List Json} (h : Between reprFloat s₀ m v)
    (hturn : m.state.usage.modelCalls < m.state.limits.maxTurns) :
    Keeps reprFloat t job (preflight reprFloat declarations
      (m.state.limits.maxTotalTokens - m.state.usage.totalTokens)) m
      (Called reprFloat fun request m' u => Between reprFloat s₀ m' u ∧
        Admitted reprFloat m'.state request ∧ Counted u.hist request) v := by
  unfold preflight
  refine keeps_state ?_
  have hcontext := h.run.note (l := .context m.state) t job ⟨rfl, rfl, h.idle⟩
  refine keeps_emit hcontext (keeps_ofPy ⟨_, hcontext⟩ ?_)
  rintro ⟨context, retained⟩ hrequest
  have hcore₁ : Core m.state (m.state.withPreflight ⟨m.state.modelRequests.length, m.state.model,
      .pending, m.state.limits.maxTotalTokens - m.state.usage.totalTokens, none⟩) :=
    { Core.refl m.state with }
  refine keeps_update_save (hcontext.touch hcore₁) trivial fun u₁ hu₁ _ => ?_
  refine KeepsTo.attempt (keeps_reserve (m := m.withState _) hu₁) ?_ ?_
  swap
  · rintro e m₂ u₂ ⟨-, hu₂⟩
    exact keeps_failPreflight hu₂
  rintro preserved m₂ u₂ ⟨⟨hcore₂, hu₂⟩, sources, hpreserved⟩
  refine KeepsTo.attempt (keeps_countTokens hu₂) ?_ ?_
  swap
  · rintro e m₃ u₃ ⟨-, hu₃⟩
    exact keeps_failPreflight hu₃
  rintro inputTokens m₃ u₃ ⟨⟨hcore₃, hu₃⟩, e, value, hlabel, hvalue, hhist₃⟩
  have hcore₄ : Core m₃.state (m₃.state.updatePreflight fun preflight => { preflight with
      phase := .counted inputTokens (inputTokens + preserved) (min m.state.limits.maxOutputTokens
        (m.state.limits.maxTotalTokens - m.state.usage.totalTokens - (inputTokens + preserved))) }) :=
    { Core.refl m₃.state with }
  have hcore : Core m.state _ := ((hcore₁.trans hcore₂).trans hcore₃).trans hcore₄
  refine keeps_update ((keeps_save (m := m₃.withState _) (hu₃.touch hcore₄) trivial).bind ?_)
  rintro ⟨⟩ _ u₄ ⟨rfl, hu₄, -, saved, hsaved, hhist₄⟩
  split
  · exact keeps_stop_return (m := m₃.withState _) hu₄ (by simp [Point.mayStop]) fun _ _ hu => hu
  rename_i hpositive
  have hcounted : ∀ d ∈ [saved], ∃ s, d.label = .save s := by
    intro d hd
    obtain rfl := List.mem_singleton.1 hd
    exact ⟨_, hsaved⟩
  rw [hhist₃] at hhist₄
  refine ⟨hcore.between h hu₄, hcore.admitted ?_, [saved], e, _, value, hhist₄, hcounted, hlabel, hvalue⟩
  exact {
    turn := hturn
    idle := h.idle
    context := ⟨retained, sources, hrequest, hcore₁.preservedThoughtTokens ▸ hpreserved⟩
    output := rfl
    positive := not_lt.1 hpositive
    pending := rfl }

variable (reprFloat) in
/-- A turn after the state `s₀`, at a point: one model call has been made since. -/
structure Later (s₀ : AgentState) (p : Point) (m : Runner) (v : Seen) : Prop where
  run : Run reprFloat (.live p m.state) v
  limits : m.state.limits = s₀.limits
  modelCalls : m.state.usage.modelCalls = s₀.usage.modelCalls + 1

theorem keeps_clientGenerate {request : Request} {s : AgentState}
    (h : Run reprFloat (.live (.asking s request) (s.requested request)) v)
    (hw : v.world = some (s.requested request)) (hm : m.state = s.requested request) :
    Keeps reprFloat t job (clientGenerate s.modelRequests.length request) m
      (fun outcome m' u => m' = m ∧ match outcome.response? with
        | some response => Run reprFloat (.live (.heard response) m.state) u
        | none => Run reprFloat (.live (.asked s.modelRequests.length request) m.state) u) v := by
  unfold clientGenerate
  have hask := h.ask t job hw
  refine keeps_emit hask (keeps_ask fun outcome => ?_)
  rw [← hm] at hask
  cases hresponse : outcome.response? with
  | none =>
      refine ⟨rfl, ?_⟩
      rw [hresponse]
      exact hask
  | some response =>
      have hreceive := hask.receive t job response
      refine keeps_emit hreceive ⟨rfl, ?_⟩
      rw [hresponse]
      exact hreceive

theorem keeps_recordResponse {s₀ : AgentState} {object : Object} {response : Json}
    (hcopy : object.copy = .ok response) (h : Later reprFloat s₀ (.heard response) m v) :
    Keeps reprFloat t job (recordResponse object) m
      (Passed reprFloat (Later reprFloat s₀ (.charged response))) v := by
  unfold recordResponse
  rw [hcopy]
  refine keeps_ofPy ⟨_, h.run⟩ ?_
  rintro _ ⟨⟩
  refine keeps_update ?_
  split
  · rename_i hunknown
    refine keeps_update ?_
    exact keeps_stop_return (m := m.withState _) (h.run.record hunknown).unknown
      (by simp [Point.mayStop, Status.final]) fun _ _ hu => hu
  rename_i total htotal
  have hcharge := h.run.charge htotal
  refine keeps_update (keeps_state ?_)
  split
  · exact keeps_stop_return (m := m.withState _) hcharge (by simp [Point.mayStop, Status.final])
      fun _ _ hu => hu
  split
  · exact keeps_stop_return (m := m.withState _) hcharge (by simp [Point.mayStop, Status.final])
      fun _ _ hu => hu
  · exact ⟨hcharge, h.limits, h.modelCalls⟩

theorem response_of_filter_none {e : AgentError} {object : Option Object}
    (h : object.filter Object.isDict = none) : (Outcome.raised e object).response? = none := by
  rcases object with _ | (response | isDict)
  · rfl
  · have hdict : response.isDict = false := by
      by_contra hne
      rw [Bool.not_eq_false] at hne
      simp [Option.filter, Object.isDict, hne] at h
    simp [Outcome.response?, hdict]
  · rfl

theorem response_of_filter_some {e : AgentError} {object : Option Object} {response : Json}
    (hinterrupt : e.interrupt = false) (h : object.filter Object.isDict = some (.json response)) :
    (Outcome.raised e object).response? = some response := by
  obtain ⟨rfl, hdict⟩ := Option.filter_eq_some_iff.1 h
  have hdict' : response.isDict = true := hdict
  simp [Outcome.response?, hinterrupt, hdict']

theorem keeps_generate {s₀ : AgentState} {request : Request} (h : Between reprFloat s₀ m v)
    (ha : Admitted reprFloat m.state request) (hc : Counted v.hist request) :
    Keeps reprFloat t job (generate request) m
      (Called reprFloat fun response => Later reprFloat s₀ (.charged response)) v := by
  unfold generate
  refine keeps_state ?_
  have hlimits : (m.state.requested request).limits = s₀.limits := h.frame.limits
  have hcalls : (m.state.requested request).usage.modelCalls = s₀.usage.modelCalls + 1 :=
    congrArg (· + 1) h.frame.modelCalls
  refine keeps_update_save (h.run.request ha hc) trivial fun u₁ hu₁ hworld => ?_
  refine (keeps_clientGenerate (m := m.withState _) hu₁ hworld rfl).bind ?_
  rintro outcome m₂ u₂ ⟨rfl, houtcome⟩
  cases outcome with
  | returned object =>
      cases object with
      | other isDict =>
          unfold recordResponse
          exact ⟨_, houtcome⟩
      | json response =>
          have hcopy : (Object.json response).copy = .ok response := rfl
          refine (keeps_recordResponse hcopy ⟨houtcome, hlimits, hcalls⟩).bind ?_
          rintro (_ | _) m₃ u₃ hu₃
          · exact hu₃
          · exact hu₃
  | raised e object =>
      have hlive : Live reprFloat (m.withState (m.state.requested request)) u₂ := by
        cases hresponse : (Outcome.raised e object).response? with
        | none =>
            rw [hresponse] at houtcome
            exact ⟨_, houtcome⟩
        | some response =>
            rw [hresponse] at houtcome
            exact ⟨_, houtcome⟩
      simp only
      split
      · exact hlive
      rename_i hinterrupt
      rw [Bool.not_eq_true] at hinterrupt
      refine keeps_update ?_
      split
      · rename_i object' hfilter
        cases object' with
        | other isDict => exact ⟨_, hlive.choose_spec.touch { Core.refl (m.state.requested request) with }⟩
        | json response =>
            rw [response_of_filter_some hinterrupt hfilter] at houtcome
            have hheard : Run reprFloat (.live (.heard response)
                ((m.state.requested request).withDetails e)) u₂ :=
              houtcome.touch { Core.refl (m.state.requested request) with }
            have hcopy : (Object.json response).copy = .ok response := rfl
            refine (keeps_recordResponse (m := m.withState _) hcopy ⟨hheard, hlimits, hcalls⟩).bind ?_
            rintro (_ | _) m₃ u₃ hu₃
            · exact hu₃
            · have hcharged : Later reprFloat s₀ (.charged response) m₃ u₃ := hu₃
              exact keeps_stop_return hcharged.run (by simp [Point.mayStop, Status.final])
                fun _ _ hu => hu
      · rename_i hfilter
        rw [response_of_filter_none hfilter] at houtcome
        have hasked : Run reprFloat (.live (.asked m.state.modelRequests.length request)
            ((m.state.requested request).withDetails e)) u₂ :=
          houtcome.touch { Core.refl (m.state.requested request) with }
        refine keeps_update ?_
        exact keeps_stop_return (m := m.withState _) hasked.unknown rfl fun _ _ hu => hu

/-! ## The calls of a response -/

theorem keeps_queueCalls {s₀ : AgentState} {tools : Dict} {response : Json}
    (h : Later reprFloat s₀ (.charged response) m v) :
    Keeps reprFloat t job (queueCalls tools response) m
      (Passed reprFloat (Later reprFloat s₀ .ready)) v := by
  unfold queueCalls
  split
  · exact keeps_stop_return h.run (by simp [Point.mayStop, Status.final]) fun _ _ hu => hu
  rename_i candidate hcandidate
  split
  · exact keeps_stop_return h.run (by simp [Point.mayStop, Status.final]) fun _ _ hu => hu
  rename_i content parts hcontent
  have hspeak := h.run.speak hcandidate hcontent
  refine keeps_update ?_
  split
  · exact ⟨_, hspeak⟩
  · exact ⟨_, hspeak⟩
  · exact keeps_stop_return (m := m.withState _) hspeak (by simp [Point.mayStop, Status.final])
      fun _ _ hu => hu
  · exact keeps_stop_return (m := m.withState _) hspeak (by simp [Point.mayStop, Status.final])
      fun _ _ hu => hu
  · rename_i calls hne hcalls
    have hqueue := hspeak.queue hcandidate hcontent hcalls hne
    refine keeps_update_save (m := m.withState _) hqueue trivial fun u hu _ => ?_
    exact ⟨hu, h.limits, h.modelCalls⟩

/-! ## The loop -/

section
variable {declarations : List Json} {tools : Dict}

theorem keeps_terminalDecision {p : Point} (h : Run reprFloat (.live p m.state) v) :
    Keeps reprFloat t job terminalDecision m (fun _ m' u => m' = m ∧ u = v) v := by
  have houtside : Keeps reprFloat t job toolboxTerminal m (fun _ m' u => m' = m ∧ u = v) v := by
    rintro (e | terminal)
    · exact ⟨p, h⟩
    · exact ⟨rfl, rfl⟩
  unfold terminalDecision
  refine keeps_state ?_
  split
  · split
    · exact ⟨rfl, rfl⟩
    · exact houtside
  · exact houtside

theorem keeps_askModel {s₀ : AgentState} (h : Between reprFloat s₀ m v)
    (hturn : m.state.usage.modelCalls < m.state.limits.maxTurns) :
    Keeps reprFloat t job (askModel reprFloat declarations tools
      (m.state.limits.maxTotalTokens - m.state.usage.totalTokens)) m
      (Passed reprFloat (Later reprFloat s₀ .ready)) v := by
  unfold askModel
  refine (keeps_preflight h hturn).bind ?_
  rintro (_ | request) m₁ u₁ hu₁
  · exact hu₁
  refine (keeps_generate hu₁.1 hu₁.2.1 hu₁.2.2).bind ?_
  rintro (_ | response) m₂ u₂ hu₂
  · exact hu₂
  · exact keeps_queueCalls hu₂

theorem keeps_continueTurn {s₀ : AgentState} (h : Between reprFloat s₀ m v) :
    Keeps reprFloat t job (continueTurn reprFloat declarations tools) m
      (Passed reprFloat fun m' u => Later reprFloat s₀ .ready m' u ∧
        s₀.usage.modelCalls < s₀.limits.maxTurns) v := by
  unfold continueTurn
  refine (keeps_terminalDecision h.run).bind ?_
  rintro (_ | terminal) m u ⟨rfl, rfl⟩
  · refine keeps_state ?_
    split
    · exact keeps_stop_return h.run (by simp [Point.mayStop]) fun _ _ hu => hu
    rename_i hturn
    have hturn₀ : s₀.usage.modelCalls < s₀.limits.maxTurns := by
      rw [← h.frame.modelCalls, ← h.frame.limits]
      exact not_le.1 hturn
    split
    · exact keeps_stop_return h.run (by simp [Point.mayStop]) fun _ _ hu => hu
    refine (keeps_askModel h (not_le.1 hturn)).mono ?_
    rintro (_ | _) m' u hu
    · exact hu
    · exact ⟨hu, hturn₀⟩
  · have hterminal : Run reprFloat (.live .ready (m.state.withTerminal terminal)) u :=
      h.run.touch { Core.refl m.state with }
    refine keeps_update ?_
    exact keeps_stop_return (m := m.withState _) hterminal (by simp [Point.mayStop]) fun _ _ hu => hu

/-- The body of the loop makes one model call, where the turns allow it. -/
theorem keeps_turn (h : Run reprFloat (.live .ready m.state) v) :
    Keeps reprFloat t job (turn reprFloat job declarations tools) m
      (Passed reprFloat fun m' u => Later reprFloat m.state .ready m' u ∧
        m.state.usage.modelCalls < m.state.limits.maxTurns) v := by
  unfold turn
  refine keeps_state ?_
  cases hqueue : m.state.pendingTurn with
  | some queue =>
      refine (keeps_processTools h hqueue).bind ?_
      rintro (_ | _) m₁ u₁ hu₁
      · exact hu₁
      · exact keeps_continueTurn hu₁
  | none => exact keeps_continueTurn ⟨h, hqueue, Frame.refl _⟩

/-- The loop ends before it has been gone through `n` times. -/
theorem keeps_loop {n : ℕ} (h : Run reprFloat (.live .ready m.state) v)
    (hle : m.state.usage.modelCalls ≤ m.state.limits.maxTurns)
    (hn : m.state.limits.maxTurns < n + m.state.usage.modelCalls) :
    Keeps reprFloat t job (loop reprFloat job declarations tools n) m (fun _ => Ended reprFloat) v := by
  induction n generalizing m v with
  | zero => omega
  | succ n ih =>
      unfold loop
      refine (keeps_turn h).bind ?_
      rintro (_ | _) m₁ u₁ hu₁
      · exact hu₁
      · have hlater : Later reprFloat m.state .ready m₁ u₁ := hu₁.1
        have hturn : m.state.usage.modelCalls < m.state.limits.maxTurns := hu₁.2
        have hlimits := hlater.limits
        have hcalls := hlater.modelCalls
        refine ih hlater.run ?_ ?_
        · rw [hcalls, hlimits]
          omega
        · rw [hcalls, hlimits]
          omega

theorem Core.closed {s s' : AgentState} (h : Core s s') : s'.closed = s.closed := by
  unfold AgentState.closed
  rw [h.status, h.pendingTurn]

theorem keeps_run (h : Run reprFloat (.live .opened m.state) v) (hopen : m.state.closed = false) :
    Keeps reprFloat t job (run reprFloat job declarations tools) m (fun _ => Ended reprFloat) v := by
  unfold run
  refine keeps_takeTerminal h fun s hcore hs => keeps_state ?_
  split
  · exact keeps_stop (m := m.withState s) hs ⟨trivial, fun _ => .inl rfl⟩
  split
  · refine keeps_update ?_
    exact keeps_stop (m := m.withState _) hs.unknown ⟨trivial, fun _ => .inr rfl⟩
  rename_i hpending
  have hnone : s.pendingModel = none := by
    cases hp : s.pendingModel with
    | none => rfl
    | some index => exact absurd (by rw [show (m.withState s).state = s from rfl, hp]; rfl) hpending
  split
  · exact keeps_stop (m := m.withState s) hs ⟨trivial, fun hne => absurd hnone hne⟩
  split
  · rename_i hclosed
    have hsame : s.closed = m.state.closed := hcore.closed
    rw [hopen] at hsame
    exact absurd hclosed (by rw [show (m.withState s).state = s from rfl, hsame]; decide)
  split
  · exact keeps_stop (m := m.withState s) hs ⟨trivial, fun hne => absurd hnone hne⟩
  split
  · exact keeps_stop (m := m.withState s) hs ⟨trivial, fun hne => absurd hnone hne⟩
  rename_i hbudget
  refine keeps_update_save (m := m.withState s) (hs.begin hnone) trivial fun u hu _ => ?_
  have hle : s.usage.modelCalls ≤ s.limits.maxTurns := not_lt.1 fun hlt => hbudget (.inr hlt)
  refine keeps_loop hu hle ?_
  show s.limits.maxTurns < s.limits.maxTurns + 1 + s.usage.modelCalls
  omega

end

/-! ## Processes -/

variable (reprFloat) in
/-- The process is anywhere. -/
def Somewhere (v : Seen) : Prop := ∃ φ, Run reprFloat φ v

theorem keeps_checkpointFailure {reason : String} {φ : Phase} {E : Runner → Seen → Prop}
    (h : Run reprFloat φ v) (hφ : φ.resting) :
    KeepsTo reprFloat E t job (checkpointFailure reason) m (fun _ _ => Somewhere reprFloat) v := by
  have hfailure := h.refuse (l := .failure reason) t job hφ trivial
  have hreturned := hfailure.refuse (l := .returned .blocked) t job hφ (.inl rfl)
  refine keeps_emit hfailure ?_
  rintro ⟨⟩ _ ⟨⟩
  exact ⟨hreturned.point, φ, hreturned⟩

theorem keeps_work {contract : Contract} (h : Run reprFloat (.live .opened m.state) v)
    (hopen : m.state.closed = false) :
    Keeps reprFloat t job (work reprFloat job contract) m (fun _ _ => Somewhere reprFloat) v := by
  have hrun : ∀ declarations tools, Keeps reprFloat t job (do
      save
      run reprFloat job declarations tools
      Prog.emit (.returned (← state).status)) m (fun _ _ => Somewhere reprFloat) v := by
    intro declarations tools
    refine (keeps_save h trivial).bind ?_
    rintro ⟨⟩ _ u ⟨rfl, hu, -⟩
    refine (keeps_run hu hopen).bind ?_
    rintro ⟨⟩ m' u' hu'
    have hended : Run reprFloat (.live .ending m'.state) u' := hu'
    have hreturned := hended.note (l := .returned m'.state.status) t job (.inl ⟨rfl, rfl⟩)
    refine keeps_state ?_
    rintro ⟨⟩ _ ⟨⟩
    exact ⟨hreturned.point, _, hreturned⟩
  unfold work
  refine keeps_ofPy ⟨_, h⟩ fun declarations _ => keeps_ofPy ⟨_, h⟩ fun tools _ => ?_
  split
  · split
    · have hfailure := h.note (l := .failure "invalid_interrupt_tool") t job rfl
      have hreturned := hfailure.note (l := .returned .blocked) t job (.inr ⟨rfl, rfl⟩)
      refine keeps_emit hfailure ?_
      rintro ⟨⟩ _ ⟨⟩
      exact ⟨hreturned.point, _, hreturned⟩
    · exact hrun declarations tools
  · exact hrun declarations tools

theorem keeps_handle {e : AgentError} (h : Live reprFloat m v) :
    KeepsTo reprFloat (fun _ => Somewhere reprFloat) t job (handle e) m
      (fun _ _ => Somewhere reprFloat) v := by
  obtain ⟨p, h⟩ := h
  have hfailed := h.fail e
  unfold handle
  refine keeps_update ?_
  have hreturned : ∀ u, Run reprFloat (.live .ending (m.state.failed e)) u →
      KeepsTo reprFloat (fun _ => Somewhere reprFloat) t job (Prog.emit (.returned .error))
        (m.withState (m.state.failed e)) (fun _ _ => Somewhere reprFloat) u := by
    intro u hu
    have hdone := hu.note (l := .returned .error) t job (.inl ⟨rfl, rfl⟩)
    rintro ⟨⟩ _ ⟨⟩
    exact ⟨hdone.point, _, hdone⟩
  refine KeepsTo.attempt (F := fun m' u => m' = m.withState (m.state.failed e) ∧
    Run reprFloat (.live .ending (m.state.failed e)) u)
    (keepsTo_save (m := m.withState (m.state.failed e)) hfailed trivial fun u hu => ⟨rfl, hu⟩) ?_ ?_
  · rintro ⟨⟩ _ u ⟨rfl, hu, -⟩
    exact hreturned u hu
  · rintro e' _ u ⟨rfl, hu⟩
    change KeepsTo reprFloat _ t job (if e'.interrupt then throw e' else Prog.emit (.returned .error))
      _ _ u
    split
    · exact ⟨_, hu⟩
    · exact hreturned u hu

theorem keeps_opened {contract : Contract} (h : Run reprFloat (.live .opened m.state) v)
    (hopen : m.state.closed = false) :
    KeepsTo reprFloat (fun _ => Somewhere reprFloat) t job
      (tryCatch (work reprFloat job contract) handle) m (fun _ _ => Somewhere reprFloat) v :=
  (keeps_work h hopen).handled fun _ _ _ hu => keeps_handle hu

theorem closed_resumed (s : AgentState) (limits : Limits) : (s.resumed limits).closed = s.closed := rfl

theorem keeps_resume {contract : Contract} {saved : AgentState} (h : Run reprFloat .loading v)
    (hw : v.world = some saved) :
    KeepsTo reprFloat (fun _ => Somewhere reprFloat) t job (resume reprFloat job contract saved) m
      (fun _ _ => Somewhere reprFloat) v := by
  unfold resume
  refine keeps_ask fun unreadable => ?_
  split
  · exact keeps_checkpointFailure h trivial
  split
  · exact keeps_checkpointFailure h trivial
  split
  · exact keeps_checkpointFailure h trivial
  split
  · exact keeps_checkpointFailure h trivial
  split
  · rename_i hclosed
    have hreturned := h.refuse (l := .returned saved.status) t job trivial
      (.inr ⟨saved, hw, hclosed, rfl⟩)
    rintro ⟨⟩ _ ⟨⟩
    exact ⟨hreturned.point, _, hreturned⟩
  · rename_i hclosed
    rw [Bool.not_eq_true] at hclosed
    refine keeps_update ?_
    exact keeps_opened (m := m.withState (saved.resumed job.limits)) (h.resume job hw hclosed)
      ((closed_resumed saved _).trans hclosed)

theorem keeps_runAgent (h : Run reprFloat .idle v) :
    KeepsTo reprFloat (fun _ => Somewhere reprFloat) t job (runAgent reprFloat job) m
      (fun _ _ => Somewhere reprFloat) v := by
  unfold runAgent
  split
  · exact keeps_checkpointFailure h trivial
  rename_i contract _
  have hload := h.load t job
  rintro _ _ ⟨⟩
  refine ⟨hload.point, ?_⟩
  cases hw : v.world with
  | some saved =>
      rw [hw] at hload
      exact keeps_resume hload rfl
  | none =>
      rw [hw] at hload
      exact keeps_opened (m := m.withState _) (hload.create job contract rfl) rfl

/-- Agents keep to their protocol. -/
theorem sound : Sequential.Sound (logic reprFloat) := by
  rintro t job p v - hidle - rfl
  refine Sequential.keeps_mono (keeps_runAgent hidle) ?_
  rintro (e | b) u ⟨φ, hu⟩
  · exact hu.die
  · exact hu.die

/-- Every reachable view is a history of agents. -/
theorem run_of_reachable {c : Sequential.Conf Checkpoint Act Job (AgentError × Runner) (Unit × Runner)}
    (h : Sequential.Reachable (system reprFloat) c) : ∃ φ, Run reprFloat φ c.view := h.inv sound

end AutonomyLab.Agent
