import AutonomyLab.Agent.Recovery
import AutonomyLab.Agent.Transcript

/-!
# The history an agent asks with

Wherever the loop puts a request together, the messages of the state are those of complete
exchanges, however often the investigation was interrupted and resumed.

* `Given` — where the result of a call comes from.
* `Past`, `Shape` — exchanges that have taken place, and a state with a turn after them.
* `Transcribed` — the invariant, by induction over the protocol.
* `compaction_loses_nothing` — **the context of every request**.
-/

namespace AutonomyLab.Agent

open Json Process

/-! ## Results -/

/-- A lookup of the operation of a call has answered. -/
def GivenByLookup (history : List Done) (k : Key) (call : Call) (result : Dict) : Prop :=
  ∃ e ∈ history, ∃ operationId, call.args.lookup "operation_id" = some operationId ∧
    e.label = .answered k.asLookup "get_operation" [("operation_id", operationId)] result

/-- Where the result of a call comes from: the agent itself, the toolbox, or a lookup of the
operation of the call. -/
def Given (history : List Done) (k : Key) (call : Call) (result : Dict) : Prop :=
  call.name = "record_incident" ∨
  (∃ e ∈ history, e.label = .answered k call.name call.args result) ∨
  GivenByLookup history k call result

/-- The results in an entry of the queue have been given. -/
structure Answers (history : List Done) (k : Key) (pending : Pending) : Prop where
  completed : ∀ result, pending.progress = .completed result → Given history k pending.call result
  recovery : ∀ result, pending.recovery = some (.completed result) →
    GivenByLookup history k pending.call result

variable {reprFloat : ℚ → String} {φ : Phase} {v : Seen} {p p' : Point} {s s' : AgentState} {e : Done}
  {history : List Done} {t : ℕ} {job : Job} {l : Act} {k : Key} {call : Call} {result : Dict}
  {prior rest : List Pending} {pending pending' : Pending} {xs : List Exchange}

theorem GivenByLookup.mono {history' : List Done} (h : GivenByLookup history k call result)
    (hsub : history ⊆ history') : GivenByLookup history' k call result := by
  obtain ⟨d, hd, h⟩ := h
  exact ⟨d, hsub hd, h⟩

theorem Given.mono {history' : List Done} (h : Given history k call result) (hsub : history ⊆ history') :
    Given history' k call result := by
  obtain h | ⟨d, hd, hl⟩ | h := h
  · exact .inl h
  · exact .inr (.inl ⟨d, hsub hd, hl⟩)
  · exact .inr (.inr (h.mono hsub))

theorem Answers.cons (h : Answers history k pending) : Answers (e :: history) k pending where
  completed result hr := (h.completed result hr).mono (List.subset_cons_self e history)
  recovery result hr := (h.recovery result hr).mono (List.subset_cons_self e history)

/-! ## States -/

/-- Exchanges that have taken place. -/
structure Past (history : List Done) (xs : List Exchange) : Prop where
  valid : ∀ x ∈ xs, x.Valid
  given : ∀ i x, xs[i]? = some x → ∀ j call, x.calls[j]? = some call →
    Given history ⟨i + 1, j, false⟩ call.1 call.2

/-- Every exchange is complete, or the calls of the last are worked on. -/
inductive Shape (history : List Done) (s : AgentState) : Prop
  | idle (xs : List Exchange) : Past history xs → s.pendingTurn = none →
      s.modelResponses = xs.map Exchange.response →
      s.contents = firstContent :: xs.flatMap Exchange.messages → Shape history s
  | turn (xs : List Exchange) (response : Json) (content : Dict) (queue : List Pending) :
      Past history xs → s.pendingTurn = some queue →
      CallsOf response content (queue.map Pending.call) →
      s.modelResponses = xs.map Exchange.response ++ [response] →
      s.contents = firstContent :: xs.flatMap Exchange.messages ++ [content] →
      (∀ i pending, queue[i]? = some pending → Answers history (s.key i) pending) → Shape history s

/-- A response is recorded after complete exchanges; `content` is its content, if that is
among the messages. -/
def Open (history : List Done) (s : AgentState) (response : Json) (content : Option Dict) : Prop :=
  ∃ xs, Past history xs ∧ s.pendingTurn = none ∧
    s.modelResponses = xs.map Exchange.response ++ [response] ∧
    s.contents = firstContent :: xs.flatMap Exchange.messages ++ content.toList

/-- A state that is worked on again has its messages in order. -/
def Whole (history : List Done) (s : AgentState) : Prop :=
  Shape history s ∨ s.pendingTurn = none ∧ s.closed = true

/-- The responses of a state have been received. -/
def Received (history : List Done) (s : AgentState) : Prop :=
  ∀ response ∈ s.modelResponses, ∃ e ∈ history, ∃ index, e.label = .received index response

/-- What holds at a point. -/
def Point.Shape (history : List Done) (s : AgentState) : Point → Prop
  | .told k name args result => Agent.Shape history s ∧
      (name = "record_incident" ∨ ∃ e ∈ history, e.label = .answered k name args result)
  | .asking _ _ | .asked _ _ => Agent.Shape history s ∧ s.pendingTurn = none
  | .heard response => Agent.Shape history s ∧ s.pendingTurn = none ∧
      ∃ e ∈ history, ∃ index, e.label = .received index response
  | .recorded response | .charged response => Open history s response none
  | .spoken response => ∃ candidate content parts, Open history s response (some content) ∧
      candidate? response = some candidate ∧ content? candidate = some (content, parts)
  | .ending => Whole history s
  | .opened | .ready | .sending _ _ _ | .called _ _ _ => Agent.Shape history s

/-- A state at the head of the loop, with no calls to be worked on: one that is about to be
asked with, or one that is saved there. -/
def Act.heads (l : Act) (s : AgentState) : Prop :=
  l = .context s ∨
    l = .save s ∧ s.status = .running ∧ s.pendingModel = none ∧ s.pendingTurn = none

/-- What holds of such a state. -/
def Complete (history : List Done) (s : AgentState) : Prop :=
  (∃ xs, Transcript s xs ∧ Past history xs) ∧ Received history s

/-- What holds of a history, and of its last agent. -/
structure Transcribed (φ : Phase) (v : Seen) : Prop where
  disk : ∀ s, v.world = some s → Whole v.hist s ∧ Received v.hist s
  memory : ∀ p s, φ = .live p s → p.Shape v.hist s ∧ Received v.hist s
  history : Always (fun e before => ∀ s, e.label.heads s → Complete before s) v.hist

/-! ## Another act -/

theorem Past.mono {history' : List Done} (h : Past history xs) (hsub : history ⊆ history') :
    Past history' xs where
  valid := h.valid
  given i x hx j call hcall := (h.given i x hx j call hcall).mono hsub

theorem Past.cons (h : Past history xs) : Past (e :: history) xs := h.mono (List.subset_cons_self e history)

theorem Shape.cons (h : Shape history s) : Shape (e :: history) s := by
  cases h with
  | idle xs hpast hqueue hresponses hcontents => exact .idle xs hpast.cons hqueue hresponses hcontents
  | turn xs response content queue hpast hqueue hcalls hresponses hcontents hanswers =>
      exact .turn xs response content queue hpast.cons hqueue hcalls hresponses hcontents
        fun i pending hi => (hanswers i pending hi).cons

theorem Open.cons {response : Json} {content : Option Dict} (h : Open history s response content) :
    Open (e :: history) s response content := by
  obtain ⟨xs, hpast, h⟩ := h
  exact ⟨xs, hpast.cons, h⟩

theorem Whole.cons (h : Whole history s) : Whole (e :: history) s := h.imp_left Shape.cons

theorem Received.cons (h : Received history s) : Received (e :: history) s := by
  intro response hr
  obtain ⟨d, hd, hl⟩ := h response hr
  exact ⟨d, List.mem_cons_of_mem _ hd, hl⟩

theorem Point.Shape.cons (h : p.Shape history s) : p.Shape (e :: history) s := by
  cases p with
  | told k name args result =>
      refine ⟨h.1.cons, h.2.imp_right ?_⟩
      rintro ⟨d, hd, hl⟩
      exact ⟨d, List.mem_cons_of_mem _ hd, hl⟩
  | asking s₀ request | asked index request => exact ⟨h.1.cons, h.2⟩
  | heard response =>
      obtain ⟨hshape, hidle, d, hd, hl⟩ := h
      exact ⟨hshape.cons, hidle, d, List.mem_cons_of_mem _ hd, hl⟩
  | recorded response | charged response => exact Open.cons h
  | spoken response =>
      obtain ⟨candidate, content, parts, hopen, hcontent⟩ := h
      exact ⟨candidate, content, parts, hopen.cons, hcontent⟩
  | ending => exact Whole.cons h
  | opened | ready | sending k name args | called k name args => exact Agent.Shape.cons h

theorem Point.savable.whole (hp : p.savable) (h : p.Shape history s) : Whole history s := by
  cases p with
  | opened | ready | sending k name args => exact .inl h
  | asking s₀ request => exact .inl h.1
  | ending => exact h
  | _ => exact hp.elim

theorem Shape.complete (h : Shape history s) (hidle : s.pendingTurn = none) (hreceived : Received history s) :
    Complete history s := by
  cases h with
  | idle xs hpast _ hresponses hcontents =>
      exact ⟨⟨xs, ⟨hpast.valid, hresponses, hcontents⟩, hpast⟩, hreceived⟩
  | turn xs response content queue _ hqueue => cases hqueue.symm.trans hidle

theorem Whole.complete (h : Whole history s) (hidle : s.pendingTurn = none) (hrunning : s.status = .running)
    (hreceived : Received history s) : Complete history s := by
  rcases h with hshape | ⟨-, hclosed⟩
  · exact hshape.complete hidle hreceived
  · unfold AgentState.closed at hclosed
    rw [hrunning] at hclosed
    cases hclosed

/-- An act that is about states that are complete, and leaves the checkpoint as it is or as
the state in memory. -/
theorem Transcribed.log {w : Checkpoint} (h : Transcribed φ v)
    (hl : ∀ s, l.heads s → Complete v.hist s)
    (hw : w = v.world ∨ ∃ p s, φ = .live p s ∧ p.savable ∧ w = some s) :
    Transcribed φ (v.log t job l w) where
  disk := by
    intro s hs
    obtain rfl : w = some s := hs
    rcases hw with hw | ⟨p, s', rfl, hp, hw⟩
    · obtain ⟨hwhole, hreceived⟩ := h.disk s hw.symm
      exact ⟨hwhole.cons, hreceived.cons⟩
    · cases hw
      obtain ⟨hshape, hreceived⟩ := h.memory p s rfl
      exact ⟨(hp.whole hshape).cons, hreceived.cons⟩
  memory := by
    intro p s hφ
    obtain ⟨hshape, hreceived⟩ := h.memory p s hφ
    exact ⟨hshape.cons, hreceived.cons⟩
  history := ⟨hl, h.history⟩

/-- An act that is about no state at the head of the loop. -/
def Act.headless : Act → Prop
  | .context _ | .save _ => False
  | _ => True

theorem Act.headless.complete (h : l.headless) (s : AgentState) (hs : l.heads s) : Complete history s := by
  rcases hs with rfl | ⟨rfl, -⟩
  · exact h.elim
  · exact h.elim

/-- A write of the checkpoint. -/
theorem Transcribed.save {w : Checkpoint} (h : Transcribed (.live p s) v) (hp : p.savable)
    (hw : w = v.world ∨ w = some s) : Transcribed (.live p s) (v.log t job (.save s) w) := by
  obtain ⟨hshape, hreceived⟩ := h.memory p s rfl
  refine h.log ?_ (hw.imp_right fun hw => ⟨p, s, rfl, hp, hw⟩)
  rintro s' (⟨⟨⟩⟩ | ⟨⟨⟩, hrunning, -, hidle⟩)
  exact (hp.whole hshape).complete hidle hrunning hreceived

/-- A step of the agent that leaves the file and the responses alone. -/
theorem Transcribed.step (h : Transcribed (.live p s) v) (hresponses : s'.modelResponses = s.modelResponses)
    (hp : p'.Shape v.hist s') : Transcribed (.live p' s') v := by
  refine { h with memory := ?_ }
  rintro _ _ ⟨⟩
  refine ⟨hp, ?_⟩
  unfold Received
  rw [hresponses]
  exact (h.memory p s rfl).2

/-! ## Steps -/

theorem Shape.of_same (h : Shape history s) (hqueue : s'.pendingTurn = s.pendingTurn)
    (hresponses : s'.modelResponses = s.modelResponses) (hcontents : s'.contents = s.contents) :
    Shape history s' := by
  cases h with
  | idle xs hpast hidle hr hc => exact .idle xs hpast (hqueue.trans hidle) (hresponses.trans hr) (hcontents.trans hc)
  | turn xs response content queue hpast hq hcalls hr hc hanswers =>
      refine .turn xs response content queue hpast (hqueue.trans hq) hcalls (hresponses.trans hr)
        (hcontents.trans hc) ?_
      unfold AgentState.key
      rw [hresponses]
      exact hanswers

theorem Shape.answers (h : Shape history s) (hentry : Entry s prior pending rest) :
    Answers history (s.key prior.length) pending := by
  cases h with
  | idle xs _ hidle => cases hidle.symm.trans hentry
  | turn xs response content queue _ hqueue _ _ _ hanswers =>
      cases hqueue.symm.trans hentry
      refine hanswers _ _ ?_
      rw [List.getElem?_append_right (Nat.le_refl _), Nat.sub_self]
      rfl

/-- An entry takes the place of another with the same call. -/
theorem Shape.put (h : Shape history s) (hentry : Entry s prior pending rest)
    (hcall : pending'.call = pending.call) (hanswers' : Answers history (s.key prior.length) pending') :
    Shape history (s.put prior pending' rest) := by
  cases h with
  | idle xs _ hidle => cases hidle.symm.trans hentry
  | turn xs response content queue hpast hqueue hcalls hresponses hcontents hanswers =>
      cases hqueue.symm.trans hentry
      have hsame : (prior ++ pending' :: rest).map Pending.call =
          (prior ++ pending :: rest).map Pending.call := by
        rw [List.map_append, List.map_append, List.map_cons, List.map_cons, hcall]
      refine .turn xs response content (prior ++ pending' :: rest) hpast rfl (hsame ▸ hcalls) hresponses
        hcontents ?_
      intro i other hi
      by_cases hlast : i = prior.length
      · subst hlast
        rw [List.getElem?_append_right (Nat.le_refl _), Nat.sub_self] at hi
        cases hi
        exact hanswers'
      · rw [getElem?_other prior rest pending pending' hlast] at hi
        exact hanswers i other hi

/-- The results of a turn that is complete. -/
theorem exists_results {queue : List Pending} {parts : List Json}
    (h : queue.map functionResponse = parts.map .ok) : ∃ calls : List (Call × Dict),
      calls.map Prod.fst = queue.map Pending.call ∧
      parts = calls.map (fun call => reported call.1 call.2) ∧
      ∀ (j : ℕ) (call : Call × Dict), calls[j]? = some call → ∃ pending : Pending,
        queue[j]? = some pending ∧ pending.call = call.1 ∧
        pending.progress = .completed call.2 := by
  induction queue generalizing parts with
  | nil =>
      cases parts with
      | nil =>
          refine ⟨[], rfl, rfl, ?_⟩
          rintro j call ⟨⟩
      | cons part parts => cases h
  | cons pending queue ih =>
      cases parts with
      | nil => cases h
      | cons part parts =>
          obtain ⟨hpart, hparts⟩ := List.cons.inj h
          obtain ⟨calls, hcalls, rfl, hresults⟩ := ih hparts
          obtain ⟨result, hprogress, rfl⟩ := functionResponse_eq_ok hpart
          refine ⟨(pending.call, result) :: calls, congrArg _ hcalls, rfl, ?_⟩
          intro j call hj
          cases j with
          | zero =>
              cases hj
              exact ⟨pending, rfl, rfl, hprogress⟩
          | succ j => exact hresults j call hj

/-- The results of a turn go to the model, and with them the exchange is complete. -/
theorem Shape.close {queue : List Pending} {parts : List Json} (h : Shape history s)
    (hqueue : s.pendingTurn = some queue) (hparts : queue.mapM functionResponse = .ok parts) :
    Shape history (s.withResults parts) := by
  cases h with
  | idle xs _ hidle => cases hidle.symm.trans hqueue
  | turn xs response content queue' hpast hqueue' hcalls hresponses hcontents hanswers =>
      cases hqueue'.symm.trans hqueue
      obtain ⟨calls, hfst, rfl, hresults⟩ := exists_results (mapM_eq_ok.1 hparts)
      have hlength : s.modelResponses.length = xs.length + 1 := by
        rw [hresponses, List.length_append, List.length_map, List.length_singleton]
      refine .idle (xs ++ [⟨response, content, calls⟩]) ⟨?_, ?_⟩ rfl ?_ ?_
      · intro x hx
        rcases List.mem_append.1 hx with hx | hx
        · exact hpast.valid x hx
        · obtain rfl := List.mem_singleton.1 hx
          show CallsOf response content (calls.map Prod.fst)
          rw [hfst]
          exact hcalls
      · intro i x hx j call hcall
        by_cases hi : i < xs.length
        · rw [List.getElem?_append_left hi] at hx
          exact hpast.given i x hx j call hcall
        · obtain ⟨hlt, -⟩ := List.getElem?_eq_some_iff.1 hx
          rw [List.length_append, List.length_singleton] at hlt
          obtain rfl : i = xs.length := by omega
          rw [List.getElem?_concat_length] at hx
          cases hx
          obtain ⟨pending, hpending, hpendingCall, hprogress⟩ := hresults j call hcall
          have hgiven := (hanswers j pending hpending).completed call.2 hprogress
          unfold AgentState.key at hgiven
          rw [hlength, hpendingCall] at hgiven
          exact hgiven
      · show s.modelResponses = _
        rw [hresponses, List.map_append]
        rfl
      · show s.contents ++ _ = _
        rw [hcontents, List.flatMap_append]
        simp [Exchange.messages, Exchange.results]

theorem Transcribed.dispatch (h : Transcribed (.live .ready s) v) (hentry : Entry s prior pending rest) :
    Transcribed (.live (.sending (s.key prior.length) pending.call.name pending.call.args)
      ((s.put prior { pending with progress := .dispatched } rest).attempted pending.call.name
        pending.call.args)) v := by
  have hshape : Shape v.hist s := (h.memory _ _ rfl).1
  have hput : Shape v.hist (s.put prior { pending with progress := .dispatched } rest) := by
    refine hshape.put hentry rfl ⟨?_, (hshape.answers hentry).recovery⟩
    rintro result ⟨⟩
  exact h.step rfl (hput.of_same rfl rfl rfl)

theorem Transcribed.complete {name : String} {args : Dict}
    (h : Transcribed (.live (.told k name args result) s) v)
    (htraced : Traced (.live (.told k name args result) s) v) (hentry : Entry s prior pending rest)
    (hk : k = s.key prior.length) :
    Transcribed (.live .ready (s.put prior { pending with progress := .completed result } rest)) v := by
  subst hk
  obtain ⟨⟨hshape, htold⟩, -⟩ := h.memory _ _ rfl
  refine h.step rfl (hshape.put hentry rfl ⟨?_, (hshape.answers hentry).recovery⟩)
  rintro _ ⟨⟩
  rcases (htraced.memory _ _ rfl).2 with ⟨other, hdispatched⟩ | ⟨operationId, other, hsearched, -⟩
  · cases hdispatched.entry.symm.trans hentry.entryAt
    rw [hdispatched.name_eq, hdispatched.args_eq] at htold
    exact htold.imp_right .inl
  · cases hsearched.key

theorem Transcribed.look {recovery : Progress} (h : Transcribed (.live .ready s) v)
    (hentry : Entry s prior pending rest) (hrecovery : recovery.isCompleted = false) :
    Transcribed (.live .ready (s.put prior { pending with recovery := some recovery } rest)) v := by
  have hshape : Shape v.hist s := (h.memory _ _ rfl).1
  refine h.step rfl (hshape.put hentry rfl ⟨(hshape.answers hentry).completed, ?_⟩)
  rintro result ⟨⟩
  cases hrecovery

theorem Transcribed.find {name : String} {args : Dict}
    (h : Transcribed (.live (.told k name args result) s) v)
    (htraced : Traced (.live (.told k name args result) s) v) (hentry : Entry s prior pending rest)
    (hk : k = (s.key prior.length).asLookup) :
    Transcribed (.live .ready (s.put prior { pending with recovery := some (.completed result) } rest))
      v := by
  subst hk
  obtain ⟨⟨hshape, htold⟩, -⟩ := h.memory _ _ rfl
  refine h.step rfl (hshape.put hentry rfl ⟨(hshape.answers hentry).completed, ?_⟩)
  rintro _ ⟨⟩
  rcases (htraced.memory _ _ rfl).2 with ⟨other, hdispatched⟩ | ⟨operationId, other, hsearched, -⟩
  · cases hdispatched.key
  · cases hsearched.entry.symm.trans hentry.entryAt
    rw [hsearched.name_eq, hsearched.args_eq] at htold
    rcases htold with hname | ⟨d, hd, hl⟩
    · exact absurd hname (by decide)
    · exact ⟨d, hd, operationId, hsearched.operation, hl⟩

theorem Transcribed.requeue (h : Transcribed (.live .ready s) v) (hentry : Entry s prior pending rest) :
    Transcribed (.live .ready (s.put prior { pending with progress := .queued, recovery := none } rest))
      v := by
  have hshape : Shape v.hist s := (h.memory _ _ rfl).1
  refine h.step rfl (hshape.put hentry rfl ⟨?_, ?_⟩)
  · rintro result ⟨⟩
  · rintro result ⟨⟩

theorem Transcribed.adopt (h : Transcribed (.live .ready s) v) (hentry : Entry s prior pending rest)
    (hrecovery : pending.recovery = some (.completed result)) :
    Transcribed (.live .ready (s.put prior
      { pending with progress := .completed result, recovered := true } rest)) v := by
  have hshape : Shape v.hist s := (h.memory _ _ rfl).1
  have hanswers := hshape.answers hentry
  refine h.step rfl (hshape.put hentry rfl ⟨?_, hanswers.recovery⟩)
  rintro _ ⟨⟩
  exact .inr (.inr (hanswers.recovery result hrecovery))

/-- A response is recorded. -/
theorem Transcribed.hear {response : Json} (h : Transcribed (.live (.heard response) s) v)
    (hresponses : s'.modelResponses = s.modelResponses ++ [response])
    (hqueue : s'.pendingTurn = s.pendingTurn) (hcontents : s'.contents = s.contents)
    (hp : Open v.hist s' response none → p'.Shape v.hist s') : Transcribed (.live p' s') v := by
  obtain ⟨⟨hshape, hidle, hheard⟩, hreceived⟩ := h.memory _ _ rfl
  refine { h with memory := ?_ }
  rintro _ _ ⟨⟩
  refine ⟨hp ?_, ?_⟩
  · cases hshape with
    | idle xs hpast _ hr hc =>
        refine ⟨xs, hpast, hqueue.trans hidle, hr ▸ hresponses, ?_⟩
        rw [hcontents, hc]
        exact (List.append_nil _).symm
    | turn xs response' content queue _ hq => cases hq.symm.trans hidle
  · intro r hr
    rw [hresponses] at hr
    rcases List.mem_append.1 hr with hr | hr
    · exact hreceived r hr
    · obtain rfl := List.mem_singleton.1 hr
      exact hheard

theorem Transcribed.speak {response : Json} {candidate content : Dict} {parts : List Json}
    (h : Transcribed (.live (.charged response) s) v) (hcandidate : candidate? response = some candidate)
    (hcontent : content? candidate = some (content, parts)) :
    Transcribed (.live (.spoken response) (s.withContent content)) v := by
  obtain ⟨xs, hpast, hidle, hresponses, hcontents⟩ := (h.memory _ _ rfl).1
  refine h.step rfl ⟨candidate, content, parts, ⟨xs, hpast, hidle, hresponses, ?_⟩, hcandidate, hcontent⟩
  show s.contents ++ [content] = _
  rw [hcontents]
  simp

theorem Transcribed.queue {response : Json} {candidate content : Dict} {parts : List Json} {tools : Dict}
    {calls : List Call} (h : Transcribed (.live (.spoken response) s) v)
    (hcandidate : candidate? response = some candidate)
    (hcontent : content? candidate = some (content, parts)) (hcalls : checkCalls tools parts = .ok calls)
    (hne : calls ≠ []) : Transcribed (.live .ready (s.withQueue (calls.map .queued))) v := by
  obtain ⟨candidate', content', parts', ⟨xs, hpast, -, hresponses, hcontents⟩, hcandidate', hcontent'⟩ :=
    (h.memory _ _ rfl).1
  cases hcandidate.symm.trans hcandidate'
  cases hcontent.symm.trans hcontent'
  have hmap : (calls.map Pending.queued).map Pending.call = calls := by
    rw [List.map_map]
    exact List.map_id _
  refine h.step rfl (Agent.Shape.turn xs response content (calls.map .queued) hpast rfl ?_ hresponses
    hcontents ?_)
  · rw [hmap]
    exact ⟨candidate, parts, tools, hcandidate, hcontent, hcalls, hne⟩
  · intro i pending hi
    rw [List.getElem?_map] at hi
    obtain ⟨call, -, rfl⟩ := Option.map_eq_some_iff.1 hi
    refine ⟨?_, ?_⟩
    · rintro result ⟨⟩
    · rintro result ⟨⟩

/-! ## Histories -/

/-- What a state may be in whose run is over. -/
theorem Point.Shape.over (h : p.Shape history s) (hqueue : s'.pendingTurn = s.pendingTurn)
    (hresponses : s'.modelResponses = s.modelResponses) (hcontents : s'.contents = s.contents)
    (hclosed : s'.pendingTurn = none → s'.closed = true) : Whole history s' := by
  have hshape : Agent.Shape history s → Whole history s' :=
    fun hs => .inl (hs.of_same hqueue hresponses hcontents)
  have hidle : s.pendingTurn = none → Whole history s' := by
    intro hidle
    have hidle' := hqueue.trans hidle
    exact .inr ⟨hidle', hclosed hidle'⟩
  cases p with
  | told k name args result => exact hshape h.1
  | asking s₀ request | asked index request | heard response => exact hshape h.1
  | recorded response | charged response =>
      obtain ⟨xs, -, hnone, -⟩ := h
      exact hidle hnone
  | spoken response =>
      obtain ⟨candidate, content, parts, ⟨xs, -, hnone, -⟩, -⟩ := h
      exact hidle hnone
  | ending => exact Or.elim h hshape fun hnone => hidle hnone.1
  | opened | ready | sending k name args | called k name args => exact hshape h

/-- A run stops in good order, or for good. -/
theorem Point.mayStop.whole {status : Status} {reason : String} (hstop : p.mayStop s status)
    (h : p.Shape history s) : Whole history (s.stopped status reason) := by
  have hfinal : status.final → (s.stopped status reason).closed = true := by
    intro hf
    cases status with
    | completed | blocked | budgetExhausted | indeterminate => rfl
    | _ => exact hf.elim
  cases p with
  | opened => exact .inl (Agent.Shape.of_same h rfl rfl rfl)
  | ready => exact .inl (Agent.Shape.of_same h rfl rfl rfl)
  | asked index request => exact .inl (h.1.of_same rfl rfl rfl)
  | recorded response | charged response | spoken response =>
      exact h.over rfl rfl rfl fun _ => hfinal hstop
  | _ => exact hstop.elim

/-- A change of what the messages do not depend on, at one point. -/
theorem Transcribed.stay (h : Transcribed (.live p s) v) (hstatus : s'.status = s.status)
    (hqueue : s'.pendingTurn = s.pendingTurn) (hresponses : s'.modelResponses = s.modelResponses)
    (hcontents : s'.contents = s.contents) : Transcribed (.live p s') v := by
  refine h.step hresponses ?_
  have hshape := (h.memory p s rfl).1
  have hopen : ∀ {response content}, Open v.hist s response content → Open v.hist s' response content := by
    rintro response content ⟨xs, hpast, hidle, hr, hc⟩
    exact ⟨xs, hpast, hqueue.trans hidle, hresponses.trans hr, hcontents.trans hc⟩
  cases p with
  | told k name args result => exact ⟨hshape.1.of_same hqueue hresponses hcontents, hshape.2⟩
  | asking s₀ request | asked index request =>
      exact ⟨hshape.1.of_same hqueue hresponses hcontents, hqueue.trans hshape.2⟩
  | heard response =>
      exact ⟨hshape.1.of_same hqueue hresponses hcontents, hqueue.trans hshape.2.1, hshape.2.2⟩
  | recorded response | charged response => exact hopen hshape
  | spoken response =>
      obtain ⟨candidate, content, parts, ho, hcontent⟩ := hshape
      exact ⟨candidate, content, parts, hopen ho, hcontent⟩
  | ending =>
      refine hshape.imp (fun hs => hs.of_same hqueue hresponses hcontents) ?_
      rintro ⟨hidle, hclosed⟩
      refine ⟨hqueue.trans hidle, ?_⟩
      unfold AgentState.closed at hclosed ⊢
      rw [hstatus, hqueue]
      exact hclosed
  | opened | ready | sending k name args | called k name args =>
      exact Agent.Shape.of_same hshape hqueue hresponses hcontents

theorem Refusal.headless {found : Checkpoint} (h : Refusal found l) : l.headless := by
  cases l with
  | context s => exact h
  | save s => exact h
  | _ => trivial

/-- There is no agent any more, or none at work. -/
theorem Transcribed.resting (h : Transcribed φ v) {ψ : Phase} (hψ : ψ.resting) : Transcribed ψ v := by
  refine { h with memory := ?_ }
  rintro p s rfl
  exact hψ.elim

theorem Transcribed.note (h : Transcribed (.live p s) v) (hl : Passive p s l) :
    Transcribed (.live p s) (v.log t job l v.world) := by
  cases l with
  | save s' =>
      obtain ⟨rfl, hp⟩ := hl
      exact h.save hp (.inl rfl)
  | context s' =>
      obtain ⟨rfl, rfl, hidle⟩ := hl
      obtain ⟨hshape, hreceived⟩ := h.memory _ _ rfl
      refine h.log ?_ (.inl rfl)
      rintro s' (⟨⟨⟩⟩ | ⟨⟨⟩, -⟩)
      exact Agent.Shape.complete hshape hidle hreceived
  | _ => exact h.log (Act.headless.complete trivial) (.inl rfl)

theorem Run.transcribed (h : Run reprFloat φ v) : Transcribed φ v := by
  induction h with
  | init =>
      refine ⟨?_, ?_, trivial⟩
      · rintro s ⟨⟩
      · rintro p s ⟨⟩
  | die _ ih => exact ih.resting (ψ := .idle) trivial
  | load t job _ ih =>
      have hresting := ih.resting (ψ := .loading) trivial
      exact hresting.log (Act.headless.complete trivial) (.inl rfl)
  | refuse t job _ _ hl ih => exact ih.log (Act.headless.complete hl.headless) (.inl rfl)
  | create job contract _ _ ih =>
      refine { ih with memory := ?_ }
      rintro _ _ ⟨⟩
      refine ⟨Agent.Shape.idle [] ⟨?_, ?_⟩ rfl rfl rfl, ?_⟩
      · rintro x ⟨⟩
      · rintro i x ⟨⟩
      · rintro response ⟨⟩
  | @resume v s job _ hw hopen ih =>
      obtain ⟨hwhole, hreceived⟩ := ih.disk s hw
      refine { ih with memory := ?_ }
      rintro _ _ ⟨⟩
      refine ⟨?_, hreceived⟩
      rcases hwhole with hshape | ⟨-, hclosed⟩
      · exact Agent.Shape.of_same hshape rfl rfl rfl
      · cases hopen.symm.trans hclosed
  | note t job _ hl ih => exact ih.note hl
  | touch _ hcore ih => exact ih.stay hcore.status hcore.pendingTurn hcore.modelResponses hcore.contents
  | save t job _ hp ih => exact ih.save hp (.inr rfl)
  | unknown _ ih => exact ih.stay rfl rfl rfl rfl
  | stop status reason _ hstop ih => exact ih.step rfl (hstop.whole (ih.memory _ _ rfl).1)
  | @fail v p s e _ ih =>
      refine ih.step rfl ((ih.memory p s rfl).1.over rfl rfl rfl ?_)
      intro hnone
      show s.pendingTurn.isNone = true
      rw [show s.pendingTurn = none from hnone]
      rfl
  | begin _ _ ih =>
      exact ih.step rfl (Agent.Shape.of_same (ih.memory _ _ rfl).1 rfl rfl rfl)
  | dispatch _ hentry _ _ _ ih => exact ih.dispatch hentry
  | @send v s k name args t job _ _ ih =>
      have hcalled : Transcribed (.live (.called k name args) s) v := ih.step rfl (ih.memory _ _ rfl).1
      exact hcalled.log (Act.headless.complete trivial) (.inl rfl)
  | @answer v s k name args t job result _ ih =>
      have hlog : Transcribed (.live (.called k name args) s)
          (v.log t job (.answered k name args result) v.world) :=
        ih.log (Act.headless.complete trivial) (.inl rfl)
      exact hlog.step rfl ⟨(hlog.memory _ _ rfl).1, .inr ⟨_, List.mem_cons_self, rfl⟩⟩
  | internal _ _ _ ih => exact ih.step rfl ⟨(ih.memory _ _ rfl).1, .inl rfl⟩
  | complete hrun hentry hk ih => exact ih.complete hrun.traced hentry hk
  | look _ hentry _ hrecovery ih => exact ih.look hentry hrecovery
  | search _ hentry _ _ _ ih =>
      have hopen : Progress.dispatched.isCompleted = false := rfl
      have hlook := ih.look hentry hopen
      exact hlook.step rfl (Agent.Shape.of_same (hlook.memory _ _ rfl).1 rfl rfl rfl)
  | find hrun hentry hk ih => exact ih.find hrun.traced hentry hk
  | requeue _ hentry _ _ _ _ ih => exact ih.requeue hentry
  | adopt _ hentry hrecovery ih => exact ih.adopt hentry hrecovery
  | close _ hqueue hparts ih =>
      have hshape := (ih.memory _ _ rfl).1
      exact ih.step rfl (Agent.Shape.close hshape hqueue hparts)
  | request _ ha _ ih =>
      have hshape := (ih.memory _ _ rfl).1
      exact ih.step rfl ⟨Agent.Shape.of_same hshape rfl rfl rfl, ha.idle⟩
  | @ask v s request t job _ _ ih =>
      have hasked : Transcribed (.live (.asked s.modelRequests.length request) (s.requested request)) v :=
        ih.step rfl (ih.memory _ _ rfl).1
      exact hasked.log (Act.headless.complete trivial) (.inl rfl)
  | @receive v s index request t job response _ ih =>
      have hlog : Transcribed (.live (.asked index request) s)
          (v.log t job (.received index response) v.world) :=
        ih.log (Act.headless.complete trivial) (.inl rfl)
      obtain ⟨hshape, hidle⟩ := (hlog.memory _ _ rfl).1
      exact hlog.step rfl ⟨hshape, hidle, _, List.mem_cons_self, index, rfl⟩
  | record _ _ ih => exact ih.hear rfl rfl rfl id
  | charge _ _ ih => exact ih.hear rfl rfl rfl id
  | speak _ hcandidate hcontent ih => exact ih.speak hcandidate hcontent
  | queue _ hcandidate hcontent hcalls hne ih => exact ih.queue hcandidate hcontent hcalls hne

/-! ## The context of a request -/

/-- Every content that the client returns has the role of the model. -/
def ModelRole (history : List Done) : Prop :=
  ∀ e ∈ history, ∀ index response, e.label = .received index response →
    ∀ candidate content parts, candidate? response = some candidate →
      content? candidate = some (content, parts) → hasRole "model" content = true

theorem exists_before {P : Done → List Done → Prop} (h : Always P history) (he : e ∈ history) :
    ∃ before, before ⊆ history ∧ P e before := by
  induction history with
  | nil => cases he
  | cons d before ih =>
      rcases List.mem_cons.1 he with rfl | he
      · exact ⟨before, List.subset_cons_self _ _, h.1⟩
      · obtain ⟨before', hsub, hP⟩ := ih h.2 he
        exact ⟨before', List.subset_cons_of_subset _ hsub, hP⟩

/-- An agent of the sample is about to ask. -/
theorem visits_context {t : ℕ} (hw : v.world = none) (hhist : v.hist = []) :
    Sequential.visits t sampleJob (runAgent reprFloat sampleJob sampleJob.blank)
      (fun u => (∃ e ∈ u.hist, ∃ s, e.label = .context s) ∧ ModelRole u.hist) v := by
  obtain ⟨w, history⟩ := v
  obtain rfl : w = none := hw
  obtain rfl : history = [] := hhist
  unfold runAgent
  rw [sampleJob_contract]
  refine .inr ⟨_, _, rfl, .inr ⟨.done, .inr ⟨_, _, rfl, ?_⟩⟩⟩
  refine .inr ⟨.ok none, .inr ⟨.done, .inr ⟨_, _, rfl, .inr ⟨.ok none, ?_⟩⟩⟩⟩
  refine .inr ⟨_, _, rfl, Sequential.visits_here ⟨⟨_, List.mem_cons_self, _, rfl⟩, ?_⟩⟩
  intro e he index response hl
  rcases List.mem_cons.1 he with rfl | he
  · cases hl
  rcases List.mem_cons.1 he with rfl | he
  · cases hl
  rcases List.mem_cons.1 he with rfl | he
  · cases hl
  rcases List.mem_cons.1 he with rfl | he
  · cases hl
  · cases he

end AutonomyLab.Agent
