import AutonomyLab.Agent.Standing

/-!
# A repair that may have been sent

A repair whose fate is not known is looked up before it is sent again, and sent again only
if the operation is not found.

* `Looked`, `Refuted` — a lookup after a send, and one that has not found the operation.
* `Repeated` — what holds of a call and the acts before it.
* `Fate` — what the history says of the calls in a state.
* `Traced` — the invariant, by induction over the protocol.
* `crash_and_resume_safe` — **what is not repeated**, over any number of agents.
-/

namespace AutonomyLab.Agent

open Json Process

/-- An entry of the queue, by its index. -/
def AgentState.entryAt (s : AgentState) (i : ℕ) : Option Pending := s.pendingTurn.bind fun queue => queue[i]?

/-- The key of a call of the present turn. -/
def AgentState.key (s : AgentState) (i : ℕ) : Key := ⟨s.modelResponses.length, i, false⟩

/-! ## Sends and lookups -/

/-- The lookup of the operation of a call. -/
def Key.asLookup (k : Key) : Key := { k with lookup := true }

/-- The checkpoint is replaced by one that marks a call as dispatched, and knows of no lookup. -/
def Marks (k : Key) (d : Done) : Prop :=
  ∃ s pending, d.label = .save s ∧ d.post = some s ∧ s.key k.index = k ∧
    s.entryAt k.index = some pending ∧ pending.progress = .dispatched ∧ pending.recovery = none

/-- A call is made, or marked as dispatched. -/
def Sends (k : Key) (d : Done) : Prop := (∃ name args, d.label = .call k name args) ∨ Marks k d

/-- The acts after a call was made or marked. -/
def AfterSend (k : Key) (history since : List Done) : Prop :=
  ∃ d earlier, history = since ++ d :: earlier ∧ Sends k d

/-- The acts after a call that may have been made: it was, or the agent that marked it has
been followed by another. -/
def AfterLost (k : Key) (history since : List Done) : Prop :=
  ∃ d earlier, history = since ++ d :: earlier ∧
    ((∃ name args, d.label = .call k name args) ∨ Marks k d ∧ ∃ e ∈ since, e.label = .load)

/-- An operation was looked for. -/
def Asked (k : Key) (operationId : Json) (since : List Done) : Prop :=
  ∃ c ∈ since, c.label = .call k.asLookup "get_operation" [("operation_id", operationId)]

/-- An operation was looked for, and then a lookup was answered. -/
def Looked (k : Key) (operationId : Json) (result : Dict) (since : List Done) : Prop :=
  ∃ later a before, since = later ++ a :: before ∧ Asked k operationId before ∧
    a.label = .answered k.asLookup "get_operation" [("operation_id", operationId)] result

/-- A lookup of the operation of a call has answered that it is not found. -/
def Refuted (k : Key) (args : Dict) (since : List Done) : Prop :=
  ∃ operationId result payload, args.lookup "operation_id" = some operationId ∧
    Looked k operationId result since ∧ lookupPayload operationId result = some payload ∧
    notFound payload = true

/-- What holds of a call that may have been made before: it is the same call, and if it is a
repair, then the operation was not found since. -/
def Repeated (e : Done) (before : List Done) : Prop :=
  ∀ k name args, k.lookup = false → e.label = .call k name args →
    (∀ d ∈ before, ∀ name' args', d.label = .call k name' args' → name' = name ∧ args' = args) ∧
    (name = "propose_repair" → ∀ since, AfterLost k before since → Refuted k args since)

/-! ## What the history says of a state -/

/-- What the history says of an entry of the queue. -/
structure EntryFate (history : List Done) (k : Key) (pending : Pending) : Prop where
  same : ∀ d ∈ history, ∀ name args, d.label = .call k name args →
    name = pending.call.name ∧ args = pending.call.args
  queued : pending.call.name = "propose_repair" → pending.progress = .queued →
    pending.recovery = none ∧ ∀ since, AfterSend k history since → Refuted k pending.call.args since
  found : pending.call.name = "propose_repair" → ∀ result, pending.recovery = some (.completed result) →
    ∀ since, AfterSend k history since → ∃ operationId,
      pending.call.args.lookup "operation_id" = some operationId ∧ Looked k operationId result since

/-- No call is of a turn that has not begun. -/
def TurnsUpTo (history : List Done) (n : ℕ) : Prop := ∀ d ∈ history, ∀ k, Sends k d → k.turn ≤ n

/-- What the history says of the calls of a state. -/
structure Fate (history : List Done) (s : AgentState) : Prop where
  turns : TurnsUpTo history s.modelResponses.length
  entries : ∀ i pending, s.entryAt i = some pending → EntryFate history (s.key i) pending

/-- A call that is dispatched. -/
structure Dispatched (s : AgentState) (k : Key) (name : String) (args : Dict) (pending : Pending) :
    Prop where
  entry : s.entryAt k.index = some pending
  key : k = s.key k.index
  progress : pending.progress = .dispatched
  name_eq : name = pending.call.name
  args_eq : args = pending.call.args
  recovery : name = "propose_repair" → pending.recovery = none

/-- A lookup that is dispatched. -/
structure Searched (s : AgentState) (k : Key) (name : String) (args : Dict) (operationId : Json)
    (pending : Pending) : Prop where
  entry : s.entryAt k.index = some pending
  key : k = (s.key k.index).asLookup
  progress : pending.progress = .dispatched
  operation : pending.call.args.lookup "operation_id" = some operationId
  name_eq : name = "get_operation"
  args_eq : args = [("operation_id", operationId)]

/-- What the history says at a point. -/
def Point.Fate (history : List Done) (s : AgentState) : Point → Prop
  | .sending k name args =>
      (∃ pending, Dispatched s k name args pending ∧
        (name = "propose_repair" → ∀ since, AfterLost k history since → Refuted k args since)) ∨
      ∃ operationId pending, Searched s k name args operationId pending
  | .called k name args =>
      (∃ pending, Dispatched s k name args pending) ∨
      ∃ operationId pending, Searched s k name args operationId pending ∧
        ∀ since, AfterSend (s.key k.index) history since → Asked (s.key k.index) operationId since
  | .told k name args result =>
      (∃ pending, Dispatched s k name args pending) ∨
      ∃ operationId pending, Searched s k name args operationId pending ∧
        ∀ since, AfterSend (s.key k.index) history since →
          Looked (s.key k.index) operationId result since
  | .asking _ _ | .asked _ _ | .heard _ => s.pendingTurn = none
  | .recorded _ | .charged _ | .spoken _ => ∃ n < s.modelResponses.length, TurnsUpTo history n
  | .opened | .ready | .ending => True

/-- No call was made or marked. -/
def NoSends (history : List Done) : Prop := ∀ d ∈ history, ∀ k, ¬Sends k d

/-- What holds of a history, and of its last agent. -/
structure Traced (φ : Phase) (v : Seen) : Prop where
  unsaved : v.world = none → NoSends v.hist
  disk : ∀ s, v.world = some s → Fate v.hist s
  memory : ∀ p s, φ = .live p s → Fate v.hist s ∧ p.Fate v.hist s
  history : Always Repeated v.hist

/-! ## Entries -/

variable {reprFloat : ℚ → String} {φ : Phase} {v : Seen} {p p' : Point} {s s' : AgentState} {e : Done}
  {history since : List Done} {t : ℕ} {job : Job} {l : Act} {k : Key} {name : String} {args result : Dict}
  {prior rest : List Pending} {pending pending' : Pending}

theorem Entry.entryAt (h : Entry s prior pending rest) : s.entryAt prior.length = some pending := by
  unfold AgentState.entryAt
  rw [h]
  show (prior ++ pending :: rest)[prior.length]? = some pending
  rw [List.getElem?_append_right (Nat.le_refl _), Nat.sub_self]
  rfl

theorem getElem?_other (prior rest : List Pending) (pending pending' : Pending) {i : ℕ}
    (hi : i ≠ prior.length) : (prior ++ pending' :: rest)[i]? = (prior ++ pending :: rest)[i]? := by
  by_cases hlt : i < prior.length
  · rw [List.getElem?_append_left hlt, List.getElem?_append_left hlt]
  · have hle : prior.length ≤ i := not_lt.1 hlt
    obtain ⟨n, hn⟩ : ∃ n, i - prior.length = n + 1 := ⟨i - prior.length - 1, by omega⟩
    rw [List.getElem?_append_right hle, List.getElem?_append_right hle, hn]
    rfl

/-- The other entries stay as they are. -/
theorem Entry.entryAt_put (h : Entry s prior pending rest) {i : ℕ} (hi : i ≠ prior.length) :
    (s.put prior pending' rest).entryAt i = s.entryAt i := by
  unfold AgentState.entryAt
  rw [h]
  exact getElem?_other prior rest pending pending' hi

theorem entryAt_put_self (s : AgentState) :
    (s.put prior pending' rest).entryAt prior.length = some pending' :=
  Entry.entryAt (s := s.put prior pending' rest) rfl

/-! ## Another act -/

theorem AfterLost.afterSend (h : AfterLost k history since) : AfterSend k history since := by
  obtain ⟨d, earlier, heq, hd⟩ := h
  exact ⟨d, earlier, heq, hd.imp_right And.left⟩

theorem afterSend_cons (he : ¬Sends k e) (h : AfterSend k (e :: history) since) :
    ∃ since', since = e :: since' ∧ AfterSend k history since' := by
  obtain ⟨d, earlier, heq, hd⟩ := h
  cases since with
  | nil =>
      obtain ⟨rfl, -⟩ := List.cons.inj heq
      exact absurd hd he
  | cons e' since =>
      obtain ⟨rfl, rfl⟩ := List.cons.inj heq
      exact ⟨since, rfl, d, earlier, rfl, hd⟩

/-- The checkpoint is written: no call is lost by that. -/
theorem afterLost_cons (hl : e.label = .save s) (h : AfterLost k (e :: history) since) :
    ∃ since', since = e :: since' ∧ AfterLost k history since' := by
  obtain ⟨d, earlier, heq, hd⟩ := h
  cases since with
  | nil =>
      obtain ⟨rfl, -⟩ := List.cons.inj heq
      rcases hd with ⟨name, args, hd⟩ | ⟨-, _, ⟨⟩, -⟩
      cases hl.symm.trans hd
  | cons e' since =>
      obtain ⟨rfl, rfl⟩ := List.cons.inj heq
      refine ⟨since, rfl, d, earlier, rfl, hd.imp_right ?_⟩
      rintro ⟨hmarks, c, hc, hload⟩
      rcases List.mem_cons.1 hc with rfl | hc
      · cases hl.symm.trans hload
      · exact ⟨hmarks, c, hc, hload⟩

theorem Looked.cons {operationId : Json} (h : Looked k operationId result since) :
    Looked k operationId result (e :: since) := by
  obtain ⟨later, a, before, rfl, h⟩ := h
  exact ⟨e :: later, a, before, rfl, h⟩

theorem Refuted.cons (h : Refuted k args since) : Refuted k args (e :: since) := by
  obtain ⟨operationId, result, payload, hid, hlooked, h⟩ := h
  exact ⟨operationId, result, payload, hid, hlooked.cons, h⟩

theorem EntryFate.cons (h : EntryFate history k pending) (he : ¬Sends k e) :
    EntryFate (e :: history) k pending where
  same := by
    intro d hd name args hl
    rcases List.mem_cons.1 hd with rfl | hd
    · exact absurd (.inl ⟨name, args, hl⟩) he
    · exact h.same d hd name args hl
  queued := by
    intro hname hqueued
    obtain ⟨hnone, hrefuted⟩ := h.queued hname hqueued
    refine ⟨hnone, fun since hsince => ?_⟩
    obtain ⟨since', rfl, hafter⟩ := afterSend_cons he hsince
    exact (hrefuted since' hafter).cons
  found := by
    intro hname result hrecovery since hsince
    obtain ⟨since', rfl, hafter⟩ := afterSend_cons he hsince
    obtain ⟨operationId, hid, hlooked⟩ := h.found hname result hrecovery since' hafter
    exact ⟨operationId, hid, hlooked.cons⟩

/-- Nothing is known of a call that is dispatched and has not been looked up. -/
theorem EntryFate.of_dispatched (hprogress : pending.progress = .dispatched)
    (hrecovery : pending.call.name = "propose_repair" → pending.recovery = none)
    (hsame : ∀ d ∈ history, ∀ name args, d.label = .call k name args →
      name = pending.call.name ∧ args = pending.call.args) : EntryFate history k pending where
  same := hsame
  queued := by
    intro _ hqueued
    cases hprogress.symm.trans hqueued
  found := by
    intro hname result hfound
    cases (hrecovery hname).symm.trans hfound

/-- An act that neither makes a call nor writes the checkpoint. -/
def Act.quiet : Act → Prop
  | .call _ _ _ | .save _ => False
  | _ => True

theorem not_sends (he : e.label.quiet) (k : Key) : ¬Sends k e := by
  rintro (⟨name, args, hl⟩ | ⟨s, pending, hl, -⟩)
  · rw [hl] at he
    exact he
  · rw [hl] at he
    exact he

theorem TurnsUpTo.cons {n : ℕ} (h : TurnsUpTo history n) (he : ∀ k, Sends k e → k.turn ≤ n) :
    TurnsUpTo (e :: history) n := by
  intro d hd k hk
  rcases List.mem_cons.1 hd with rfl | hd
  · exact he k hk
  · exact h d hd k hk

theorem TurnsUpTo.quiet {n : ℕ} (h : TurnsUpTo history n) (he : e.label.quiet) :
    TurnsUpTo (e :: history) n := h.cons fun k hk => absurd hk (not_sends he k)

theorem Fate.cons (h : Fate history s) (he : e.label.quiet) : Fate (e :: history) s where
  turns := h.turns.quiet he
  entries i pending hi := (h.entries i pending hi).cons (not_sends he _)

/-- A state is written to the checkpoint, and its calls are marked by that. -/
theorem Fate.save (h : Fate history s) (he : e.label = .save s) : Fate (e :: history) s where
  turns := by
    refine h.turns.cons ?_
    rintro k (⟨name, args, hl⟩ | ⟨s', pending, hl, -, hkey, -⟩)
    · cases he.symm.trans hl
    · cases he.symm.trans hl
      rw [← hkey]
      exact Nat.le_refl _
  entries := by
    intro i pending hi
    have hfate := h.entries i pending hi
    by_cases hsends : Sends (s.key i) e
    · rcases hsends with ⟨name, args, hl⟩ | ⟨s', pending', hl, -, -, hi', hprogress, hrecovery⟩
      · cases he.symm.trans hl
      · cases he.symm.trans hl
        cases hi.symm.trans hi'
        refine .of_dispatched hprogress (fun _ => hrecovery) ?_
        intro d hd name args hcall
        rcases List.mem_cons.1 hd with rfl | hd
        · cases he.symm.trans hcall
        · exact hfate.same d hd name args hcall
    · exact hfate.cons hsends

/-- No agent looks for the checkpoint while another is at work. -/
theorem Point.Fate.cons (h : p.Fate history s) (he : e.label.quiet) (hp : ∀ k name args, p ≠ .sending k name args) :
    p.Fate (e :: history) s := by
  cases p with
  | sending k name args => exact absurd rfl (hp k name args)
  | called k name args =>
      refine h.imp_right ?_
      rintro ⟨operationId, pending, hsearched, hasked⟩
      refine ⟨operationId, pending, hsearched, fun since hsince => ?_⟩
      obtain ⟨since', rfl, hafter⟩ := afterSend_cons (not_sends he _) hsince
      obtain ⟨c, hc, hl⟩ := hasked since' hafter
      exact ⟨c, List.mem_cons_of_mem _ hc, hl⟩
  | told k name args result =>
      refine h.imp_right ?_
      rintro ⟨operationId, pending, hsearched, hlooked⟩
      refine ⟨operationId, pending, hsearched, fun since hsince => ?_⟩
      obtain ⟨since', rfl, hafter⟩ := afterSend_cons (not_sends he _) hsince
      exact (hlooked since' hafter).cons
  | recorded response | charged response | spoken response =>
      obtain ⟨n, hn, hturns⟩ := h
      exact ⟨n, hn, hturns.quiet he⟩
  | asking s₀ request | asked index request | heard response => exact h
  | opened | ready | ending => trivial

theorem Point.Fate.save (h : p.Fate history s) (he : e.label = .save s) (hp : p.savable) :
    p.Fate (e :: history) s := by
  cases p with
  | sending k name args =>
      refine h.imp_left ?_
      rintro ⟨pending, hdispatched, hrefuted⟩
      refine ⟨pending, hdispatched, fun hname since hsince => ?_⟩
      obtain ⟨since', rfl, hafter⟩ := afterLost_cons he hsince
      exact (hrefuted hname since' hafter).cons
  | asking s₀ request => exact h
  | opened | ready | ending => trivial
  | _ => exact hp.elim

/-- An act that is no call and writes nothing. -/
theorem Traced.log (h : Traced φ v) (hl : l.quiet) (hφ : ∀ k name args s, φ ≠ .live (.sending k name args) s) :
    Traced φ (v.log t job l v.world) where
  unsaved := by
    intro hnone d hd k
    rcases List.mem_cons.1 hd with rfl | hd
    · exact not_sends hl k
    · exact h.unsaved hnone d hd k
  disk s hs := (h.disk s hs).cons hl
  memory := by
    rintro p s rfl
    obtain ⟨hfate, hpoint⟩ := h.memory p s rfl
    refine ⟨hfate.cons hl, hpoint.cons hl ?_⟩
    rintro k name args rfl
    exact hφ k name args s rfl
  history := by
    refine ⟨?_, h.history⟩
    rintro k name args _ rfl
    exact hl.elim

/-- A write of the checkpoint, whether the file is replaced or not. -/
theorem Traced.save {w : Checkpoint} (h : Traced (.live p s) v) (hp : p.savable)
    (hw : w = v.world ∨ w = some s) : Traced (.live p s) (v.log t job (.save s) w) := by
  obtain ⟨hfate, hpoint⟩ := h.memory p s rfl
  exact {
    unsaved := by
      intro hnone d hd k
      obtain rfl : w = none := hnone
      rcases List.mem_cons.1 hd with rfl | hd
      · rintro (⟨name, args, ⟨⟩⟩ | ⟨s', pending, -, ⟨⟩, -⟩)
      · rcases hw with hw | ⟨⟨⟩⟩
        exact h.unsaved hw.symm d hd k
    disk := by
      intro s' hs'
      obtain rfl : w = some s' := hs'
      by_cases hsame : s' = s
      · subst hsame
        exact hfate.save rfl
      · -- the file is as it was, and nothing is marked
        have hw' : v.world = some s' := by
          rcases hw with hw | hw
          · exact hw.symm
          · cases hw
            exact absurd rfl hsame
        have hnot : ∀ k, ¬Sends k ⟨t, job, .save s, v.world, some s'⟩ := by
          rintro k (⟨name, args, ⟨⟩⟩ | ⟨s'', pending, ⟨⟩, ⟨⟩, -⟩)
          exact hsame rfl
        exact ⟨(h.disk s' hw').turns.cons fun k hk => absurd hk (hnot k),
          fun i pending hi => ((h.disk s' hw').entries i pending hi).cons (hnot _)⟩
    memory := by
      rintro _ _ ⟨⟩
      exact ⟨hfate.save rfl, hpoint.save rfl hp⟩
    history := by
      refine ⟨?_, h.history⟩
      rintro k name args _ ⟨⟩ }

/-- A step of the agent that leaves the file alone. -/
theorem Traced.step (h : Traced (.live p s) v) (hfate : Fate v.hist s') (hp : p'.Fate v.hist s') :
    Traced (.live p' s') v := by
  refine { h with memory := ?_ }
  rintro _ _ ⟨⟩
  exact ⟨hfate, hp⟩

/-- There is no agent any more, or none at work. -/
theorem Traced.resting (h : Traced φ v) {ψ : Phase} (hψ : ψ.resting) : Traced ψ v := by
  refine { h with memory := ?_ }
  rintro p s rfl
  exact hψ.elim

/-! ## Steps -/

theorem Fate.of_same (h : Fate history s) (hqueue : s'.pendingTurn = s.pendingTurn)
    (hresponses : s'.modelResponses = s.modelResponses) : Fate history s' where
  turns := by
    rw [hresponses]
    exact h.turns
  entries := by
    unfold AgentState.entryAt AgentState.key
    rw [hqueue, hresponses]
    exact h.entries

/-- There are no calls to work on. -/
theorem Fate.of_none (hturns : TurnsUpTo history s.modelResponses.length) (hnone : s.pendingTurn = none) :
    Fate history s where
  turns := hturns
  entries := by
    intro i pending hi
    unfold AgentState.entryAt at hi
    rw [hnone] at hi
    cases hi

/-- An entry takes the place of another. -/
theorem Fate.put (h : Fate history s) (hentry : Entry s prior pending rest)
    (hfate : EntryFate history (s.key prior.length) pending') : Fate history (s.put prior pending' rest) where
  turns := h.turns
  entries := by
    intro i other hi
    by_cases hlast : i = prior.length
    · subst hlast
      cases (entryAt_put_self s).symm.trans hi
      exact hfate
    · rw [hentry.entryAt_put hlast] at hi
      exact h.entries i other hi

theorem Fate.entry (h : Fate history s) (hentry : Entry s prior pending rest) :
    EntryFate history (s.key prior.length) pending := h.entries _ _ hentry.entryAt

theorem Traced.dispatch (h : Traced (.live .ready s) v) (hentry : Entry s prior pending rest)
    (hrepair : pending.call.name = "propose_repair" → pending.progress = .queued) :
    Traced (.live (.sending (s.key prior.length) pending.call.name pending.call.args)
      ((s.put prior { pending with progress := .dispatched } rest).attempted pending.call.name
        pending.call.args)) v := by
  have hfate := (h.memory _ _ rfl).1
  have hentryFate := hfate.entry hentry
  have hput : EntryFate v.hist (s.key prior.length) { pending with progress := .dispatched } :=
    .of_dispatched rfl (fun hname => (hentryFate.queued hname (hrepair hname)).1) hentryFate.same
  refine h.step ((hfate.put hentry hput).of_same rfl rfl)
    (.inl ⟨_, ⟨entryAt_put_self s, rfl, rfl, rfl, rfl, ?_⟩, ?_⟩)
  · intro hname
    exact (hentryFate.queued hname (hrepair hname)).1
  · intro hname since hsince
    exact (hentryFate.queued hname (hrepair hname)).2 since hsince.afterSend

/-- A call is made: the checkpoint knows of it. -/
theorem Traced.send (h : Traced (.live (.sending k name args) s) v) (hw : v.world = some s) :
    Traced (.live (.called k name args) s) (v.log t job (.call k name args) v.world) := by
  obtain ⟨hfate, hpoint⟩ := h.memory _ _ rfl
  have hturn : k.turn ≤ s.modelResponses.length := by
    rcases hpoint with ⟨pending, hdispatched, -⟩ | ⟨operationId, pending, hsearched⟩
    · rw [hdispatched.key]
      exact Nat.le_refl _
    · rw [hsearched.key]
      exact Nat.le_refl _
  have hsends : ∀ e : Done, e.label = .call k name args → ∀ k', Sends k' e → k' = k := by
    rintro e he k' (⟨name', args', hl⟩ | ⟨s', pending, hl, -⟩)
    · cases he.symm.trans hl
      rfl
    · cases he.symm.trans hl
  have hfate' : ∀ e : Done, e.label = .call k name args → Fate (e :: v.hist) s := by
    intro e he
    refine ⟨hfate.turns.cons fun k' hk' => hsends e he k' hk' ▸ hturn, ?_⟩
    intro i other hi
    have hold := hfate.entries i other hi
    by_cases hkey : s.key i = k
    · -- the call that is made: it is dispatched, and nothing is known of its operation
      subst hkey
      rcases hpoint with ⟨pending, hdispatched, -⟩ | ⟨operationId, pending, hsearched⟩
      · cases hdispatched.entry.symm.trans hi
        refine .of_dispatched hdispatched.progress
          (fun hname => hdispatched.recovery (hdispatched.name_eq.trans hname)) ?_
        intro d hd name' args' hl
        rcases List.mem_cons.1 hd with rfl | hd
        · cases he.symm.trans hl
          exact ⟨hdispatched.name_eq, hdispatched.args_eq⟩
        · exact hold.same d hd name' args' hl
      · cases hsearched.key
    · exact hold.cons fun hs => hkey (hsends e he _ hs)
  exact {
    unsaved := fun hnone => by cases hw.symm.trans hnone
    disk := by
      intro s' hs'
      obtain rfl : s = s' := Option.some.inj (hw.symm.trans hs')
      exact hfate' _ rfl
    memory := by
      rintro _ _ ⟨⟩
      refine ⟨hfate' _ rfl, ?_⟩
      rcases hpoint with ⟨pending, hdispatched, -⟩ | ⟨operationId, pending, hsearched⟩
      · exact .inl ⟨pending, hdispatched⟩
      · refine .inr ⟨operationId, pending, hsearched, fun since hsince => ?_⟩
        have hne : s.key k.index ≠ k := by
          rw [hsearched.key]
          rintro ⟨⟩
        obtain ⟨since', rfl, -⟩ := afterSend_cons (fun hs => hne (hsends _ rfl _ hs)) hsince
        refine ⟨_, List.mem_cons_self, ?_⟩
        show Act.call k name args = _
        rw [hsearched.name_eq, hsearched.args_eq]
        exact congrArg (fun k => Act.call k _ _) hsearched.key
    history := by
      refine ⟨?_, h.history⟩
      rintro _ _ _ hlookup ⟨⟩
      rcases hpoint with ⟨pending, hdispatched, hrefuted⟩ | ⟨operationId, pending, hsearched⟩
      · refine ⟨?_, hrefuted⟩
        have hsame := (hfate.entries _ _ hdispatched.entry).same
        rw [← hdispatched.key, ← hdispatched.name_eq, ← hdispatched.args_eq] at hsame
        exact hsame
      · rw [hsearched.key] at hlookup
        cases hlookup }

theorem Traced.answer (h : Traced (.live (.called k name args) s) v) (result : Dict) :
    Traced (.live (.told k name args result) s) (v.log t job (.answered k name args result) v.world) := by
  obtain ⟨hfate, hpoint⟩ := h.memory _ _ rfl
  have hlog : Traced (.live (.called k name args) s)
      (v.log t job (.answered k name args result) v.world) := h.log trivial (by rintro _ _ _ _ ⟨⟩)
  refine hlog.step (hlog.memory _ _ rfl).1 ?_
  rcases hpoint with ⟨pending, hdispatched⟩ | ⟨operationId, pending, hsearched, hasked⟩
  · exact .inl ⟨pending, hdispatched⟩
  · refine .inr ⟨operationId, pending, hsearched, fun since hsince => ?_⟩
    obtain ⟨since', rfl, hafter⟩ := afterSend_cons (not_sends (by trivial) _) hsince
    refine ⟨[], _, since', rfl, hasked since' hafter, ?_⟩
    show Act.answered k name args result = _
    rw [hsearched.name_eq, hsearched.args_eq]
    exact congrArg (fun k => Act.answered k _ _ _) hsearched.key

theorem Traced.complete (h : Traced (.live (.told k name args result) s) v)
    (hentry : Entry s prior pending rest) (hk : k = s.key prior.length) :
    Traced (.live .ready (s.put prior { pending with progress := .completed result } rest)) v := by
  subst hk
  obtain ⟨hfate, hpoint⟩ := h.memory _ _ rfl
  have hentryFate := hfate.entry hentry
  refine h.step (hfate.put hentry ⟨hentryFate.same, ?_, ?_⟩) trivial
  · rintro - ⟨⟩
  · intro hname result hrecovery
    rcases hpoint with ⟨other, hdispatched⟩ | ⟨operationId, other, hsearched, -⟩
    · cases hdispatched.entry.symm.trans hentry.entryAt
      cases (hdispatched.recovery (hdispatched.name_eq.trans hname)).symm.trans hrecovery
    · cases hsearched.key

theorem Traced.look {recovery : Progress} (h : Traced (.live .ready s) v)
    (hentry : Entry s prior pending rest) (hprogress : pending.progress = .dispatched)
    (hrecovery : recovery.isCompleted = false) :
    Traced (.live .ready (s.put prior { pending with recovery := some recovery } rest)) v := by
  have hfate := (h.memory _ _ rfl).1
  refine h.step (hfate.put hentry ⟨(hfate.entry hentry).same, ?_, ?_⟩) trivial
  · intro _ hqueued
    cases hprogress.symm.trans hqueued
  · rintro _ result ⟨⟩
    cases hrecovery

theorem Traced.search {operationId : Json} (h : Traced (.live .ready s) v)
    (hentry : Entry s prior pending rest) (hprogress : pending.progress = .dispatched)
    (hid : pending.call.args.lookup "operation_id" = some operationId) :
    Traced (.live (.sending (s.key prior.length).asLookup "get_operation" [("operation_id", operationId)])
      ((s.put prior { pending with recovery := some .dispatched } rest).attempted "get_operation"
        [("operation_id", operationId)])) v := by
  have hopen : Progress.dispatched.isCompleted = false := rfl
  have hlook := h.look hentry hprogress hopen
  refine hlook.step ((hlook.memory _ _ rfl).1.of_same rfl rfl) (.inr ⟨operationId, ?_⟩)
  exact ⟨_, entryAt_put_self s, rfl, hprogress, hid, rfl, rfl⟩

theorem Traced.find (h : Traced (.live (.told k name args result) s) v)
    (hentry : Entry s prior pending rest) (hk : k = (s.key prior.length).asLookup) :
    Traced (.live .ready (s.put prior { pending with recovery := some (.completed result) } rest)) v := by
  subst hk
  obtain ⟨hfate, hpoint⟩ := h.memory _ _ rfl
  rcases hpoint with ⟨other, hdispatched⟩ | ⟨operationId, other, hsearched, hlooked⟩
  · cases hdispatched.key
  · cases hsearched.entry.symm.trans hentry.entryAt
    refine h.step (hfate.put hentry ⟨(hfate.entry hentry).same, ?_, ?_⟩) trivial
    · intro _ hqueued
      cases hsearched.progress.symm.trans hqueued
    · rintro - _ ⟨⟩ since hsince
      exact ⟨operationId, hsearched.operation, hlooked since hsince⟩

theorem Traced.requeue {operationId : Json} {payload : Dict} (h : Traced (.live .ready s) v)
    (hentry : Entry s prior pending rest) (hrecovery : pending.recovery = some (.completed result))
    (hid : pending.call.args.lookup "operation_id" = some operationId)
    (hpayload : lookupPayload operationId result = some payload) (hnot : notFound payload = true) :
    Traced (.live .ready (s.put prior { pending with progress := .queued, recovery := none } rest)) v := by
  have hfate := (h.memory _ _ rfl).1
  have hentryFate := hfate.entry hentry
  refine h.step (hfate.put hentry ⟨hentryFate.same, ?_, ?_⟩) trivial
  · intro hname _
    refine ⟨rfl, fun since hsince => ?_⟩
    obtain ⟨operationId', hid', hlooked⟩ := hentryFate.found hname result hrecovery since hsince
    cases hid.symm.trans hid'
    exact ⟨operationId, result, payload, hid, hlooked, hpayload, hnot⟩
  · rintro - _ ⟨⟩

theorem Traced.adopt (h : Traced (.live .ready s) v) (hentry : Entry s prior pending rest) :
    Traced (.live .ready (s.put prior
      { pending with progress := .completed result, recovered := true } rest)) v := by
  have hfate := (h.memory _ _ rfl).1
  have hentryFate := hfate.entry hentry
  refine h.step (hfate.put hentry ⟨hentryFate.same, ?_, hentryFate.found⟩) trivial
  rintro - ⟨⟩

/-- A response is recorded: the calls before it are of earlier turns. -/
theorem Traced.hear {response response' : Json} (h : Traced (.live (.heard response) s) v)
    (s' : AgentState) (hresponses : s'.modelResponses = s.modelResponses ++ [response'])
    (hqueue : s'.pendingTurn = s.pendingTurn)
    (hp : p'.Fate v.hist s' ↔ ∃ n < s'.modelResponses.length, TurnsUpTo v.hist n) :
    Traced (.live p' s') v := by
  obtain ⟨hfate, hidle⟩ := h.memory _ _ rfl
  have hturns := hfate.turns
  have hlt : s.modelResponses.length < s'.modelResponses.length := by
    rw [hresponses, List.length_append, List.length_singleton]
    exact Nat.lt_succ_self _
  refine h.step (.of_none ?_ (hqueue.trans hidle)) (hp.2 ⟨_, hlt, hturns⟩)
  intro d hd k hk
  exact (hturns d hd k hk).trans hlt.le

/-- The calls of a response become the queue: none of them has been made. -/
theorem Traced.queue {response : Json} (h : Traced (.live (.spoken response) s) v) (calls : List Call) :
    Traced (.live .ready (s.withQueue (calls.map .queued))) v := by
  obtain ⟨hfate, n, hn, hturns⟩ := h.memory _ _ rfl
  refine h.step ⟨hfate.turns, ?_⟩ trivial
  intro i pending hi
  have hmade : ∀ d ∈ v.hist, ¬Sends (s.key i) d := by
    intro d hd hsends
    have hle := hturns d hd _ hsends
    have hkey : (s.key i).turn = s.modelResponses.length := rfl
    omega
  have hafter : ∀ since, ¬AfterSend (s.key i) v.hist since := by
    rintro since ⟨d, earlier, heq, hsends⟩
    refine hmade d ?_ hsends
    rw [heq]
    exact List.mem_append_right _ List.mem_cons_self
  have hqueued : pending.recovery = none := by
    have hi' : (calls.map Pending.queued)[i]? = some pending := hi
    rw [List.getElem?_map] at hi'
    obtain ⟨call, -, rfl⟩ := Option.map_eq_some_iff.1 hi'
    rfl
  refine ⟨?_, ?_, ?_⟩
  · intro d hd name args hl
    exact absurd (.inl ⟨name, args, hl⟩) (hmade d hd)
  · intro _ _
    exact ⟨hqueued, fun since hsince => absurd hsince (hafter since)⟩
  · intro _ result hrecovery
    cases hqueued.symm.trans hrecovery

/-- A change of what the calls do not depend on, at one point. -/
theorem Traced.stay (h : Traced (.live p s) v) (hqueue : s'.pendingTurn = s.pendingTurn)
    (hresponses : s'.modelResponses = s.modelResponses) : Traced (.live p s') v := by
  obtain ⟨hfate, hpoint⟩ := h.memory _ _ rfl
  have hentry : ∀ i, s'.entryAt i = s.entryAt i := by
    intro i
    unfold AgentState.entryAt
    rw [hqueue]
  have hkey : ∀ i, s'.key i = s.key i := by
    intro i
    unfold AgentState.key
    rw [hresponses]
  have hdispatched : ∀ {k name args pending}, Dispatched s k name args pending →
      Dispatched s' k name args pending := by
    intro k name args pending hd
    exact { hd with
      entry := (hentry _).trans hd.entry
      key := hd.key.trans (hkey _).symm }
  have hsearched : ∀ {k name args operationId pending}, Searched s k name args operationId pending →
      Searched s' k name args operationId pending := by
    intro k name args operationId pending hs
    exact { hs with
      entry := (hentry _).trans hs.entry
      key := hs.key.trans (congrArg Key.asLookup (hkey _).symm) }
  refine h.step (hfate.of_same hqueue hresponses) ?_
  cases p with
  | sending k name args =>
      refine hpoint.imp ?_ ?_
      · rintro ⟨pending, hd, hrefuted⟩
        exact ⟨pending, hdispatched hd, hrefuted⟩
      · rintro ⟨operationId, pending, hs⟩
        exact ⟨operationId, pending, hsearched hs⟩
  | called k name args =>
      refine hpoint.imp ?_ ?_
      · rintro ⟨pending, hd⟩
        exact ⟨pending, hdispatched hd⟩
      · rintro ⟨operationId, pending, hs, hasked⟩
        refine ⟨operationId, pending, hsearched hs, ?_⟩
        rw [hkey]
        exact hasked
  | told k name args result =>
      refine hpoint.imp ?_ ?_
      · rintro ⟨pending, hd⟩
        exact ⟨pending, hdispatched hd⟩
      · rintro ⟨operationId, pending, hs, hlooked⟩
        refine ⟨operationId, pending, hsearched hs, ?_⟩
        rw [hkey]
        exact hlooked
  | asking s₀ request | asked index request | heard response => exact hqueue.trans hpoint
  | recorded response | charged response | spoken response =>
      obtain ⟨n, hn, hturns⟩ := hpoint
      exact ⟨n, hresponses ▸ hn, hturns⟩
  | opened | ready | ending => trivial

/-! ## Histories -/

theorem Passive.quiet_or_save (h : Passive p s l) :
    (l.quiet ∧ ∀ k name args, p ≠ .sending k name args) ∨ l = .save s ∧ p.savable := by
  cases l with
  | save s' => exact .inr ⟨congrArg _ h.1, h.2⟩
  | call k name args => exact h.elim
  | load | generate _ _ | received _ _ | answered _ _ _ _ => exact h.elim
  | returned status =>
      refine .inl ⟨trivial, ?_⟩
      rintro k name args rfl
      obtain ⟨⟨⟩, -⟩ | ⟨⟨⟩, -⟩ := h
  | context s' =>
      refine .inl ⟨trivial, ?_⟩
      rintro k name args rfl
      cases h.2.1
  | failure _ | count _ | counted _ _ =>
      refine .inl ⟨trivial, ?_⟩
      rintro k name args rfl
      cases h

theorem Refusal.quiet {found : Checkpoint} (h : Refusal found l) : l.quiet := by
  cases l with
  | call k name args => exact h
  | save s => exact h
  | _ => trivial

theorem Phase.resting.not_sending (h : φ.resting) (k : Key) (name : String) (args : Dict) (s : AgentState) :
    φ ≠ .live (.sending k name args) s := by
  rintro rfl
  exact h

theorem Run.traced (h : Run reprFloat φ v) : Traced φ v := by
  induction h with
  | init =>
      refine ⟨?_, ?_, ?_, trivial⟩
      · rintro - d ⟨⟩
      · rintro s ⟨⟩
      · rintro p s ⟨⟩
  | die _ ih => exact ih.resting (ψ := .idle) trivial
  | load t job _ ih =>
      have hresting := ih.resting (ψ := .loading) trivial
      exact hresting.log trivial (Phase.resting.not_sending (φ := .loading) trivial)
  | refuse t job _ hφ hl ih => exact ih.log hl.quiet hφ.not_sending
  | create job contract _ hw ih =>
      refine { ih with memory := ?_ }
      rintro _ _ ⟨⟩
      refine ⟨.of_none ?_ rfl, trivial⟩
      intro d hd k hk
      exact absurd hk (ih.unsaved hw d hd k)
  | @resume v s job _ hw _ ih =>
      refine { ih with memory := ?_ }
      rintro _ _ ⟨⟩
      exact ⟨(ih.disk s hw).of_same rfl rfl, trivial⟩
  | note t job _ hl ih =>
      rcases hl.quiet_or_save with ⟨hquiet, hp⟩ | ⟨rfl, hp⟩
      · refine ih.log hquiet ?_
        rintro k name args s ⟨⟩
        exact hp k name args rfl
      · exact ih.save hp (.inl rfl)
  | touch _ hcore ih => exact ih.stay hcore.pendingTurn hcore.modelResponses
  | save t job _ hp ih => exact ih.save hp (.inr rfl)
  | unknown _ ih => exact ih.stay rfl rfl
  | stop _ _ _ _ ih => exact ih.step ((ih.memory _ _ rfl).1.of_same rfl rfl) trivial
  | fail _ _ ih => exact ih.step ((ih.memory _ _ rfl).1.of_same rfl rfl) trivial
  | begin _ _ ih => exact ih.step ((ih.memory _ _ rfl).1.of_same rfl rfl) trivial
  | dispatch _ hentry _ hrepair _ ih => exact ih.dispatch hentry hrepair
  | send t job _ hw ih => exact ih.send hw
  | answer t job result _ ih => exact ih.answer result
  | internal result _ hlookup ih =>
      obtain ⟨hfate, hpoint⟩ := ih.memory _ _ rfl
      refine ih.step hfate (.inl ?_)
      rcases hpoint with ⟨pending, hdispatched, -⟩ | ⟨operationId, pending, hsearched⟩
      · exact ⟨pending, hdispatched⟩
      · rw [hsearched.key] at hlookup
        cases hlookup
  | complete _ hentry hk ih => exact ih.complete hentry hk
  | look _ hentry hprogress hrecovery ih => exact ih.look hentry hprogress hrecovery
  | search _ hentry hprogress hid _ ih => exact ih.search hentry hprogress hid
  | find _ hentry hk ih => exact ih.find hentry hk
  | requeue _ hentry hrecovery hid hpayload hnot ih => exact ih.requeue hentry hrecovery hid hpayload hnot
  | adopt _ hentry _ ih => exact ih.adopt hentry
  | @close v s queue parts _ _ _ ih =>
      exact ih.step (.of_none (s := s.withResults parts) (ih.memory _ _ rfl).1.turns rfl) trivial
  | request _ ha _ ih => exact ih.step ((ih.memory _ _ rfl).1.of_same rfl rfl) ha.idle
  | @ask v s request t job _ _ ih =>
      obtain ⟨hfate, hidle⟩ := ih.memory _ _ rfl
      have hasked : Traced (.live (.asked s.modelRequests.length request) (s.requested request)) v :=
        ih.step hfate hidle
      exact hasked.log trivial (by rintro _ _ _ _ ⟨⟩)
  | @receive v s index request t job response _ ih =>
      obtain ⟨hfate, hidle⟩ := ih.memory _ _ rfl
      have hheard : Traced (.live (.heard response) s) v := ih.step hfate hidle
      exact hheard.log trivial (by rintro _ _ _ _ ⟨⟩)
  | @record v s response _ _ ih => exact ih.hear (s.responded response) rfl rfl Iff.rfl
  | @charge v s response total _ _ ih =>
      exact ih.hear ((s.responded response).charged total) rfl rfl Iff.rfl
  | speak _ _ _ ih =>
      obtain ⟨hfate, hpoint⟩ := ih.memory _ _ rfl
      exact ih.step (hfate.of_same rfl rfl) hpoint
  | queue _ _ _ _ _ ih => exact ih.queue _

/-! ## Crashes -/

/-- A checkpoint that passes every check is worked on. -/
theorem resume_of_open {contract : Contract} (hresumable : s.resumable = true)
    (hsame : s.contract.Same contract) (hvariant : s.variant = job.variant)
    (hmodel : s.model = job.model) (hclosed : s.closed = false) :
    resume reprFloat job contract s = (do
      if ← Prog.ask Bool then checkpointFailure "unreadable_existing_checkpoint"
      else do
        update fun _ => s.resumed job.limits
        tryCatch (work reprFloat job s.contract) handle) := by
  unfold resume
  simp [hresumable, hsame, hvariant, hmodel, hclosed]

/-- A checkpoint of the sample, with a request pending. -/
structure SamplePending (s : AgentState) : Prop where
  pending : s.pendingModel = some 0
  resumable : s.resumable = true
  variant : s.variant = .basic
  model : s.model = none
  status : s.status = .running
  contract : s.contract = ⟨"run", sampleJob.releaseId, .recentExchanges, .arr []⟩

/-- The first agent is killed when its request has been sent. -/
theorem visits_killed (hw : v.world = none) :
    Sequential.visits t sampleJob (runAgent reprFloat sampleJob sampleJob.blank)
      (fun u => (∃ s, u.world = some s ∧ SamplePending s) ∧
        ∃ e ∈ u.hist, ∃ request, e.label = .generate 0 request) v := by
  obtain ⟨w, h⟩ := v
  obtain rfl : w = none := hw
  unfold runAgent
  rw [sampleJob_contract]
  refine .inr ⟨_, _, rfl, .inr ⟨.done, .inr ⟨_, _, rfl, ?_⟩⟩⟩
  refine .inr ⟨.ok none, .inr ⟨.done, .inr ⟨_, _, rfl, .inr ⟨.ok none, ?_⟩⟩⟩⟩
  refine .inr ⟨_, _, rfl, .inr ⟨.done, .inr ⟨_, _, rfl, ?_⟩⟩⟩
  refine .inr ⟨.done, .inr ⟨_, _, rfl, ?_⟩⟩
  refine .inr ⟨_, _, rfl, .inr ⟨.ok (.int 7), .inr ⟨_, _, rfl, ?_⟩⟩⟩
  refine .inr ⟨.done, .inr ⟨_, _, rfl, .inr ⟨.done, .inr ⟨_, _, rfl, ?_⟩⟩⟩⟩
  refine .inr ⟨_, _, rfl, Sequential.visits_here ⟨⟨_, rfl, ⟨rfl, rfl, rfl, rfl, rfl, rfl⟩⟩, ?_⟩⟩
  exact ⟨_, List.mem_cons_self, _, rfl⟩

/-- The next agent finds the request pending, and the toolbox has a terminal decision. -/
theorem visits_completed (hw : v.world = some s) (hs : SamplePending s) :
    Sequential.visits t sampleJob (runAgent reprFloat sampleJob sampleJob.blank)
      (fun u => v.hist <:+ u.hist ∧ (∃ d ∈ u.hist, d.tid = t ∧ d.label = .load ∧ d.pre = some s) ∧
        ∃ e ∈ u.hist, e.tid = t ∧ e.label = .returned .completed) v := by
  obtain ⟨w, h⟩ := v
  obtain rfl : w = some s := hw
  have hsame : s.contract.Same ⟨"run", sampleJob.releaseId, .recentExchanges, .arr []⟩ := by
    rw [hs.contract]
    exact ⟨rfl, rfl, rfl, by decide⟩
  have hclosed : s.closed = false := by
    unfold AgentState.closed
    rw [hs.status]
  unfold runAgent
  rw [sampleJob_contract]
  refine .inr ⟨_, _, rfl, ?_⟩
  show Sequential.visits t sampleJob (resume reprFloat sampleJob _ s sampleJob.blank) _ _
  rw [resume_of_open hs.resumable hsame hs.variant hs.model hclosed, hs.contract]
  refine .inr ⟨false, .inr ⟨.done, .inr ⟨_, _, rfl, .inr ⟨.ok (some .null), ?_⟩⟩⟩⟩
  refine .inr ⟨.done, .inr ⟨_, _, rfl, .inr ⟨_, _, rfl, Sequential.visits_here ⟨?_, ?_, ?_⟩⟩⟩⟩
  · exact ⟨[_, _, _, _], rfl⟩
  · exact ⟨_, List.mem_cons_of_mem _ (List.mem_cons_of_mem _ (List.mem_cons_of_mem _
      List.mem_cons_self)), rfl, rfl, rfl⟩
  · exact ⟨_, List.mem_cons_self, rfl, rfl⟩

/-- Two agents of the sample: the second finds the request of the first pending. -/
theorem exists_abandoned : ∃ c : Agents, Sequential.Reachable (system fun _ => "") c ∧
    (∃ e ∈ c.view.hist, ∃ request, e.label = .generate 0 request) ∧
    ∃ d ∈ c.view.hist, ∃ e ∈ c.view.hist, d.tid = e.tid ∧ d.label = .load ∧
      (∃ s, d.pre = some s ∧ s.pendingModel ≠ none) ∧ e.label = .returned .completed := by
  obtain ⟨c, hc, hn, -, ⟨s, hw, hs⟩, e, he, hl⟩ := Sequential.Reachable.visits
    (S := system fun _ => "") (.init rfl) rfl rfl
    (Sequential.visits_mono (visits_killed rfl) fun _ hu => ⟨trivial, hu⟩)
  obtain ⟨c', hc', -, -, hsuffix, ⟨d, hd, ht, hload, hpre⟩, r, hr, ht', hreturned⟩ := hc.visits hn rfl
    (Sequential.visits_mono (visits_completed hw hs) fun _ hu => ⟨trivial, hu⟩)
  refine ⟨c', hc', ⟨e, hsuffix.subset he, hl⟩, d, hd, r, hr, ht.trans ht'.symm, hload, ⟨s, hpre, ?_⟩,
    hreturned⟩
  rw [hs.pending]
  rintro ⟨⟩

/-- A run that finds a request pending returns that its outcome is not known. -/
def PendingEndsIndeterminate (history : List Done) : Prop :=
  ∀ d ∈ history, ∀ e ∈ history, d.tid = e.tid → d.label = .load →
    (∃ s, d.pre = some s ∧ s.pendingModel ≠ none) → ∀ status, e.label = .returned status →
      status = .indeterminate

end AutonomyLab.Agent
