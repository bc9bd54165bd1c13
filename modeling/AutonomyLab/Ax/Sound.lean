import AutonomyLab.Ax.Protocol

/-!
# Both sides follow the protocol

* `triple_call`, `triple_main` — the agent draws an identity for each request, and what it
  receives is what the host returned for that request.
* `triple_connect`, `triple_poll`, `triple_serve` — the host knows, for as long as it serves
  a boot, that whatever was carried out before has been answered or is of an earlier boot.
* `sound` — every thread of the system.
-/

namespace AutonomyLab.Ax

open Json Process Logic

section
variable {P : Platform} {t : ℕ} {i : Party} {E K : Seen → Prop} {α : Type}

theorem triple_mayFail (hs : Stable (logic P) t K) (he : ∀ v, K v → E v) :
    Triple (logic P) t i E K mayFail fun _ => K := by
  refine Triple.ask fun failure => ?_
  cases failure with
  | none => exact Triple.done hs fun _ hv => hv
  | some e => exact Triple.fail hs he

theorem triple_refuse {c : Prop} [Decidable c] {e : Failure} (hs : Stable (logic P) t K)
    (he : ∀ v, K v → E v) : Triple (logic P) t i E K (refuse c e) fun _ v => ¬c ∧ K v := by
  unfold refuse
  split
  · exact Triple.fail hs he
  · rename_i hc
    exact Triple.done hs fun _ hv => ⟨hc, hv⟩

theorem triple_look {f : World → α} {F : α → Seen → Prop} (hs : Stable (logic P) t K)
    (hF : ∀ a, Stable (logic P) t (F a)) (h : ∀ v, Sane v → K v → F (f v.world) v) :
    Triple (logic P) t i E K (look f) F := by
  refine Triple.perform hs hF ?_
  rintro v _ _ hv hk ⟨⟩
  have hd : Does t i v .look v.world := .look
  exact ⟨⟨_, _, rfl, hd⟩, hF _ _ _ (hd.rely_self rfl rfl) (h v hv hk)⟩

theorem triple_write {l : Act} {f : World → World} {F : Seen → Prop} (hs : Stable (logic P) t K)
    (hF : Stable (logic P) t F) (he : ∀ v, K v → E v) (he' : ∀ v, F v → E v)
    (h : ∀ v, Sane v → K v → Does t i v l (f v.world) ∧ F (v.log t i l (f v.world))) :
    Triple (logic P) t i E K (write l f) fun _ => F := by
  refine Triple.bind (triple_mayFail hs he) fun _ => ?_
  refine Triple.bind (F := fun _ => F) ?_ fun _ => triple_mayFail hF he'
  refine Triple.perform hs (fun _ => hF) ?_
  rintro v _ _ hv hk ⟨⟩
  exact ⟨⟨_, _, rfl, (h v hv hk).1⟩, (h v hv hk).2⟩

/-- A file is replaced of which nobody counts on anything. -/
theorem triple_file {f : World → World} (hf : ∀ w, ∃ config result agentError,
      f w = { w with config := config, result := result, agentError := agentError })
    (hs : Stable (logic P) t K) (he : ∀ v, K v → E v) :
    Triple (logic P) t i E K (write .file f) fun _ => K := by
  refine triple_write hs hs he he fun v _ hk => ?_
  obtain ⟨config, result, agentError, heq⟩ := hf v.world
  have hd : Does t i v .file (f v.world) := heq ▸ .file config result agentError
  exact ⟨hd, hs _ _ (hd.rely_self rfl rfl) hk⟩

theorem stable_owns (identity : String) : Stable (logic P) t fun v => Owns v t identity :=
  fun _ _ hr => hr.owns identity

theorem stable_did (l : Act) : Stable (logic P) t fun v => Did v.hist l :=
  fun _ _ hr hd => hd.mono hr.hist

theorem stable_didBy (u : ℕ) (l : Act) : Stable (logic P) t fun v => DidBy v.hist u l :=
  fun _ _ hr hd => hd.mono hr.hist

theorem triple_uuid4 (hs : Stable (logic P) t K) :
    Triple (logic P) t i E K uuid4 fun identity v => K v ∧ Owns v t identity := by
  refine Triple.ask fun identity => Triple.perform hs (fun _ => hs.and (stable_owns _)) ?_
  intro v id w hv hk hf
  split at hf
  · rename_i hnew
    cases hf
    have hd : Does t i v (.draw identity) { v.world with drawn := (identity, t) :: v.world.drawn } :=
      .draw hnew.2
    refine ⟨⟨_, _, rfl, hd⟩, hs _ _ (hd.rely_self rfl rfl) hk, List.mem_cons_self, fun e he => ?_⟩
    rcases List.mem_cons.1 he with rfl | he
    · rintro ⟨⟩
    · intro hl
      exact hnew.2 (List.mem_map_of_mem (hv.owner e he identity hl))
  · cases hf

end

/-! ## The agent -/

section
variable {P : Platform} {t : ℕ} {K : Seen → Prop}

/-- Nothing is said. -/
abbrev Anything (_ : Seen) : Prop := True

theorem stable_anything : Stable (logic P) t Anything := Stable.const

theorem triple_awaitResponse {i : Party} (hs : Stable (logic P) t K) (identity : String) (turns : ℕ) :
    Triple (logic P) t i Anything K (awaitResponse identity turns) fun _ => K := by
  induction turns with
  | zero => exact Triple.fail hs fun _ _ => trivial
  | succ turns ih =>
      refine Triple.bind (triple_look (F := fun _ => K) hs (fun _ => hs) fun _ _ hk => hk) fun found => ?_
      cases found with
      | true => exact Triple.done hs fun _ hk => hk
      | false => exact ih

/-- What a call of the channel receives was returned for its own request. -/
theorem triple_call (bootId method : String) (arguments : Json) :
    Triple (logic P) t .guest Anything Anything (call P bootId method arguments)
      fun _ => Anything := by
  unfold call
  have hdraw := triple_uuid4 (P := P) (i := .guest) (E := Anything) (t := t) stable_anything
  refine Triple.bind hdraw fun identity => ?_
  set request : Request := ⟨identity, bootId, method, arguments⟩ with hrequest
  have howns : Stable (logic P) t fun v => Anything v ∧ Owns v t identity :=
    stable_anything.and (stable_owns identity)
  have hpublished : Stable (logic P) t fun v => DidBy v.hist t (.published request) := stable_didBy _ _
  refine Triple.bind (triple_refuse howns fun _ _ => trivial) fun _ => ?_
  refine Triple.bind (F := fun _ v => DidBy v.hist t (.published request)) ?_ fun _ => ?_
  · refine triple_write (Stable.const.and howns) hpublished (fun _ _ => trivial) (fun _ _ => trivial) ?_
    rintro v - ⟨-, -, ho⟩
    exact ⟨.published ho, didBy_log.2 (.inl ⟨rfl, rfl⟩)⟩
  refine Triple.ask fun turns => Triple.bind (triple_awaitResponse hpublished identity turns) fun _ => ?_
  -- the answer is one that was returned, for the only request that was published under its name
  have hreceived : ∀ response : Option Response, Stable (logic P) t fun v =>
      DidBy v.hist t (.published request) ∧
        ∀ x, response = some x → Did v.hist (.returned request x.outcome) :=
    fun _ _ _ hr hk => ⟨hk.1.mono hr.hist, fun x hx => (hk.2 x hx).mono hr.hist⟩
  refine Triple.bind (triple_look hpublished hreceived ?_) fun response => ?_
  · intro v hv hk
    refine ⟨hk, fun x hx => ?_⟩
    obtain ⟨r, hid, hdone⟩ := hv.responses identity x hx
    have hsame : r = request :=
      hv.published_unique (hv.dispatched r (hv.returned r x.outcome hdone)) hk.did hid
    exact hsame ▸ hdone
  cases response with
  | none => exact Triple.fail (hreceived none) fun _ _ => trivial
  | some response =>
      have hs := hreceived (some response)
      refine Triple.bind (triple_refuse hs fun _ _ => trivial) fun _ => ?_
      refine Triple.bind (triple_refuse (Stable.const.and hs) fun _ _ => trivial) fun _ => ?_
      refine Triple.bind (F := fun _ => Anything) ?_ fun _ =>
        Triple.ofExcept stable_anything (fun _ h => h) fun _ _ _ h => h
      refine Triple.perform (Stable.const.and (Stable.const.and hs)) (fun _ => stable_anything) ?_
      rintro v _ _ - ⟨-, -, hby, hdone⟩ ⟨⟩
      exact ⟨⟨_, _, rfl, .received hby (hdone response rfl)⟩, trivial⟩

theorem triple_agent (bootId : String) (calls : ℕ) :
    Triple (logic P) t .guest Anything Anything (agent P bootId calls) fun _ => Anything := by
  induction calls with
  | zero => exact triple_mayFail stable_anything fun _ h => h
  | succ calls ih =>
      refine Triple.ask ?_
      rintro ⟨method, arguments⟩
      refine Triple.bind (F := fun _ => Anything) ?_ fun _ => ih
      refine Triple.attempt (Triple.mono (triple_call bootId method arguments) ?_ ?_ ?_)
      · exact fun _ h _ => h
      · exact fun _ h => h
      · exact fun _ _ h => h

theorem triple_start : Triple (logic P) t .guest Anything Anything (start P) fun _ => Anything := by
  unfold start
  have hmay := triple_mayFail (P := P) (t := t) (i := .guest) (E := Anything) stable_anything fun _ h => h
  refine Triple.bind hmay fun _ => ?_
  refine Triple.bind (F := fun _ => Anything) ?_ fun _ => ?_
  · refine Triple.perform stable_anything (fun _ => stable_anything) ?_
    intro v _ w _ _ hf
    split at hf
    · cases hf
      exact ⟨⟨_, _, rfl, .look⟩, trivial⟩
    · cases hf
  refine Triple.bind hmay fun _ => ?_
  have hlook := triple_look (P := P) (t := t) (i := .guest) (E := Anything) (f := World.boots)
    (F := fun _ => Anything) stable_anything (fun _ => stable_anything) fun _ _ h => h
  refine Triple.bind hlook fun boots => ?_
  have hdraw := triple_uuid4 (P := P) (i := .guest) (E := Anything) (t := t) stable_anything
  refine Triple.bind hdraw fun bootId => Triple.ask fun uid => ?_
  refine Triple.bind (F := fun _ => Anything) ?_ fun _ => ?_
  · refine triple_write (stable_anything.and (stable_owns bootId)) stable_anything (fun _ _ => trivial)
      (fun _ _ => trivial) ?_
    rintro v - ⟨-, ho⟩
    exact ⟨.booted boots ho, trivial⟩
  refine Triple.ask fun calls => Triple.bind (triple_agent bootId calls) fun _ => ?_
  refine Triple.ask fun result => triple_file (fun w => ?_) stable_anything fun _ _ => trivial
  exact ⟨w.config, some result, w.agentError, rfl⟩

theorem triple_main : Triple (logic P) t .guest Anything Anything (main P) fun _ => Anything := by
  unfold main
  refine Triple.bind (F := fun _ => Anything) ?_ fun _ => Triple.done stable_anything fun _ h => h
  refine Triple.tryCatch triple_start fun e => Triple.ask fun record => ?_
  refine Triple.bind (F := fun _ => Anything) ?_ fun _ => Triple.fail stable_anything fun _ h => h
  have hfile := triple_file (P := P) (t := t) (i := .guest) (E := Anything) (K := Anything)
    (f := fun w => { w with agentError := some record }) (fun w => ⟨w.config, w.result, _, rfl⟩)
    stable_anything fun _ h => h
  refine Triple.attempt (Triple.mono hfile ?_ ?_ ?_)
  · exact fun _ h _ => h
  · exact fun _ h => h
  · exact fun _ _ h => h

end

/-! ## What the host knows -/

/-- The call of the host that thread `t` makes is in progress. -/
def Held (t : ℕ) (v : Seen) : Prop := v.world.host = some t

/-- The call has just begun, and found the session as it is. -/
def Entered (t : ℕ) (v : Seen) : Prop :=
  Held t v ∧ ∀ e ∈ v.hist, e.tid = t → e.label = .enter → e.pre.session = v.world.session

def Answered (w : World) (identity : String) : Prop := ∃ response, w.responses.lookup identity = some response

/-- The call goes on with these transitions.  Whatever was carried out so far, other than what it
is busy with, has been answered, or is of one of the first boots. -/
structure Attends (t : ℕ) (resumes : List Transition) (bound : ℕ) (busy : Option String) (v : Seen) : Prop where
  host : Held t v
  began : Began v t
  session : v.world.session = some resumes
  past : ∀ r, Did v.hist (.dispatched r) → busy = some r.id ∨ Answered v.world r.id ∨
    ∃ n < bound, Did v.hist (.booted r.bootId n)

section
variable {P : Platform} {t : ℕ} {i : Party} {v v' : Seen} {l : Act} {w : World} {bound : ℕ}
  {resumes resumes' : List Transition} {busy busy' : Option String}

theorem did_hosted {h : List Done} (hl : l.isHost = true) : Did (hosted h) l ↔ Did h l := by
  constructor
  · rintro ⟨e, he, rfl⟩
    exact ⟨e, (List.mem_filter.1 he).1, rfl⟩
  · rintro ⟨e, he, rfl⟩
    exact ⟨e, List.mem_filter.2 ⟨he, hl⟩, rfl⟩

/-- Nobody else acts as the host. -/
theorem Rely.did (hr : Rely t v v') (hh : Held t v) (hl : l.isHost = true) (hd : Did v'.hist l) :
    Did v.hist l := by
  rw [← did_hosted hl, (hr.host hh).2.2.2.2, did_hosted hl] at hd
  exact hd

theorem dispatches_hosted (h : List Done) : dispatches (hosted h) = dispatches h := by
  unfold dispatches hosted
  rw [List.filter_filter]
  refine List.filter_congr fun e _ => ?_
  cases e.label <;> rfl

theorem Rely.dispatches (hr : Rely t v v') (hh : Held t v) :
    dispatches v'.hist = dispatches v.hist := by
  rw [← dispatches_hosted, (hr.host hh).2.2.2.2, dispatches_hosted]

theorem stable_held : Stable (logic P) t (Held t) := fun _ _ hr hh => (hr.host hh).1

theorem stable_began : Stable (logic P) t fun v => Began v t :=
  fun _ _ hr hb e he ht hl => hb e (hr.own e he ht hl) ht hl

theorem stable_entered : Stable (logic P) t (Entered t) := by
  rintro v v' hr ⟨hh, hs⟩
  refine ⟨stable_held (P := P) v v' hr hh, fun e he ht hl => ?_⟩
  rw [(hr.host hh).2.1]
  exact hs e (hr.own e he ht hl) ht hl

theorem stable_attends : Stable (logic P) t (Attends t resumes bound busy) := by
  intro v v' hr h
  obtain ⟨hhost, hs, -, hresponses, -⟩ := hr.host h.host
  refine ⟨hhost, stable_began (P := P) v v' hr h.began, hs.trans h.session, fun r hd => ?_⟩
  rcases h.past r (hr.did h.host rfl hd) with hbusy | hanswered | ⟨n, hn, hboot⟩
  · exact .inl hbusy
  · refine .inr (.inl ?_)
    unfold Answered
    rw [hresponses]
    exact hanswered
  · exact .inr (.inr ⟨n, hn, hboot.mono hr.hist⟩)

/-- An act of the call itself. -/
theorem Attends.log (h : Attends t resumes bound busy v) (hl : l ≠ .enter) (hhost : w.host = some t)
    (hs : w.session = some resumes') (hnew : ∀ r, l = .dispatched r → busy' = some r.id)
    (hold : ∀ r : Request, busy = some r.id → busy' = some r.id ∨ Answered w r.id)
    (hresponses : ∀ identity, Answered v.world identity → Answered w identity) :
    Attends t resumes' bound busy' (v.log t i l w) where
  host := hhost
  began e he ht henter := by
    rcases List.mem_cons.1 he with rfl | he
    · exact absurd henter hl
    · exact h.began e he ht henter
  session := hs
  past r hd := by
    rcases did_log.1 hd with hd | hd
    · exact .inl (hnew r hd)
    rcases h.past r hd with hbusy | hanswered | ⟨n, hn, hboot⟩
    · exact (hold r hbusy).elim .inl fun ha => .inr (.inl ha)
    · exact .inr (.inl (hresponses r.id hanswered))
    · exact .inr (.inr ⟨n, hn, hboot.mono suffix_log⟩)

/-- A call that found every transition complete began. -/
theorem Entered.began (h : Entered t v) (hr : ∀ resumes, v.world.session = some resumes → Resumed resumes) :
    Began v t := by
  intro e he ht hl resumes hs
  rw [h.2 e he ht hl] at hs
  exact hr resumes hs

end

/-! ## The host -/

section
variable {P : Platform} {t maxTurns : ℕ} {resumes resumes' : List Transition} {bound : ℕ}
  {busy : Option String}

theorem triple_save (hn : Next (some resumes) resumes') :
    Triple (logic P) t (.host maxTurns) (Held t) (Attends t resumes bound busy) (save resumes')
      fun _ => Attends t resumes' bound busy := by
  refine triple_write stable_attends stable_attends (fun _ h => h.host) (fun _ h => h.host) ?_
  intro v _ h
  refine ⟨.saved h.host h.began (h.session.symm ▸ hn), ?_⟩
  exact h.log (by rintro ⟨⟩) h.host rfl (by rintro r ⟨⟩) (fun _ hb => .inl hb) fun _ ha => ha

theorem triple_pause :
    Triple (logic P) t (.host maxTurns) (Held t) (Attends t resumes bound busy) mayFail
      fun _ => Attends t resumes bound busy :=
  triple_mayFail stable_attends fun _ h => h.host

theorem triple_awaitDirectory (turns : ℕ) :
    Triple (logic P) t (.host maxTurns) (Held t) (Attends t resumes bound busy) (awaitDirectory turns)
      fun _ => Attends t resumes bound busy := by
  have hs : Stable (logic P) t (Attends t resumes bound busy) := stable_attends
  induction turns with
  | zero => exact Triple.fail hs fun _ h => h.host
  | succ turns ih =>
      refine Triple.bind triple_pause fun _ => ?_
      have hlook := triple_look (P := P) (t := t) (i := .host maxTurns) (E := Held t)
        (f := World.agentError) (F := fun _ => Attends t resumes bound busy) hs (fun _ => hs) fun _ _ h => h
      refine Triple.bind hlook fun error => ?_
      refine Triple.bind (triple_refuse hs fun _ h => h.host) fun _ => ?_
      refine Triple.mono (Triple.ask fun ready => ?_) (fun _ h => h) (fun _ h => h.2) fun _ _ h => h
      cases ready with
      | true => exact Triple.done hs fun _ h => h
      | false => exact ih

theorem triple_config :
    Triple (logic P) t (.host maxTurns) (Held t) (Attends t resumes bound busy)
      (write .file fun w => { w with config := true }) fun _ => Attends t resumes bound busy :=
  triple_file (fun w => ⟨true, w.result, w.agentError, rfl⟩) stable_attends fun _ h => h.host

/-- The call may serve the boot that follows these transitions. -/
def Ready (t : ℕ) (v : Seen) : Prop :=
  ∃ resumes, Resumed resumes ∧ Attends t resumes (resumes.length + 1) none v

theorem stable_ready : Stable (logic P) t (Ready t) :=
  Stable.exists fun _ => Stable.const.and stable_attends

theorem Ready.held {v : Seen} (h : Ready t v) : Held t v := by
  obtain ⟨resumes, -, h⟩ := h
  exact h.host

theorem triple_connect :
    Triple (logic P) t (.host maxTurns) (Held t) (Entered t) connect
      fun connected v => Held t v ∧ (connected = true → Ready t v) := by
  have hend : ∀ b : Bool, Stable (logic P) t fun v => Held t v ∧ (b = true → Ready t v) := by
    intro b v v' hr h
    exact ⟨stable_held (P := P) v v' hr h.1, fun hb => stable_ready (P := P) v v' hr (h.2 hb)⟩
  -- what was carried out so far is of a boot that the session has got to
  have hlook := triple_look (P := P) (t := t) (i := .host maxTurns) (E := Held t) (K := Entered t)
    (f := World.session) (F := fun session v => Entered t v ∧ v.world.session = session ∧
      ∀ r, Did v.hist (.dispatched r) → ∃ resumes n, session = some resumes ∧
        Did v.hist (.booted r.bootId n) ∧ n ≤ resumes.length + 1) stable_entered ?_ ?_
  rotate_left
  · rintro session v v' hr ⟨he, hs, hd⟩
    refine ⟨stable_entered (P := P) v v' hr he, (hr.host he.1).2.1.trans hs, fun r hdid => ?_⟩
    obtain ⟨resumes, n, hsession, hboot, hn⟩ := hd r (hr.did he.1 rfl hdid)
    exact ⟨resumes, n, hsession, hboot.mono hr.hist, hn⟩
  · exact fun v hv he => ⟨he, rfl, hv.reached⟩
  unfold connect
  refine Triple.bind hlook fun session => ?_
  cases session with
  | none =>
      have hempty : Stable (logic P) t fun v => Entered t v ∧ v.world.session = none ∧
          ∀ r, ¬Did v.hist (.dispatched r) := by
        rintro v v' hr ⟨he, hs, hd⟩
        exact ⟨stable_entered (P := P) v v' hr he, (hr.host he.1).2.1.trans hs,
          fun r hdid => hd r (hr.did he.1 rfl hdid)⟩
      refine Triple.mono (E := Held t) (K := fun v => Entered t v ∧ v.world.session = none ∧
        ∀ r, ¬Did v.hist (.dispatched r)) ?_ (fun _ h => h) ?_ fun _ _ h => h
      · refine Triple.bind (triple_mayFail hempty fun _ h => h.1.1) fun _ => ?_
        refine Triple.bind (F := fun _ => Attends t [] 1 none) ?_ fun _ => ?_
        · refine triple_write hempty stable_attends (fun _ h => h.1.1) (fun _ h => h.host) ?_
          rintro v - ⟨he, hs, hd⟩
          have hbegan : Began v t := he.began fun resumes hresumes => by
            rw [hs] at hresumes
            cases hresumes
          refine ⟨.saved he.1 hbegan (hs.symm ▸ .first), he.1, fun e hmem ht hl => ?_, rfl, fun r hdid => ?_⟩
          · rcases List.mem_cons.1 hmem with rfl | hmem
            · cases hl
            · exact hbegan e hmem ht hl
          · rcases did_log.1 hdid with hdid | hdid
            · cases hdid
            · exact absurd hdid (hd r)
        refine Triple.ask fun turns => Triple.bind (triple_awaitDirectory turns) fun _ => ?_
        refine Triple.bind triple_config fun _ => Triple.done stable_attends fun v h => ⟨h.host, fun _ => ?_⟩
        exact ⟨[], by rintro state ⟨⟩, h⟩
      · rintro v ⟨he, hs, hd⟩
        refine ⟨he, hs, fun r hdid => ?_⟩
        obtain ⟨resumes, n, hsession, -⟩ := hd r hdid
        cases hsession
  | some resumes =>
      refine Triple.mono (E := Held t) (K := fun v => Held t v ∧
        (Resumed resumes → Attends t resumes (resumes.length + 2) none v)) ?_ (fun _ h => h) ?_ fun _ _ h => h
      · have hs : Stable (logic P) t fun v => Held t v ∧
            (Resumed resumes → Attends t resumes (resumes.length + 2) none v) := by
          intro v v' hr h
          exact ⟨stable_held (P := P) v v' hr h.1, fun hres => stable_attends (P := P) v v' hr (h.2 hres)⟩
        dsimp only
        split
        · exact Triple.done hs fun _ h => ⟨h.1, by rintro ⟨⟩⟩
        rename_i hcomplete
        have hres : Resumed resumes := by simpa [Resumed] using hcomplete
        refine Triple.mono (K := Attends t resumes (resumes.length + 2) none) ?_ (fun _ h => h)
          (fun _ h => h.2 hres) fun _ _ h => h
        refine Triple.bind triple_config fun _ => ?_
        refine Triple.bind (triple_file (fun w => ⟨w.config, none, w.agentError, rfl⟩) stable_attends
          fun _ h => h.host) fun _ => ?_
        refine Triple.bind (triple_save (.start resumes hres)) fun _ => Triple.bind triple_pause fun _ => ?_
        refine Triple.bind (triple_save (.suspend resumes hres)) fun _ => Triple.bind triple_pause fun _ => ?_
        refine Triple.bind (triple_save (.complete resumes hres)) fun _ =>
          Triple.done stable_attends fun v h => ⟨h.host, fun _ => ?_⟩
        refine ⟨resumes ++ [.complete], ?_, ?_⟩
        · intro state hstate
          rcases List.mem_append.1 hstate with hstate | hstate
          · exact hres state hstate
          · exact List.mem_singleton.1 hstate
        · rw [List.length_append]
          exact h
      · rintro v ⟨he, hs, hd⟩
        refine ⟨he.1, fun hres => ⟨he.1, he.began fun resumes' h => ?_, hs, fun r hdid => ?_⟩⟩
        · rw [hs] at h
          cases h
          exact hres
        · obtain ⟨_, n, ⟨⟩, hboot, hn⟩ := hd r hdid
          exact .inr (.inr ⟨n, by omega, hboot⟩)

/-- A request that waits for an answer, of the boot with this number. -/
structure Waits (rank : ℕ) (request : Request) (v : Seen) : Prop where
  published : Did v.hist (.published request)
  boot : Did v.hist (.booted request.bootId rank)
  unanswered : ¬Answered v.world request.id

theorem stable_waits {rank : ℕ} {request : Request} : Stable (logic P) t fun v =>
    Attends t resumes bound busy v ∧ Waits rank request v := by
  rintro v v' hr ⟨ha, hw⟩
  refine ⟨stable_attends (P := P) v v' hr ha, hw.published.mono hr.hist, hw.boot.mono hr.hist, ?_⟩
  unfold Answered
  rw [(hr.host ha.host).2.2.2.1]
  exact hw.unanswered

theorem mem_pending {bootId file : String} {request : Request} {w : World}
    (h : (file, request) ∈ pending P bootId w) :
    (file, request) ∈ w.requests ∧ ¬Answered w file ∧ request.bootId = bootId := by
  obtain ⟨hmem, hcond⟩ := List.mem_filter.1 (List.mem_mergeSort.1 h)
  simp only [Bool.and_eq_true, decide_eq_true_eq, Option.isNone_iff_eq_none] at hcond
  refine ⟨hmem, ?_, hcond.2⟩
  rintro ⟨response, hresponse⟩
  rw [hcond.1.1] at hresponse
  cases hresponse

/-- The host is told of a request of the boot that it serves, which has no answer yet. -/
theorem triple_poll (expectedBoots : ℕ) :
    Triple (logic P) t (.host maxTurns) (Held t) (Attends t resumes bound busy) (poll P expectedBoots)
      fun message v => Attends t resumes bound busy v ∧
        ∀ file request, message = .request file request → file = request.id →
          Waits expectedBoots request v := by
  have hs : Stable (logic P) t (Attends t resumes bound busy) := stable_attends
  have hidle : ∀ (message : Message), (∀ file request, message ≠ .request file request) →
      Triple (logic P) t (.host maxTurns) (Held t) (Attends t resumes bound busy) (.done message)
        fun message v => Attends t resumes bound busy v ∧
          ∀ file request, message = .request file request → file = request.id →
            Waits expectedBoots request v := by
    intro message hm
    exact Triple.done hs fun v h => ⟨h, fun file request heq => absurd heq (hm file request)⟩
  unfold poll
  refine Triple.bind triple_pause fun _ => ?_
  refine Triple.bind (F := fun _ => Attends t resumes bound busy)
    (triple_look hs (fun _ => hs) fun _ _ h => h) fun agentError => ?_
  cases agentError with
  | some record => exact hidle _ (by rintro file request ⟨⟩)
  | none =>
  refine Triple.bind (F := fun _ => Attends t resumes bound busy)
    (triple_look hs (fun _ => hs) fun _ _ h => h) fun result => ?_
  cases result with
  | some result => exact hidle _ (by rintro file request ⟨⟩)
  | none =>
  have hboots : ∀ boots : List Boot, Stable (logic P) t fun v => Attends t resumes bound busy v ∧
      ∀ b, boots.getLast? = some b → Did v.hist (.booted b.bootId boots.length) :=
    fun boots v v' hr h => ⟨hs v v' hr h.1, fun b hb => (h.2 b hb).mono hr.hist⟩
  refine Triple.bind (triple_look hs hboots fun v hv h => ⟨h, hv.boots⟩) fun boots => ?_
  split
  · exact Triple.mono (hidle .nothing (by rintro file request ⟨⟩)) (fun _ h => h) (fun _ h => h.1)
      fun _ _ h => h
  refine Triple.bind (triple_refuse (hboots boots) fun _ h => h.1.host) fun _ => ?_
  have hlen := (Stable.const (p := ¬boots.length ≠ expectedBoots)).and (hboots boots)
  cases hlast : boots.getLast? with
  | none => exact Triple.fail (hlast ▸ hlen) fun _ h => h.2.1.host
  | some boot =>
  have hpending : ∀ files : List (String × Request), Stable (logic P) t fun v =>
      Attends t resumes bound busy v ∧ ∀ file request, (file, request) ∈ files → file = request.id →
        Waits expectedBoots request v :=
    fun files v v' hr h => ⟨hs v v' hr h.1, fun file request hmem heq =>
      (stable_waits (P := P) v v' hr ⟨h.1, h.2 file request hmem heq⟩).2⟩
  refine Triple.bind (triple_look (hlast ▸ hlen) hpending ?_) fun files => ?_
  · rintro v hv ⟨hlen, h, hboot⟩
    refine ⟨h, fun file request hmem heq => ?_⟩
    obtain ⟨hfile, hanswer, hid⟩ := mem_pending hmem
    refine ⟨hv.requests file request hfile, ?_, heq ▸ hanswer⟩
    rw [hid, ← not_not.1 hlen]
    exact hboot boot rfl
  · cases files with
    | nil =>
        exact Triple.mono (hidle .nothing (by rintro file request ⟨⟩)) (fun _ h => h) (fun _ h => h.1)
          fun _ _ h => h
    | cons file files =>
        refine Triple.done (hpending _) fun v h => ⟨h.1, ?_⟩
        rintro _ _ ⟨⟩ heq
        exact h.2 file.1 file.2 List.mem_cons_self heq

/-- The next request that is carried out has been paid for. -/
def Charged (maximum : ℕ) (v : Seen) : Prop :=
  ∃ b, v.world.budget = some b ∧ (dispatches v.hist).length < b.count ∧ b.count ≤ maximum

theorem stable_charged {rank maximum : ℕ} {request : Request} : Stable (logic P) t fun v =>
    (Attends t resumes bound busy v ∧ Waits rank request v) ∧ Charged maximum v := by
  rintro v v' hr ⟨h, b, hb, hlt, hle⟩
  refine ⟨stable_waits (P := P) v v' hr h, b, (hr.host h.1.host).2.2.1.trans hb, ?_, hle⟩
  rw [hr.dispatches h.1.host]
  exact hlt

theorem triple_chargeRpc {rank : ℕ} {request : Request} (maximum : ℕ) :
    Triple (logic P) t (.host maxTurns) (Held t)
      (fun v => Attends t resumes bound busy v ∧ Waits rank request v) (chargeRpc maximum)
      fun _ v => (Attends t resumes bound busy v ∧ Waits rank request v) ∧ Charged maximum v := by
  have hs : Stable (logic P) t fun v => Attends t resumes bound busy v ∧ Waits rank request v := stable_waits
  have hrecord : ∀ record : Budget, Stable (logic P) t fun v =>
      (Attends t resumes bound busy v ∧ Waits rank request v) ∧
        v.world.budget.elim 0 Budget.count = record.count :=
    fun record v v' hr h => ⟨hs v v' hr h.1, by rw [(hr.host h.1.1.host).2.2.1]; exact h.2⟩
  unfold chargeRpc
  refine Triple.bind (triple_look hs hrecord ?_) fun record => ?_
  · rintro v - h
    refine ⟨h, ?_⟩
    cases v.world.budget <;> rfl
  refine Triple.bind (triple_refuse (hrecord record) fun _ h => h.1.1.host) fun _ => ?_
  refine triple_write (Stable.const.and (hrecord record)) stable_charged (fun _ h => h.2.1.1.host)
    (fun _ h => h.1.1.host) ?_
  rintro v hv ⟨hlt, ⟨ha, hw⟩, hcount⟩
  have hd : Does t (.host maxTurns) v .charged
      { v.world with budget := some ⟨record.count + 1, min record.limit maximum⟩ } :=
    hcount ▸ .charged ha.host
  refine ⟨hd, ⟨?_, hw.published.mono suffix_log, hw.boot.mono suffix_log, hw.unanswered⟩, _, rfl, ?_, ?_⟩
  · exact ha.log (by rintro ⟨⟩) ha.host ha.session (by rintro r ⟨⟩) (fun _ hb => .inl hb) fun _ h => h
  · have := hv.budget
    show (dispatches v.hist).length < record.count + 1
    omega
  · show record.count + 1 ≤ maximum
    omega

/-- Whether anything was returned for the request. -/
def Unreturned (request : Request) (v : Seen) : Prop :=
  ∀ r o, Did v.hist (.returned r o) → r.id ≠ request.id

/-- **A request that waits has not been carried out before.** -/
theorem Waits.fresh {v : Seen} {rank : ℕ} {request : Request} (hw : Waits rank request v)
    (ha : Attends t resumes rank none v) (hv : Sane v) :
    ∀ r, Did v.hist (.dispatched r) → r.id ≠ request.id := by
  intro r hr hid
  rcases ha.past r hr with hnone | hanswered | ⟨n, hn, hboot⟩
  · cases hnone
  · exact hw.unanswered (hid ▸ hanswered)
  · -- it is the same request, but of an earlier boot
    have hsame : r = request := hv.published_unique (hv.dispatched r hr) hw.published hid
    rw [hsame] at hboot
    exact absurd (hv.rank_unique hboot hw.boot) (Nat.ne_of_lt hn)

theorem triple_dispatch {K : Seen → Prop} {request : Request} (hs : Stable (logic P) t K) :
    Triple (logic P) t (.host maxTurns) (Held t) K (dispatch request)
      fun outcome v => (request.known = false → outcome = .error unknownMethod) ∧ K v := by
  unfold dispatch
  split
  · rename_i hknown
    refine Triple.choose fun outcome => Triple.done hs fun _ h => ⟨fun hun => ?_, h⟩
    rw [hknown] at hun
    cases hun
  · exact Triple.done hs fun _ h => ⟨fun _ => rfl, h⟩

theorem triple_answer {request : Request} (hres : Resumed resumes) :
    Triple (logic P) t (.host maxTurns) (Held t)
      (fun v => Attends t resumes (resumes.length + 1) none v ∧ Waits (resumes.length + 1) request v)
      (answer (maxTurns * 12) request) fun _ => Attends t resumes (resumes.length + 1) none := by
  have hbusy : Stable (logic P) t fun v =>
      Attends t resumes (resumes.length + 1) (some request.id) v ∧
        DidBy v.hist t (.dispatched request) ∧ Unreturned request v := by
    rintro v v' hr ⟨ha, hby, hun⟩
    exact ⟨stable_attends (P := P) v v' hr ha, hby.mono hr.hist,
      fun r o hd => hun r o (hr.did ha.host rfl hd)⟩
  have hreturned : ∀ outcome, Stable (logic P) t fun v =>
      Attends t resumes (resumes.length + 1) (some request.id) v ∧
        Did v.hist (.returned request outcome) :=
    fun outcome => stable_attends.and (stable_did _)
  unfold answer
  refine Triple.bind (triple_chargeRpc _) fun _ => ?_
  refine Triple.bind (F := fun _ v => Attends t resumes (resumes.length + 1) (some request.id) v ∧
    DidBy v.hist t (.dispatched request) ∧ Unreturned request v) ?_ fun _ => ?_
  · refine Triple.perform stable_charged (fun _ => hbusy) ?_
    rintro v _ _ hv ⟨⟨ha, hw⟩, hcharged⟩ ⟨⟩
    have hfresh := hw.fresh ha hv
    have hserves : Serves v (maxTurns * 12) request :=
      ⟨hw.published, ⟨resumes, ha.session, hres, hw.boot⟩, hfresh, hcharged⟩
    refine ⟨⟨_, _, rfl, .dispatched ha.host ha.began hserves⟩, ?_, didBy_log.2 (.inl ⟨rfl, rfl⟩), ?_⟩
    · refine ha.log (by rintro ⟨⟩) ha.host ha.session ?_ (by rintro r ⟨⟩) fun _ h => h
      rintro r ⟨⟩
      rfl
    · intro r o hd
      rcases did_log.1 hd with hd | hd
      · cases hd
      · exact hfresh r (hv.returned r o hd)
  refine Triple.bind (triple_dispatch hbusy) fun outcome => ?_
  refine Triple.bind (F := fun _ v => Attends t resumes (resumes.length + 1) (some request.id) v ∧
    Did v.hist (.returned request outcome)) ?_ fun _ => ?_
  · refine Triple.perform (Stable.const.and hbusy) (fun _ => hreturned outcome) ?_
    rintro v _ _ - ⟨hknown, ha, hby, hun⟩ ⟨⟩
    refine ⟨⟨_, _, rfl, .returned ha.host hby hun hknown⟩, ?_, did_log.2 (.inl rfl)⟩
    exact ha.log (by rintro ⟨⟩) ha.host ha.session (by rintro r ⟨⟩) (fun _ hb => .inl hb) fun _ h => h
  refine triple_write (hreturned outcome) stable_attends (fun _ h => h.1.host) (fun _ h => h.host) ?_
  rintro v - ⟨ha, hdone⟩
  refine ⟨.responded ha.host hdone, ?_⟩
  refine ha.log (by rintro ⟨⟩) ha.host ha.session (by rintro r ⟨⟩) ?_ ?_
  · rintro r hb
    refine .inr ⟨⟨request.id, outcome⟩, ?_⟩
    rw [← Option.some.inj hb]
    exact (lookup_put _ _ _ _).trans (if_pos rfl)
  · rintro identity ⟨response, hresponse⟩
    by_cases hid : identity = request.id
    · exact ⟨_, (lookup_put _ _ _ _).trans (if_pos hid)⟩
    · exact ⟨response, (lookup_put _ _ _ _).trans ((if_neg hid).trans hresponse)⟩

theorem triple_finish (result : Json) (hres : Resumed resumes) :
    Triple (logic P) t (.host maxTurns) (Held t) (Attends t resumes bound busy) (finish result)
      fun _ => Held t := by
  have hs : Stable (logic P) t (Attends t resumes bound busy) := stable_attends
  unfold finish
  refine Triple.bind triple_pause fun _ => ?_
  refine Triple.bind (F := fun _ => Attends t resumes bound busy)
    (triple_look hs (fun _ => hs) fun _ _ h => h) fun boots => ?_
  refine Triple.bind (F := fun session v => session = some resumes ∧ Attends t resumes bound busy v)
    (triple_look hs (fun _ => Stable.const.and hs) fun _ _ h => ⟨h.session, h⟩) fun session => ?_
  cases session with
  | none => exact Triple.fail (Stable.const.and hs) fun _ h => h.2.host
  | some found =>
      refine Triple.ask fun checks => ?_
      refine Triple.bind (triple_refuse (Stable.const.and hs) fun _ h => h.2.host) fun _ => ?_
      refine Triple.bind (triple_refuse (Stable.const.and (Stable.const.and hs)) fun _ h => h.2.2.host)
        fun _ => ?_
      refine Triple.bind (triple_refuse (Stable.const.and (Stable.const.and (Stable.const.and hs)))
        fun _ h => h.2.2.2.host) fun _ => ?_
      by_cases hfound : found = resumes
      · subst hfound
        refine Triple.mono (K := Attends t found bound busy) ?_ (fun _ h => h) (fun _ h => h.2.2.2.2)
          fun _ _ h => h
        exact Triple.bind (triple_save (.same found hres)) fun _ => Triple.done hs fun _ h => h.host
      · exact fun v hv => absurd (Option.some.inj hv.2.2.2.1) hfound

/-- **The loop of the host.** -/
theorem triple_serve (hres : Resumed resumes) (turns : ℕ) :
    Triple (logic P) t (.host maxTurns) (Held t) (Attends t resumes (resumes.length + 1) none)
      (serve P (maxTurns * 12) (resumes.length + 1) turns) fun _ => Held t := by
  have hs : Stable (logic P) t (Attends t resumes (resumes.length + 1) none) := stable_attends
  induction turns with
  | zero => exact Triple.fail hs fun _ h => h.host
  | succ turns ih =>
      refine Triple.bind (triple_poll _) fun message => ?_
      cases message with
      | agentError record =>
          exact Triple.mono (Triple.fail hs fun _ h => h.host) (fun _ h => h) (fun _ h => h.1) fun _ _ h => h
      | result result =>
          exact Triple.mono (triple_finish result hres) (fun _ h => h) (fun _ h => h.1) fun _ _ h => h
      | nothing => exact Triple.mono ih (fun _ h => h) (fun _ h => h.1) fun _ _ h => h
      | request file request =>
          have hwait : Stable (logic P) t fun v => Attends t resumes (resumes.length + 1) none v ∧
              (file = request.id → Waits (resumes.length + 1) request v) :=
            fun v v' hr h => ⟨hs v v' hr h.1, fun heq =>
              (stable_waits (P := P) v v' hr ⟨h.1, h.2 heq⟩).2⟩
          refine Triple.mono (K := fun v => Attends t resumes (resumes.length + 1) none v ∧
            (file = request.id → Waits (resumes.length + 1) request v)) ?_ (fun _ h => h)
            (fun v h => ⟨h.1, h.2 file request rfl⟩) fun _ _ h => h
          refine Triple.bind (triple_refuse hwait fun _ h => h.1.host) fun _ => ?_
          refine Triple.bind (F := fun _ => Attends t resumes (resumes.length + 1) none) ?_ fun _ => ih
          refine Triple.mono (triple_answer hres) (fun _ h => h) ?_ fun _ _ h => h
          rintro v ⟨hid, ha, hw⟩
          exact ⟨ha, hw (not_not.1 fun hne => hid (.inr hne))⟩

theorem triple_attend :
    Triple (logic P) t (.host maxTurns) (Held t) (Entered t) (attend P maxTurns) fun _ => Held t := by
  have hready : Stable (logic P) t (Ready t) := stable_ready
  unfold attend
  refine Triple.bind triple_connect fun connected => ?_
  cases connected with
  | false =>
      exact Triple.mono (Triple.done stable_held fun _ h => h) (fun _ h => h) (fun _ h => h.1) fun _ _ h => h
  | true =>
      refine Triple.mono (K := Ready t) ?_ (fun _ h => h) (fun _ h => h.2 rfl) fun _ _ h => h
      refine Triple.bind (triple_mayFail hready fun _ h => h.held) fun _ => ?_
      have hfound : ∀ session, Stable (logic P) t fun v => ∃ resumes, session = some resumes ∧
          Resumed resumes ∧ Attends t resumes (resumes.length + 1) none v :=
        fun session => Stable.exists fun _ => Stable.const.and (Stable.const.and stable_attends)
      refine Triple.bind (triple_look hready hfound ?_) fun session => ?_
      · rintro v - ⟨resumes, hres, ha⟩
        exact ⟨resumes, ha.session, hres, ha⟩
      cases session with
      | none =>
          refine Triple.fail (hfound none) ?_
          rintro v ⟨resumes, ⟨⟩, -⟩
      | some resumes =>
          refine Triple.ask fun turns => ?_
          intro v hv
          obtain ⟨_, ⟨⟩, hres, ha⟩ := hv
          exact triple_serve hres turns v ha

theorem triple_runAxAgent :
    Triple (logic P) t (.host maxTurns) Anything
      (fun v => ∀ e ∈ v.hist, e.tid = t → e.label ≠ .enter) (runAxAgent P maxTurns) fun _ => Anything := by
  unfold runAxAgent
  refine Triple.bind (F := fun _ => Entered t) ?_ fun _ => ?_
  · refine Triple.perform (fun v v' hr h e he ht hl => h e (hr.own e he ht hl) ht hl)
      (fun _ => stable_entered) ?_
    intro v _ w _ hnone hf
    split at hf
    · rename_i hfree
      cases hf
      refine ⟨⟨_, _, rfl, .enter hfree hnone⟩, rfl, fun e he ht hl => ?_⟩
      rcases List.mem_cons.1 he with rfl | he
      · rfl
      · exact absurd hl (hnone e he ht)
    · cases hf
  refine Triple.bind (F := fun _ => Held t) ?_ fun outcome => ?_
  · refine Triple.attempt (Triple.mono triple_attend ?_ ?_ ?_)
    · exact fun _ h _ => h
    · exact fun _ h => h
    · exact fun _ _ h => h
  refine Triple.bind (F := fun _ => Anything) ?_ fun _ =>
    Triple.ofExcept stable_anything (fun _ h => h) fun _ _ _ h => h
  refine Triple.perform stable_held (fun _ => stable_anything) ?_
  rintro v _ _ - hh ⟨⟩
  exact ⟨⟨_, _, rfl, .leave hh⟩, trivial⟩

end

/-- **Every thread follows the protocol.** -/
theorem sound (P : Platform) : Sound (logic P) fun _ _ => Ends Anything fun _ => Anything := by
  intro c i p hc _ hp
  cases i with
  | host maxTurns =>
      cases hp
      refine triple_runAxAgent c.view fun e he ht => ?_
      exact absurd ht (Nat.ne_of_lt (hc.numbered.hist e he))
  | guest =>
      cases hp
      exact triple_main c.view trivial

end AutonomyLab.Ax
