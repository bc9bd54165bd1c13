import AutonomyLab.Ax.Program
import AutonomyLab.Process.Stable

/-!
# What the two sides do, act by act

* `Does` — the acts of a thread, with the condition under which it takes each.
* `Sane` — what is true of every view: each identity is drawn by one thread and used in one act,
  and whatever was carried out is of a boot that the session has got to.
* `Rely` — what a thread may count on: its identities are its own, and while the host has a call
  in progress no other changes the files of the host.
* `logic` — the rely–guarantee logic of the system.
-/

namespace AutonomyLab.Ax

open Json Process

abbrev Seen := View World Act Party

abbrev Done := Event World Act Party

/-- The identity that an act makes use of. -/
def Act.identity : Act → Option String
  | .booted bootId _ => some bootId
  | .published request => some request.id
  | _ => none

/-- The acts of the host that others of its calls have to know of. -/
def Act.isHost : Act → Bool
  | .enter | .leave | .saved _ | .charged | .dispatched _ | .returned _ _ | .responded _ _ => true
  | _ => false

def Act.isDispatch : Act → Bool
  | .dispatched _ => true
  | _ => false

/-- The requests that the host began to carry out. -/
def dispatches (h : List Done) : List Done := h.filter fun e => e.label.isDispatch

/-- The acts of the host. -/
def hosted (h : List Done) : List Done := h.filter fun e => e.label.isHost

/-- An act of the history. -/
def Did (h : List Done) (l : Act) : Prop := ∃ e ∈ h, e.label = l

/-- An act of thread `t`. -/
def DidBy (h : List Done) (t : ℕ) (l : Act) : Prop := ∃ e ∈ h, e.tid = t ∧ e.label = l

/-- Every AX transition is complete. -/
def Resumed (resumes : List Transition) : Prop := ∀ state ∈ resumes, state = .complete

/-- The identity is one that thread `t` drew and has made no use of. -/
def Owns (v : Seen) (t : ℕ) (identity : String) : Prop :=
  (identity, t) ∈ v.world.drawn ∧ ∀ e ∈ v.hist, e.label.identity ≠ some identity

/-- The call of the host that thread `t` makes found every transition complete. -/
def Began (v : Seen) (t : ℕ) : Prop :=
  ∀ e ∈ v.hist, e.tid = t → e.label = .enter → ∀ resumes, e.pre.session = some resumes → Resumed resumes

/-- How the host goes from one record of the session to the next. -/
inductive Next : Option (List Transition) → List Transition → Prop
  | first : Next none []
  | same (resumes) : Resumed resumes → Next (some resumes) resumes
  | start (resumes) : Resumed resumes → Next (some resumes) (resumes ++ [.started])
  | suspend (resumes) : Resumed resumes →
      Next (some (resumes ++ [.started])) (resumes ++ [.suspended])
  | complete (resumes) : Resumed resumes →
      Next (some (resumes ++ [.suspended])) (resumes ++ [.complete])

/-- What the host has found of a request when it begins to carry it out. -/
structure Serves (v : Seen) (maximum : ℕ) (request : Request) : Prop where
  published : Did v.hist (.published request)
  /-- Every transition is complete, and the request is of the boot that followed the last. -/
  boot : ∃ resumes, v.world.session = some resumes ∧ Resumed resumes ∧
    Did v.hist (.booted request.bootId (resumes.length + 1))
  fresh : ∀ r, Did v.hist (.dispatched r) → r.id ≠ request.id
  budget : ∃ b, v.world.budget = some b ∧ (dispatches v.hist).length < b.count ∧ b.count ≤ maximum

/-- The acts of thread `t`: who acts, the view before, the act, and the world after it. -/
inductive Does (t : ℕ) : Party → Seen → Act → World → Prop
  | look {i v} : Does t i v .look v.world
  | draw {i v identity} : identity ∉ v.world.drawn.map Prod.fst →
      Does t i v (.draw identity) { v.world with drawn := (identity, t) :: v.world.drawn }
  | booted {v bootId uid} (boots : List Boot) : Owns v t bootId →
      Does t .guest v (.booted bootId (boots.length + 1))
        { v.world with boots := boots ++ [⟨bootId, uid⟩] }
  | published {v request} : Owns v t request.id →
      Does t .guest v (.published request)
        { v.world with requests := put request.id request v.world.requests }
  | received {v request outcome} : DidBy v.hist t (.published request) →
      Did v.hist (.returned request outcome) → Does t .guest v (.received request outcome) v.world
  | file {i v} (config : Bool) (result agentError : Option Json) :
      Does t i v .file { v.world with config := config, result := result, agentError := agentError }
  | enter {v maxTurns} : v.world.host = none → (∀ e ∈ v.hist, e.tid = t → e.label ≠ .enter) →
      Does t (.host maxTurns) v .enter { v.world with host := some t }
  | leave {v maxTurns} : v.world.host = some t →
      Does t (.host maxTurns) v .leave { v.world with host := none }
  | saved {v maxTurns resumes} : v.world.host = some t → Began v t →
      Next v.world.session resumes →
      Does t (.host maxTurns) v (.saved resumes) { v.world with session := some resumes }
  | charged {v maxTurns limit} : v.world.host = some t →
      Does t (.host maxTurns) v .charged
        { v.world with budget := some ⟨v.world.budget.elim 0 Budget.count + 1, limit⟩ }
  | dispatched {v maxTurns request} : v.world.host = some t → Began v t →
      Serves v (maxTurns * 12) request → Does t (.host maxTurns) v (.dispatched request) v.world
  | returned {v maxTurns request outcome} : v.world.host = some t →
      DidBy v.hist t (.dispatched request) →
      (∀ r o, Did v.hist (.returned r o) → r.id ≠ request.id) →
      (request.known = false → outcome = .error unknownMethod) →
      Does t (.host maxTurns) v (.returned request outcome) v.world
  | responded {v maxTurns request outcome} : v.world.host = some t →
      Did v.hist (.returned request outcome) →
      Does t (.host maxTurns) v (.responded request outcome)
        { v.world with responses := put request.id ⟨request.id, outcome⟩ v.world.responses }

/-! ## Views -/

variable {t u : ℕ} {i : Party} {v v' : Seen} {l : Act} {w : World} {h h' : List Done} {request : Request}

theorem Did.mono (hd : Did h l) (hh : h <:+ h') : Did h' l := by
  obtain ⟨e, he, hl⟩ := hd
  exact ⟨e, hh.subset he, hl⟩

theorem DidBy.mono (hd : DidBy h t l) (hh : h <:+ h') : DidBy h' t l := by
  obtain ⟨e, he, hl⟩ := hd
  exact ⟨e, hh.subset he, hl⟩

theorem DidBy.did (hd : DidBy h t l) : Did h l := by
  obtain ⟨e, he, -, hl⟩ := hd
  exact ⟨e, he, hl⟩

theorem did_log {l' : Act} : Did (v.log t i l w).hist l' ↔ l = l' ∨ Did v.hist l' := by
  unfold Did
  rw [View.log_hist]
  simp only [List.mem_cons, exists_eq_or_imp]

theorem didBy_log {l' : Act} :
    DidBy (v.log t i l w).hist u l' ↔ (t = u ∧ l = l') ∨ DidBy v.hist u l' := by
  unfold DidBy
  rw [View.log_hist]
  simp only [List.mem_cons, exists_eq_or_imp]

theorem suffix_log : v.hist <:+ (v.log t i l w).hist := List.suffix_cons _ _

/-- What is true of every view. -/
structure Sane (v : Seen) : Prop where
  drawn : (v.world.drawn.map Prod.fst).Nodup
  /-- An identity is used by the thread that drew it. -/
  owner : ∀ e ∈ v.hist, ∀ identity, e.label.identity = some identity →
    (identity, e.tid) ∈ v.world.drawn
  /-- An identity is used in one act. -/
  once : ∀ e ∈ v.hist, ∀ e' ∈ v.hist, ∀ identity, e.label.identity = some identity →
    e'.label.identity = some identity → e.label = e'.label
  requests : ∀ name r, (name, r) ∈ v.world.requests → Did v.hist (.published r)
  boots : ∀ b, v.world.boots.getLast? = some b → Did v.hist (.booted b.bootId v.world.boots.length)
  responses : ∀ id x, v.world.responses.lookup id = some x →
    ∃ r, r.id = id ∧ Did v.hist (.returned r x.outcome)
  returned : ∀ r o, Did v.hist (.returned r o) → Did v.hist (.dispatched r)
  dispatched : ∀ r, Did v.hist (.dispatched r) → Did v.hist (.published r)
  /-- What was carried out is of a boot that the session has got to. -/
  reached : ∀ r, Did v.hist (.dispatched r) → ∃ resumes n, v.world.session = some resumes ∧
    Did v.hist (.booted r.bootId n) ∧ n ≤ resumes.length + 1
  budget : (dispatches v.hist).length ≤ (v.world.budget.elim 0 Budget.count)

namespace Sane

theorem published_unique {r r' : Request} (hv : Sane v) (h : Did v.hist (.published r))
    (h' : Did v.hist (.published r')) (hid : r.id = r'.id) : r = r' := by
  obtain ⟨e, he, hl⟩ := h
  obtain ⟨e', he', hl'⟩ := h'
  have := hv.once e he e' he' r.id (by rw [hl]; rfl) (by rw [hl', hid]; rfl)
  rw [hl, hl'] at this
  exact Act.published.inj this

theorem rank_unique {bootId : String} {m n : ℕ} (hv : Sane v) (h : Did v.hist (.booted bootId m))
    (h' : Did v.hist (.booted bootId n)) : m = n := by
  obtain ⟨e, he, hl⟩ := h
  obtain ⟨e', he', hl'⟩ := h'
  have := hv.once e he e' he' bootId (by rw [hl]; rfl) (by rw [hl']; rfl)
  rw [hl, hl'] at this
  exact (Act.booted.inj this).2

theorem drawn_unique {identity : String} (hv : Sane v) (h : (identity, t) ∈ v.world.drawn)
    (h' : (identity, u) ∈ v.world.drawn) : t = u :=
  congrArg Prod.snd (List.inj_on_of_nodup_map hv.drawn h h' rfl)

theorem start : Sane ⟨.start, []⟩ where
  drawn := List.nodup_nil
  owner := by rintro e ⟨⟩
  once := by rintro e ⟨⟩
  requests := by rintro name r ⟨⟩
  boots := by rintro b ⟨⟩
  responses := by rintro id x ⟨⟩
  returned := by rintro r o ⟨e, ⟨⟩, -⟩
  dispatched := by rintro r ⟨e, ⟨⟩, -⟩
  reached := by rintro r ⟨e, ⟨⟩, -⟩
  budget := Nat.zero_le _

end Sane

/-! ## What an act changes -/

theorem lookup_put {α : Type} (name id : String) (x : α) (files : List (String × α)) :
    (put name x files).lookup id = if id = name then some x else files.lookup id := by
  unfold put
  by_cases hid : id = name
  · rw [if_pos hid, hid, List.lookup_cons_self]
  · rw [if_neg hid, List.lookup_cons, beq_eq_false_iff_ne.2 hid]
    show (files.filter fun file => file.1 ≠ name).lookup id = files.lookup id
    induction files with
    | nil => rfl
    | cons file files ih =>
        by_cases hfile : file.1 = name
        · rw [List.filter_cons_of_neg (by simpa using hfile), ih, List.lookup_cons,
            beq_eq_false_iff_ne.2 (hfile ▸ hid)]
        · rw [List.filter_cons_of_pos (by simpa using hfile), List.lookup_cons, List.lookup_cons, ih]

theorem mem_put {α : Type} {name : String} {x : α} {files : List (String × α)} {file : String × α}
    (h : file ∈ put name x files) : file = (name, x) ∨ file ∈ files := by
  rcases List.mem_cons.1 h with h | h
  · exact .inl h
  · exact .inr (List.mem_filter.1 h).1

theorem Next.length_le {resumes resumes' : List Transition} (h : Next (some resumes) resumes') :
    resumes.length ≤ resumes'.length := by
  cases h <;> simp

namespace Does

theorem drawn (h : Does t i v l w) : w.drawn = v.world.drawn ∨
    ∃ identity, identity ∉ v.world.drawn.map Prod.fst ∧ w.drawn = (identity, t) :: v.world.drawn := by
  cases h with
  | draw hd => exact .inr ⟨_, hd, rfl⟩
  | _ => exact .inl rfl

theorem mem_drawn (h : Does t i v l w) {x : String × ℕ} (hx : x ∈ v.world.drawn) : x ∈ w.drawn := by
  rcases h.drawn with hw | ⟨identity, -, hw⟩
  · exact hw ▸ hx
  · exact hw ▸ List.mem_cons_of_mem _ hx

theorem owns {identity : String} (h : Does t i v l w) (hl : l.identity = some identity) :
    Owns v t identity := by
  cases h with
  | booted _ ho => exact Option.some.inj hl ▸ ho
  | published ho => exact Option.some.inj hl ▸ ho
  | _ => cases hl

theorem requests (h : Does t i v l w) {file : String × Request} (hf : file ∈ w.requests) :
    file ∈ v.world.requests ∨ l = .published file.2 := by
  cases h with
  | published _ =>
      rcases mem_put hf with rfl | hf
      · exact .inr rfl
      · exact .inl hf
  | _ => exact .inl hf

theorem boots (h : Does t i v l w) {b : Boot} (hb : w.boots.getLast? = some b) :
    w.boots = v.world.boots ∨ l = .booted b.bootId w.boots.length := by
  cases h with
  | booted boots _ =>
      rw [List.getLast?_concat, Option.some.injEq] at hb
      subst hb
      right
      rw [List.length_append, List.length_singleton]
  | _ => exact .inl rfl

theorem responses (h : Does t i v l w) {id : String} {x : Response} (hx : w.responses.lookup id = some x) :
    v.world.responses.lookup id = some x ∨
      ∃ request, request.id = id ∧ Did v.hist (.returned request x.outcome) := by
  cases h with
  | @responded _ _ request outcome _ hd =>
      rw [lookup_put] at hx
      split at hx
      · rename_i hid
        cases hx
        exact .inr ⟨request, hid.symm, hd⟩
      · exact .inl hx
  | _ => exact .inl hx

/-- The session never gets shorter. -/
theorem session (h : Does t i v l w) {resumes : List Transition} (hs : v.world.session = some resumes) :
    ∃ resumes', w.session = some resumes' ∧ resumes.length ≤ resumes'.length := by
  cases h with
  | saved _ _ hn =>
      rw [hs] at hn
      exact ⟨_, rfl, hn.length_le⟩
  | _ => exact ⟨resumes, hs, le_rfl⟩

theorem budget (h : Does t i v l w) : v.world.budget.elim 0 Budget.count ≤ w.budget.elim 0 Budget.count := by
  cases h with
  | charged _ => exact Nat.le_succ _
  | _ => exact le_rfl

end Does

/-- **Every act leaves the view sane.** -/
theorem Sane.log (hv : Sane v) (hd : Does t i v l w) : Sane (v.log t i l w) where
  drawn := by
    rcases hd.drawn with hw | ⟨identity, hnew, hw⟩
    · exact hw.symm ▸ hv.drawn
    · show (w.drawn.map Prod.fst).Nodup
      rw [hw, List.map_cons]
      exact List.nodup_cons.2 ⟨hnew, hv.drawn⟩
  owner e he identity hid := by
    rcases List.mem_cons.1 he with rfl | he
    · exact hd.mem_drawn (hd.owns hid).1
    · exact hd.mem_drawn (hv.owner e he identity hid)
  once e he e' he' identity hid hid' := by
    rcases List.mem_cons.1 he with rfl | he <;> rcases List.mem_cons.1 he' with rfl | he'
    · rfl
    · exact absurd hid' ((hd.owns hid).2 e' he')
    · exact absurd hid ((hd.owns hid').2 e he)
    · exact hv.once e he e' he' identity hid hid'
  requests name r hr := by
    rcases hd.requests hr with hr | rfl
    · exact (hv.requests name r hr).mono suffix_log
    · exact did_log.2 (.inl rfl)
  boots b hb := by
    rcases hd.boots hb with hw | rfl
    · refine Did.mono (h := v.hist) ?_ suffix_log
      show Did v.hist (.booted b.bootId w.boots.length)
      rw [hw]
      exact hv.boots b (hw ▸ hb)
    · exact did_log.2 (.inl rfl)
  responses id x hx := by
    have : ∃ r, r.id = id ∧ Did v.hist (.returned r x.outcome) := by
      rcases hd.responses hx with hx | hx
      · exact hv.responses id x hx
      · exact hx
    exact this.imp fun r hr => ⟨hr.1, hr.2.mono suffix_log⟩
  returned r o hr := by
    rcases did_log.1 hr with rfl | hr
    · cases hd with
      | returned _ hby _ _ => exact hby.did.mono suffix_log
    · exact (hv.returned r o hr).mono suffix_log
  dispatched r hr := by
    rcases did_log.1 hr with rfl | hr
    · cases hd with
      | dispatched _ _ hs => exact hs.published.mono suffix_log
    · exact (hv.dispatched r hr).mono suffix_log
  reached r hr := by
    rcases did_log.1 hr with rfl | hr
    · cases hd with
      | dispatched _ _ hs =>
          obtain ⟨resumes, hsession, -, hboot⟩ := hs.boot
          exact ⟨resumes, _, hsession, hboot.mono suffix_log, le_rfl⟩
    · obtain ⟨resumes, n, hsession, hboot, hn⟩ := hv.reached r hr
      obtain ⟨resumes', hsession', hle⟩ := hd.session hsession
      exact ⟨resumes', n, hsession', hboot.mono suffix_log, by omega⟩
  budget := by
    unfold dispatches
    rw [View.log_hist, List.filter_cons]
    split
    · rename_i hl
      cases hd with
      | dispatched _ _ hs =>
          obtain ⟨b, hb, hlt, -⟩ := hs.budget
          show _ ≤ v.world.budget.elim 0 Budget.count
          rw [hb]
          exact hlt
      | _ => cases hl
    · exact hv.budget.trans hd.budget

/-! ## What a thread may count on -/

/-- What may happen to the view of thread `t` between its acts. -/
structure Rely (t : ℕ) (v v' : Seen) : Prop where
  hist : v.hist <:+ v'.hist
  own : ∀ e ∈ v'.hist, e.tid = t → e.label = .enter → e ∈ v.hist
  owns : ∀ identity, Owns v t identity → Owns v' t identity
  /-- No other call of the host acts while this one is in progress. -/
  host : v.world.host = some t → v'.world.host = some t ∧ v'.world.session = v.world.session ∧
    v'.world.budget = v.world.budget ∧ v'.world.responses = v.world.responses ∧
    hosted v'.hist = hosted v.hist

theorem Rely.refl (t : ℕ) (v : Seen) : Rely t v v where
  hist := List.suffix_refl _
  own _ he _ _ := he
  owns _ ho := ho
  host hh := ⟨hh, rfl, rfl, rfl, rfl⟩

theorem Rely.trans {v'' : Seen} (h : Rely t v v') (h' : Rely t v' v'') : Rely t v v'' where
  hist := h.hist.trans h'.hist
  own e he ht hl := h.own e (h'.own e he ht hl) ht hl
  owns identity ho := h'.owns identity (h.owns identity ho)
  host hh := by
    obtain ⟨hhost, hs, hb, hr, hh⟩ := h.host hh
    obtain ⟨hhost', hs', hb', hr', hh'⟩ := h'.host hhost
    exact ⟨hhost', hs'.trans hs, hb'.trans hb, hr'.trans hr, hh'.trans hh⟩

/-- An act of another thread, while a call of the host is in progress. -/
theorem Does.outside (h : Does t i v l w) (hu : v.world.host = some u) (htu : t ≠ u) :
    l.isHost = false ∧ w.host = some u ∧ w.session = v.world.session ∧ w.budget = v.world.budget ∧
      w.responses = v.world.responses := by
  have hne : v.world.host ≠ some t := by
    rw [hu]
    exact fun heq => htu (Option.some.inj heq).symm
  cases h with
  | enter hnone _ =>
      rw [hu] at hnone
      cases hnone
  | leave hh => exact absurd hh hne
  | saved hh _ _ => exact absurd hh hne
  | charged hh => exact absurd hh hne
  | dispatched hh _ _ => exact absurd hh hne
  | returned hh _ _ _ => exact absurd hh hne
  | responded hh _ => exact absurd hh hne
  | _ => exact ⟨rfl, hu, rfl, rfl, rfl⟩

/-- **The acts of the others leave a thread what it counts on.** -/
theorem Does.rely (h : Does t i v l w) (htu : t ≠ u) (hv : Sane v) : Rely u v (v.log t i l w) where
  hist := suffix_log
  own e he hu _ := by
    rcases List.mem_cons.1 he with rfl | he
    · exact absurd hu htu
    · exact he
  owns identity ho := by
    refine ⟨h.mem_drawn ho.1, fun e he => ?_⟩
    rcases List.mem_cons.1 he with rfl | he
    · intro hl
      exact htu (hv.drawn_unique (h.owns hl).1 ho.1)
    · exact ho.2 e he
  host hu := by
    obtain ⟨hl, hhost, hs, hb, hr⟩ := h.outside hu htu
    refine ⟨hhost, hs, hb, hr, ?_⟩
    unfold hosted
    rw [View.log_hist, List.filter_cons_of_neg (by simpa using hl)]

/-- The acts that leave a thread itself what it counts on. -/
theorem Does.rely_self (h : Does t i v l w) (hl : l.isHost = false) (hid : l.identity = none) :
    Rely t v (v.log t i l w) where
  hist := suffix_log
  own e he _ henter := by
    rcases List.mem_cons.1 he with rfl | he
    · rw [show l = .enter from henter] at hl
      cases hl
    · exact he
  owns identity ho := by
    refine ⟨h.mem_drawn ho.1, fun e he => ?_⟩
    rcases List.mem_cons.1 he with rfl | he
    · rw [show l.identity = none from hid]
      rintro ⟨⟩
    · exact ho.2 e he
  host hh := by
    have hhosted : hosted (v.log t i l w).hist = hosted v.hist := by
      unfold hosted
      rw [View.log_hist, List.filter_cons_of_neg (by simpa using hl)]
    cases h with
    | enter | leave | saved | charged | dispatched | returned | responded => cases hl
    | _ => exact ⟨hh, rfl, rfl, rfl, hhosted⟩

/-- The logic of the system. -/
def logic (P : Platform) : Logic (system P) where
  inv := Sane
  rely := Rely
  guar t i v v' := ∃ l w, v' = v.log t i l w ∧ Does t i v l w
  inv_init := by
    rintro w rfl
    exact .start
  rely_refl := .refl
  rely_trans := .trans
  inv_guar := by
    rintro t i v _ hv ⟨l, w, rfl, hd⟩
    exact hv.log hd
  rely_guar := by
    rintro t u i v _ htu hv ⟨l, w, rfl, hd⟩
    exact hd.rely htu hv
  inv_env := by rintro v w - ⟨⟩
  rely_env := by rintro u v w - ⟨⟩
  inv_stop := by
    rintro c D w hv rfl
    exact { hv with }
  rely_stop := by
    rintro c D w u - rfl hu
    refine ⟨List.suffix_refl _, fun e he _ _ => he, fun _ ho => ho, fun hh => ⟨?_, rfl, rfl, rfl, rfl⟩⟩
    show Option.filter _ c.view.world.host = some u
    rw [hh, Option.filter_some, hu]
    rfl

end AutonomyLab.Ax
