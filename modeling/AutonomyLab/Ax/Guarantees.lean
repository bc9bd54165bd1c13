import AutonomyLab.Ax.Sound

/-!
# Each request is carried out once

* `Orderly` — what holds of an act of the host, or of an answer that an agent reads, and of what
  came before it.
* `Stuck` — an AX transition was cut short, and no call of the host is in progress that had begun
  before.
* `World.configured`, …, `may_giveUp` — a run.
* `carried_out_once` — in every run, whoever is killed and started again, every act is orderly;
  and after a transition that was cut short nothing is carried out any more.
-/

namespace AutonomyLab.Ax

open Json Process Logic

/-- A request that the host begins to carry out. -/
structure CarriedOut (maxTurns : ℕ) (e : Done) (before : List Done) (request : Request) : Prop where
  published : Did before (.published request)
  /-- It was not carried out before. -/
  once : ∀ r, Did before (.dispatched r) → r.id ≠ request.id
  /-- Every transition is complete; the request is of the boot that followed the last of them, and
  so is, or is of an earlier boot, whatever was carried out before. -/
  boot : ∃ resumes, e.pre.session = some resumes ∧ Resumed resumes ∧
    Did before (.booted request.bootId (resumes.length + 1)) ∧
    ∀ r, Did before (.dispatched r) → ∃ n ≤ resumes.length + 1, Did before (.booted r.bootId n)
  budget : (dispatches before).length < maxTurns * 12

/-- What holds of an act, and of what came before it. -/
def Orderly (e : Done) (before : List Done) : Prop :=
  match e.label with
  | .dispatched request => ∃ maxTurns, e.actor = .host maxTurns ∧ CarriedOut maxTurns e before request
  | .returned request outcome => DidBy before e.tid (.dispatched request) ∧
      (∀ r o, Did before (.returned r o) → r.id ≠ request.id) ∧
      (request.known = false → outcome = .error unknownMethod)
  | .received request outcome => DidBy before e.tid (.published request) ∧
      Did before (.returned request outcome)
  | _ => True

/-- An AX transition was cut short. -/
def Cut (w : World) : Prop := ∃ resumes, w.session = some resumes ∧ ¬Resumed resumes

/-- An AX transition was cut short, and the call of the host that is in progress, if there is one,
began after that. -/
def Stuck (v : Seen) : Prop := Cut v.world ∧ ∀ t, v.world.host = some t → ¬Began v t

variable {P : Platform} {t : ℕ} {i : Party} {v v' : Seen} {l : Act} {w : World}

theorem Does.orderly (h : Does t i v l w) (hv : Sane v) : Orderly ⟨t, i, l, v.world, w⟩ v.hist := by
  cases h with
  | @dispatched _ maxTurns request _ _ hs =>
      refine ⟨maxTurns, rfl, hs.published, hs.fresh, ?_, ?_⟩
      · obtain ⟨resumes, hsession, hres, hboot⟩ := hs.boot
        refine ⟨resumes, hsession, hres, hboot, fun r hr => ?_⟩
        obtain ⟨_, n, hfound, hboot', hn⟩ := hv.reached r hr
        rw [hsession] at hfound
        cases hfound
        exact ⟨n, hn, hboot'⟩
      · obtain ⟨b, -, hlt, hle⟩ := hs.budget
        omega
  | returned _ hby hnew hknown => exact ⟨hby, hnew, hknown⟩
  | received hby hdone => exact ⟨hby, hdone⟩
  | _ => trivial

/-- What is stuck stays as it is. -/
theorem Does.stuck (h : Does t i v l w) (hs : Stuck v) :
    Stuck (v.log t i l w) ∧ w.session = v.world.session ∧ dispatches (v.log t i l w).hist = dispatches v.hist := by
  have hstill : ∀ u, ¬Began v u → ¬Began (v.log t i l w) u := by
    intro u hu hbegan
    exact hu fun e he ht hl => hbegan e (List.mem_cons_of_mem _ he) ht hl
  have hsame : (∀ u, w.host = some u → ¬Began (v.log t i l w) u) → w.session = v.world.session →
      l.isDispatch = false → Stuck (v.log t i l w) ∧ w.session = v.world.session ∧
        dispatches (v.log t i l w).hist = dispatches v.hist := by
    intro hhost hsession hl
    refine ⟨⟨?_, hhost⟩, hsession, ?_⟩
    · obtain ⟨resumes, hr, hcut⟩ := hs.1
      exact ⟨resumes, hsession.trans hr, hcut⟩
    · unfold dispatches
      rw [View.log_hist, List.filter_cons_of_neg (by simpa using hl)]
  cases h with
  | enter _ _ =>
      refine hsame ?_ rfl rfl
      rintro u ⟨⟩ hbegan
      obtain ⟨resumes, hr, hcut⟩ := hs.1
      exact hcut (hbegan _ List.mem_cons_self rfl rfl resumes hr)
  | leave _ => exact hsame (by rintro u ⟨⟩) rfl rfl
  | saved hh hb _ => exact absurd hb (hs.2 t hh)
  | dispatched hh hb _ => exact absurd hb (hs.2 t hh)
  | _ => exact hsame (fun u hu => hstill u (hs.2 u hu)) rfl rfl

theorem always_orderly {c : Conf World Act Party Failure Json} (h : Reachable (system P) c) :
    Always Orderly c.view.hist := by
  refine invariant_of_guar (sound P) (I := fun v => Always Orderly v.hist) (fun _ _ => trivial) ?_ h
  intro v v' hv hst
  cases hst with
  | guar hi hg =>
      obtain ⟨l, w, rfl, hd⟩ := hg
      exact ⟨hd.orderly hi, hv⟩
  | env _ he => cases he
  | stop _ hs =>
      cases hs
      exact hv

/-! ## A run -/

def samplePlatform : Platform := ⟨fun _ => ""⟩

def firstBoot : String := "00000000000000000000000000000001"

def secondBoot : String := "00000000000000000000000000000002"

def sampleRequest : Request := ⟨"00000000000000000000000000000003", secondBoot, "tool", .null⟩

/-- The files after a call of the host that gave up once it had started the task. -/
def World.configured : World := { World.start with session := some [], config := true }

/-- The files after a first agent process. -/
def World.bootedOnce (t : ℕ) : World :=
  { World.configured with boots := [⟨firstBoot, 10001⟩], drawn := [(firstBoot, t)] }

/-- The files after a second process, which left a request. -/
def World.requested (t u : ℕ) : World :=
  { World.configured with
    boots := [⟨firstBoot, 10001⟩, ⟨secondBoot, 10001⟩]
    requests := [(sampleRequest.id, sampleRequest)]
    drawn := [(sampleRequest.id, u), (secondBoot, u), (firstBoot, t)] }

/-- The files after a call of the host that answered the request. -/
def World.answered (t u : ℕ) : World :=
  { World.requested t u with
    session := some [.complete]
    budget := some ⟨1, 12⟩
    responses := [(sampleRequest.id, ⟨sampleRequest.id, .ok .null⟩)] }

/-- The files after a call of the host that was cut short. -/
def World.cut (t u : ℕ) : World := { World.answered t u with session := some [.complete, .started] }

theorem frameBytes_sample : frameBytes samplePlatform sampleRequest.toJson ≤ maxFrameBytes := by
  unfold frameBytes
  decide +kernel

theorem pending_sample (hr : w.requests = [(sampleRequest.id, sampleRequest)]) (hs : w.responses = []) :
    pending samplePlatform secondBoot w = [(sampleRequest.id, sampleRequest)] := by
  unfold pending
  rw [hr, hs, List.filter_cons_of_pos, List.filter_nil, List.mergeSort_singleton]
  rw [decide_eq_true frameBytes_sample]
  rfl

theorem may_configure (hv : v.world = .start) :
    may t (.host 1) (runAxAgent samplePlatform 1) (fun _ v' => v'.world = .configured) v := by
  obtain ⟨_, hist⟩ := v
  cases hv
  exact ⟨_, _, rfl, _, _, rfl, none, none, _, _, rfl, none, 1, none, _, _, rfl, true, none, _, _, rfl, none,
    none, _, _, rfl, 0, _, _, rfl, rfl⟩

theorem may_bootOnce (hv : v.world = .configured) :
    may t .guest (main samplePlatform) (fun _ v' => v'.world = .bootedOnce t) v := by
  obtain ⟨_, hist⟩ := v
  cases hv
  exact ⟨none, _, _, rfl, none, _, _, rfl, firstBoot, _, _, rfl, 10001, none, _, _, rfl, none,
    0, some .platform, .null, some .platform, rfl⟩

theorem may_publish (hid : sampleRequest.id ∉ v.world.drawn.map Prod.fst) :
    may t .guest (call samplePlatform secondBoot "tool" .null) (fun _ v' => v'.world = { v.world with
      requests := put sampleRequest.id sampleRequest v.world.requests
      drawn := (sampleRequest.id, t) :: v.world.drawn }) v := by
  have hfits : ∀ e, refuse (frameBytes samplePlatform sampleRequest.toJson > maxFrameBytes) e = .done () :=
    fun e => if_neg (Nat.not_lt.2 frameBytes_sample)
  refine ⟨sampleRequest.id, _, _, if_pos ⟨by decide, hid⟩, ?_⟩
  show may t _ ((refuse (frameBytes samplePlatform sampleRequest.toJson > maxFrameBytes) _).bind _) _ _
  rw [hfits]
  exact ⟨none, _, _, rfl, none, 0, rfl⟩

theorem may_request {u : ℕ} (hv : v.world = .bootedOnce t) :
    may u .guest (main samplePlatform) (fun _ v' => v'.world = .requested t u) v := by
  obtain ⟨_, hist⟩ := v
  cases hv
  refine may_bind (may_tryCatch ?_)
  unfold start
  refine ⟨none, _, _, rfl, none, _, _, rfl, secondBoot, _, _, rfl, 10001, none, _, _, rfl, none, 1, ?_⟩
  refine may_bind (p := agent samplePlatform secondBoot 1) ⟨("tool", .null), ?_⟩
  refine may_bind (p := (call samplePlatform secondBoot "tool" .null).attempt) (may_attempt ?_)
  refine may_mono (may_publish ?_) fun r v' hv' => ?_
  · show sampleRequest.id ∉ [secondBoot, firstBoot]
    decide
  · exact ⟨some .platform, .null, some .platform, hv'⟩

theorem may_answer {u s : ℕ} (hv : v.world = .requested t u) :
    may s (.host 1) (runAxAgent samplePlatform 1)
      (fun _ v' => v'.world = .answered t u ∧ Did v'.hist (.dispatched sampleRequest)) v := by
  obtain ⟨_, hist⟩ := v
  cases hv
  refine ⟨_, _, rfl, ?_⟩
  refine may_bind (p := (attend samplePlatform 1).attempt) (may_attempt ?_)
  unfold attend
  refine ⟨_, _, rfl, none, _, _, rfl, none, none, _, _, rfl, none, none, _, _, rfl, none, none, none, _, _, rfl, none,
    none, none, _, _, rfl, none, none, _, _, rfl, 1, none, _, _, rfl, _, _, rfl, _, _, rfl, ?_⟩
  refine ⟨_, _, congrArg (fun files => some (files, _)) (pending_sample rfl rfl), ?_⟩
  refine ⟨_, _, rfl, none, _, _, rfl, none, _, _, rfl, .ok .null, _, _, rfl, none, _, _, rfl, none, _, _, rfl, rfl, ?_⟩
  exact ⟨_, .tail _ (.tail _ (.tail _ (.head _))), rfl⟩

theorem may_cut {u s : ℕ} (hv : v.world = .answered t u) (hd : Did v.hist (.dispatched sampleRequest)) :
    may s (.host 1) (runAxAgent samplePlatform 1)
      (fun _ v' => v'.world = .cut t u ∧ Did v'.hist (.dispatched sampleRequest)) v := by
  obtain ⟨_, hist⟩ := v
  cases hv
  refine ⟨_, _, rfl, _, _, rfl, none, _, _, rfl, none, none, _, _, rfl, none, none, _, _, rfl, some .platform, _, _, rfl,
    rfl, ?_⟩
  exact hd.mono ⟨[_, _, _, _, _, _], rfl⟩

theorem may_giveUp {u s : ℕ} (hv : v.world = .cut t u) :
    may s (.host 1) (runAxAgent samplePlatform 1) (fun r _ => r = .ok indeterminate) v := by
  obtain ⟨_, hist⟩ := v
  cases hv
  exact ⟨_, _, rfl, _, _, rfl, _, _, rfl, rfl⟩

/-! ## The guarantee -/

/-- **Each request is carried out once.**  In every run of agent processes and of calls of
`run_ax_agent`, of which any may be killed anywhere, a request is carried out only if an agent
published it, at most once, while its boot is the one that followed the last transition, and
within the budget; and what an agent reads as the answer is what was returned for its own request.
Once a transition was cut short and no call is in progress, nothing is carried out again. -/
theorem carried_out_once {c : Conf World Act Party Failure Json} (h : Reachable (system P) c) :
    Always Orderly c.view.hist ∧
    ∀ c', Steps (system P) c c' → c.view.world.host = none → Cut c.view.world →
      c'.view.world.session = c.view.world.session ∧
        dispatches c'.view.hist = dispatches c.view.hist := by
  refine ⟨always_orderly h, fun c' hsteps hnone hcut => ?_⟩
  have hstuck : Stuck c.view := ⟨hcut, fun t ht => by rw [hnone] at ht; cases ht⟩
  refine (preserved_of_guar (sound P) (I := fun v => Stuck v ∧
    v.world.session = c.view.world.session ∧ dispatches v.hist = dispatches c.view.hist) ?_ h hsteps
    ⟨hstuck, rfl, rfl⟩).2
  rintro v v' ⟨hs, hsession, hdispatches⟩ hst
  cases hst with
  | guar _ hg =>
      obtain ⟨l, w, rfl, hd⟩ := hg
      obtain ⟨hs', hsession', hdispatches'⟩ := hd.stuck hs
      exact ⟨hs', hsession'.trans hsession, hdispatches'.trans hdispatches⟩
  | env _ he => cases he
  | @stop c D w _ hstop =>
      cases hstop
      refine ⟨⟨hs.1, fun t ht => hs.2 t ?_⟩, hsession, hdispatches⟩
      exact (Option.mem_filter_iff.1 ht).1

/-- A call of the host answers the request that an agent left; the next call is cut short, and the
one after that does nothing. -/
theorem carried_out_once_sample : ∃ c c', Steps (system samplePlatform) c c' ∧
    Did c.view.hist (.dispatched sampleRequest) ∧ Always Orderly c.view.hist ∧
    c'.threads 5 = some (.host 1, .done indeterminate) ∧
    c'.view.world.session = c.view.world.session ∧ dispatches c'.view.hist = dispatches c.view.hist := by
  have hhost : ∀ c, (system samplePlatform).calls c (.host 1) (runAxAgent samplePlatform 1) := fun _ => rfl
  have hguest : ∀ c, (system samplePlatform).calls c .guest (main samplePlatform) := fun _ => rfl
  have h₀ : Reachable (system samplePlatform) ⟨⟨.start, []⟩, fun _ => none, 0⟩ := .init rfl
  obtain ⟨-, c₁, h₁, hn₁, -, hw₁⟩ := h₀.may (hhost _) (may_configure rfl)
  obtain ⟨-, c₂, h₂, hn₂, -, hw₂⟩ := h₁.may (hguest _) (may_bootOnce hw₁)
  obtain ⟨-, c₃, h₃, hn₃, -, hw₃⟩ := h₂.may (hguest _) (may_request hw₂)
  obtain ⟨-, c₄, h₄, hn₄, -, hw₄, hd₄⟩ := h₃.may (hhost _) (may_answer hw₃)
  obtain ⟨-, c₅, h₅, hn₅, -, hw₅, hd₅⟩ := h₄.may (hhost _) (may_cut hw₄ hd₄)
  have hnext : c₅.next = 5 := by rw [hn₅, hn₄, hn₃, hn₂, hn₁]
  obtain ⟨r, c₆, hs, -, ht, rfl⟩ := steps_of_may (S := system samplePlatform)
    (c := ⟨c₅.view, Function.update c₅.threads c₅.next (some (.host 1, runAxAgent samplePlatform 1)), c₅.next + 1⟩)
    (Function.update_self _ _ _) (may_giveUp hw₅)
  have hsteps : Steps (system samplePlatform) c₅ c₆ := .head (.call (hhost c₅)) hs
  obtain ⟨halways, hstill⟩ := carried_out_once h₅
  have hcut : Cut c₅.view.world := by
    rw [hw₅]
    exact ⟨_, rfl, by unfold Resumed; decide⟩
  obtain ⟨hsession, hdispatches⟩ := hstill c₆ hsteps (by rw [hw₅]; rfl) hcut
  exact ⟨c₅, c₆, hsteps, hd₅, halways, hnext ▸ ht, hsession, hdispatches⟩

end AutonomyLab.Ax
