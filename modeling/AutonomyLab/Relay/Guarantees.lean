import AutonomyLab.Relay.Sound

/-!
# What the relay guarantees

Against an agent that chooses its calls, a provider that may answer anything, and a
host that may be killed at any moment:

* `relay_budget` — the relays on a file forward no more requests than the run has
  turns, each counted, within the budget, and only when every earlier one has been
  accounted for.
* `fails_closed` — after a response whose usage is unknown or exceeds what was
  reserved, nothing more is forwarded, provided that no relay is killed between the
  two writes that follow such a response; `reopened` is what happens otherwise.
-/

namespace AutonomyLab.Relay

open Json Process

variable {O : Options → Prop} {dies : Seen → Prop} {o : Options}

/-- A configuration of the relays on a file. -/
abbrev Relays := Sequential.Conf World Act Options (CallError × ModelRelay) (Unit × ModelRelay)

/-! ## A run to look at -/

def sampleOptions : Options := ⟨2, 200, 5⟩

def sampleInput : Json := .obj [("contents", .arr [])]

def sampleRequest : Json := .obj [("contents", .arr []), ("max_output_tokens", .int 5)]

/-- A count, and the generation that was counted. -/
def sampleCalls : List (String × Json) :=
  [("count_tokens", sampleInput), ("generate", sampleRequest)]

/-- A response that reports `usage` tokens. -/
def sampleResponse (usage : ℕ) : Json :=
  .obj [("usageMetadata", .obj [("totalTokenCount", .int usage)])]

/-- A relay that finds no file forwards the sample request. -/
theorem visits_sample {t : ℕ} {v : Seen} (hw : v.world = none) :
    Sequential.visits t sampleOptions (session sampleOptions sampleCalls)
      (fun u => ∃ e h, u.hist = e :: h ∧ e.label = .generate sampleRequest ⟨5, 0, 5⟩) v := by
  obtain ⟨w, h⟩ := v
  obtain rfl : w = none := hw
  refine .inr ⟨_, _, rfl, .inr ⟨_, _, rfl, .inr ⟨_, _, rfl, ?_⟩⟩⟩
  -- the provider counts five tokens
  refine .inr ⟨some 5, .inr ⟨_, _, rfl, ?_⟩⟩
  exact .inr ⟨_, _, rfl, .inr ⟨_, _, rfl, Sequential.visits_here ⟨_, _, rfl, rfl⟩⟩⟩

/-- The first relay is killed after the first of the two writes. -/
theorem visits_overrun {t : ℕ} {v : Seen} (hw : v.world = none) :
    Sequential.visits t sampleOptions (session sampleOptions sampleCalls)
      (fun u => u.world = some ⟨1, 100, false, [sampleResponse 100], 1⟩ ∧
        ∃ e ∈ u.hist, e.label = .received (sampleResponse 100) ⟨5, 0, 5⟩) v := by
  obtain ⟨w, h⟩ := v
  obtain rfl : w = none := hw
  refine .inr ⟨_, _, rfl, .inr ⟨_, _, rfl, .inr ⟨_, _, rfl, ?_⟩⟩⟩
  refine .inr ⟨some 5, .inr ⟨_, _, rfl, ?_⟩⟩
  refine .inr ⟨_, _, rfl, .inr ⟨_, _, rfl, ?_⟩⟩
  -- the provider reports a hundred tokens where ten were reserved
  refine .inr ⟨.returned (sampleResponse 100), .inr ⟨_, _, rfl, .inr ⟨_, _, rfl, ?_⟩⟩⟩
  exact Sequential.visits_here ⟨rfl, _, List.mem_cons_of_mem _ List.mem_cons_self, rfl⟩

/-- The next relay finds an open file, and forwards another request. -/
theorem visits_after_overrun {t : ℕ} {v : Seen}
    (hw : v.world = some ⟨1, 100, false, [sampleResponse 100], 1⟩) :
    Sequential.visits t sampleOptions (session sampleOptions sampleCalls)
      (fun u => ∃ e h, u.hist = e :: h ∧ v.hist <:+ h ∧ e.label.isGenerate) v := by
  obtain ⟨w, h⟩ := v
  obtain rfl : w = some ⟨1, 100, false, [sampleResponse 100], 1⟩ := hw
  refine .inr ⟨_, _, rfl, .inr ⟨_, _, rfl, .inr ⟨_, _, rfl, ?_⟩⟩⟩
  refine .inr ⟨some 5, .inr ⟨_, _, rfl, ?_⟩⟩
  refine .inr ⟨_, _, rfl, .inr ⟨_, _, rfl, Sequential.visits_here ⟨_, _, rfl, ?_, rfl⟩⟩⟩
  exact ⟨[_, _, _, _, _], rfl⟩

/-! ## The budget -/

/-- **The relay keeps the budget of a run.**  Under fixed options, whatever the agent asks
for and the provider answers, and wherever relays are killed: the relays on a file forward
at most `max_turns` requests; each has the inputs of the latest count, of which no other
request has made use, and fits the budget as it stands then; none is forwarded after one
that has not been accounted for; and while every response is within its reservation, the
saved total is within the budget. -/
theorem relay_budget {c : Relays} (h : Sequential.Reachable (system (· = o) dies) c) :
    (generates c.view.hist).length ≤ o.maxTurns ∧
    Always (fun e before => ∀ arguments r, e.label = .generate arguments r →
      Forwarded o before e.tid e.pre.state arguments r ∧ Recorded before) c.view.hist ∧
    (Within c.view.hist → c.view.world.state.tokens ≤ o.maxTotalTokens) := by
  obtain ⟨t, φ, hrun⟩ := run_of_reachable h
  refine ⟨?_, ?_, fun hw => by exact_mod_cast (hrun.total hw).1⟩
  · have hturns := hrun.turns
    omega
  · have hrec := hrun.recorded.2
    have hfwd := hrun.forwarded.2
    revert hrec hfwd
    induction c.view.hist with
    | nil => exact fun _ _ => trivial
    | cons e before ih =>
        intro hrec hfwd
        exact ⟨fun arguments r hl => ⟨hfwd.1 arguments r hl, hrec.1 (by rw [hl]; rfl)⟩,
          ih hrec.2 hfwd.2⟩

/-- The sample request is forwarded, within the budget. -/
theorem relay_budget_sample : ∃ c : Relays,
    (∃ e ∈ c.view.hist, e.label = .generate sampleRequest ⟨5, 0, 5⟩) ∧
    (generates c.view.hist).length ≤ sampleOptions.maxTurns ∧
    Always (fun e before => ∀ arguments r, e.label = .generate arguments r →
      Forwarded sampleOptions before e.tid e.pre.state arguments r ∧ Recorded before) c.view.hist ∧
    (Within c.view.hist → c.view.world.state.tokens ≤ sampleOptions.maxTotalTokens) := by
  obtain ⟨c, hc, -, -, e, before, hhist, hl⟩ := Sequential.Reachable.visits
    (S := system (· = sampleOptions) fun _ => True) (.init rfl) rfl ⟨rfl, sampleCalls, rfl⟩
    (Sequential.visits_mono (visits_sample rfl) fun _ hu => ⟨trivial, hu⟩)
  exact ⟨c, ⟨e, hhist ▸ List.mem_cons_self, hl⟩, relay_budget hc⟩

/-! ## Failing closed -/

/-- Nothing is forwarded after a response that was not paid for in advance. -/
def FailsClosed (h : List Done) : Prop := Always (fun e before => e.label.isGenerate → Paid before) h

/-- **The relay fails closed, unless it is killed between two writes.**  Whatever the agent
asks for and the provider answers, and with whatever options relays are created: if none is
killed between the two writes that follow a response in excess of its reservation, then after
a response whose usage is unknown or exceeds what was reserved no request is forwarded. -/
theorem fails_closed {c : Relays}
    (h : Sequential.Reachable (system O fun v => ¬BetweenSaves v) c) : FailsClosed c.view.hist := by
  obtain ⟨t, φ, hrun⟩ := run_of_reachable h
  exact hrun.failsClosed.2

/-- Where a request has just been forwarded, no response is being accounted for. -/
theorem not_betweenSaves {v : Seen} {e : Done} {h : List Done} (hhist : v.hist = e :: h)
    (hg : e.label.isGenerate) : ¬BetweenSaves v := by
  rintro ⟨e', _, _, _, _, _, _, hhist', hl, -⟩
  rw [hhist] at hhist'
  obtain ⟨rfl, -⟩ := List.cons.inj hhist'
  rw [hl] at hg
  cases hg

/-- The sample request is forwarded, and nothing before it was unpaid for. -/
theorem fails_closed_sample : ∃ c : Relays,
    (∃ e ∈ c.view.hist, e.label = .generate sampleRequest ⟨5, 0, 5⟩) ∧ FailsClosed c.view.hist := by
  obtain ⟨c, hc, -, -, e, before, hhist, hl⟩ := Sequential.Reachable.visits
    (S := system (fun _ => True) fun v => ¬BetweenSaves v)
    (P := fun u => ∃ e h, u.hist = e :: h ∧ e.label = .generate sampleRequest ⟨5, 0, 5⟩)
    (.init rfl) rfl ⟨trivial, sampleCalls, rfl⟩ (Sequential.visits_mono (visits_sample rfl)
      fun u ⟨e, h, hhist, hl⟩ => ⟨not_betweenSaves hhist (by rw [hl]; rfl), e, h, hhist, hl⟩)
  exact ⟨c, ⟨e, hhist ▸ List.mem_cons_self, hl⟩, fails_closed hc⟩

/-- A relay that is killed between the two writes leaves an open file: the next relay
forwards a request after a response of a hundred tokens for which ten were reserved. -/
theorem reopened : ∃ c : Relays,
    Sequential.Reachable (system (· = sampleOptions) fun _ => True) c ∧
      ¬FailsClosed c.view.hist := by
  obtain ⟨c, hc, hn, -, hw, e, he, hl⟩ := Sequential.Reachable.visits
    (S := system (· = sampleOptions) fun _ => True) (.init rfl) rfl ⟨rfl, sampleCalls, rfl⟩
    (Sequential.visits_mono (visits_overrun rfl) fun _ hu => ⟨trivial, hu⟩)
  obtain ⟨c', hc', -, -, g, before, hhist, hsuf, hg⟩ := hc.visits hn ⟨rfl, sampleCalls, rfl⟩
    (Sequential.visits_mono (visits_after_overrun hw) fun _ hu => ⟨trivial, hu⟩)
  refine ⟨c', hc', fun hclosed => ?_⟩
  rw [hhist] at hclosed
  refine hclosed.1 hg e (hsuf.subset he) ⟨_, _, hl, ?_⟩
  rintro usage hu
  cases hu
  decide

end AutonomyLab.Relay
