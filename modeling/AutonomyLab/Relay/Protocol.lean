import AutonomyLab.Relay.Program

/-!
# What a relay does, act by act

The relay on one file goes through a few phases, and in each of them only a few
acts are possible.  `Run` lists them, with the condition under which the relay takes
each; a relay that is killed leaves its file and nothing else.

* `Phase`, `Run` — the phases and the histories a relay can have.
* `Admits` — what a relay has checked when it marks a request as pending.
* `Run.turns`, `Run.recorded`, `Run.total`, `Run.forwarded` — what the file and the
  history have to do with each other, in every phase, whenever relays may be killed.
* `Run.failsClosed` — what holds after a response that was not paid for in advance,
  if no relay is killed between the two writes that follow it (`BetweenSaves`).
-/

namespace AutonomyLab.Relay

open Json Process

/-- What a relay and its predecessors did, and what the file holds. -/
abbrev Seen := View World Act Options

/-- One act of a relay. -/
abbrev Done := Event World Act Options

/-- Where a relay is in its work. -/
inductive Phase where
  /-- There is no relay. -/
  | idle
  /-- The relay waits for a call; the memory of its state is what the file holds. -/
  | ready (preflight : Option (Json × ℤ))
  /-- A request is marked as pending. -/
  | reserved (arguments : Json) (r : Reservation)
  /-- The request is at the provider. -/
  | sent (r : Reservation)
  /-- A response is here that has not been accounted for. -/
  | answered (response : Json) (r : Reservation)
  /-- A response that exceeds its reservation has been accounted for. -/
  | overrun

/-- What has been checked of a request when it is marked as pending. -/
structure Admits (o : Options) (s : RelayState) (arguments counted : Json) (r : Reservation) :
    Prop where
  inputs : ∃ inputs, inputsOf arguments = .ok inputs ∧ PyEq inputs counted ∧
    reservedThoughts s.responses inputs = .ok r.thoughts
  output : arguments.get "max_output_tokens" = .ok (.int r.output)
  positive : 1 ≤ r.output
  limited : r.output ≤ o.maxOutputTokens
  turn : s.calls < o.maxTurns
  total : s.tokens + r.total ≤ o.maxTotalTokens

/-- The file after a count has been charged. -/
def RelayState.charged (s : RelayState) : RelayState := { s with counts := s.counts + 1 }

/-- The file after a request has been marked as pending. -/
def RelayState.requested (s : RelayState) : RelayState :=
  { s with calls := s.calls + 1, pending := true }

/-- The file after a response that reports `usage` tokens. -/
def RelayState.accounted (s : RelayState) (response : Json) (usage : ℕ) : RelayState :=
  { s with responses := s.responses ++ [response], tokens := s.tokens + usage, pending := false }

/-- The file after a response that exceeds its reservation. -/
def RelayState.closed (s : RelayState) : RelayState := { s with pending := true }

/-- The histories of relays on one file, and the phase the relay with number `t` is in. -/
inductive Run (O : Options → Prop) (dies : Seen → Prop) : ℕ → Phase → Seen → Prop
  | init : Run O dies 0 .idle ⟨none, []⟩
  | load {t u o v} : Run O dies t .idle v → (∀ e ∈ v.hist, e.tid < u) →
      Run O dies u (.ready none) (v.log u o .load v.world)
  | charge {t o p v} : Run O dies t (.ready p) v → v.world.state.pending = false →
      Run O dies t (.ready p) (v.log t o (.save v.world.state.charged) (some v.world.state.charged))
  | count {t o p v} (arguments : Json) : Run O dies t (.ready p) v →
      Run O dies t (.ready p) (v.log t o (.count arguments) v.world)
  | counted {t o p v} (arguments : Json) (n : ℤ) : Run O dies t (.ready p) v →
      Run O dies t (.ready (some (arguments, n))) (v.log t o (.counted arguments n) v.world)
  | drop {t p v} : Run O dies t (.ready p) v → Run O dies t (.ready none) v
  | request {t o v arguments counted} {r : Reservation} : O o →
      Run O dies t (.ready (some (counted, r.count))) v → v.world.state.pending = false →
      Admits o v.world.state arguments counted r →
      Run O dies t (.reserved arguments r)
        (v.log t o (.save v.world.state.requested) (some v.world.state.requested))
  | send {t o v arguments r} : Run O dies t (.reserved arguments r) v →
      Run O dies t (.sent r) (v.log t o (.generate arguments r) v.world)
  | receive {t o v r} (response : Json) : Run O dies t (.sent r) v →
      Run O dies t (.answered response r) (v.log t o (.received response r) v.world)
  | lost {t v r} : Run O dies t (.sent r) v → Run O dies t (.ready none) v
  | account {t o v response r usage} : Run O dies t (.answered response r) v →
      usageOf response = .ok usage →
      Run O dies t (if usage > r.total then .overrun else .ready none)
        (v.log t o (.save (v.world.state.accounted response usage))
          (some (v.world.state.accounted response usage)))
  | unknown {t v response r e} : Run O dies t (.answered response r) v →
      usageOf response = .error e → Run O dies t (.ready none) v
  | close {t o v} : Run O dies t .overrun v →
      Run O dies t (.ready none) (v.log t o (.save v.world.state.closed) (some v.world.state.closed))
  | die {t φ v} : Run O dies t φ v → dies v → Run O dies t .idle v
  | leave {t p v} : Run O dies t (.ready p) v → Run O dies t .idle v

/-! ## What is read off a history -/

/-- `client.generate` is called. -/
def Act.isGenerate : Act → Bool
  | .generate _ _ => true
  | _ => false

/-- The requests that were forwarded to the provider. -/
def generates (h : List Done) : List Done := h.filter fun e => e.label.isGenerate

/-- The latest count of which a request has not made use yet: the relay that made it,
its input and its result. -/
def latestCount : List Done → Option (ℕ × Json × ℤ)
  | [] => none
  | e :: h => match e.label with
      | .counted arguments n => some (e.tid, arguments, n)
      | .generate _ _ => none
      | _ => latestCount h

/-- Every request that was forwarded has been accounted for by the relay that forwarded it. -/
def Recorded (h : List Done) : Prop :=
  ∀ h₂ g h₁, h = h₂ ++ g :: h₁ → g.label.isGenerate → ∃ e ∈ h₂, e.tid = g.tid ∧ ∃ s, e.label = .save s

/-- The last request that was forwarded is one of relay `t`, and all before it have been
accounted for. -/
def InFlight (t : ℕ) (h : List Done) : Prop :=
  ∃ h₂ g h₁, h = h₂ ++ g :: h₁ ∧ g.tid = t ∧ generates h₂ = [] ∧ Recorded h₁

/-- What holds of a request when it is forwarded. -/
structure Forwarded (o : Options) (before : List Done) (t : ℕ) (s : RelayState) (arguments : Json)
    (r : Reservation) : Prop where
  /-- Its inputs are those of the latest count, which no other request has made use of. -/
  counted : ∃ inputs counted, inputsOf arguments = .ok inputs ∧ PyEq inputs counted ∧
    latestCount before = some (t, counted, r.count) ∧
    reservedThoughts s.responses inputs = .ok r.thoughts
  output : arguments.get "max_output_tokens" = .ok (.int r.output)
  limited : 1 ≤ r.output ∧ r.output ≤ o.maxOutputTokens
  total : s.tokens + r.count + r.thoughts + r.output ≤ o.maxTotalTokens

/-- No response reported more than was reserved for its request. -/
def Within (h : List Done) : Prop :=
  ∀ e ∈ h, ∀ response r usage, e.label = .received response r → usageOf response = .ok usage →
    usage ≤ r.total

/-- A response whose usage is unknown or exceeds the reservation. -/
def Act.Unpaid (a : Act) : Prop :=
  ∃ response r, a = .received response r ∧ ∀ usage, usageOf response = .ok usage → r.total < usage

variable {O : Options → Prop} {dies : Seen → Prop} {o : Options} {t : ℕ} {φ : Phase} {v : Seen}

theorem Recorded.cons {e : Done} {h : List Done} (hr : Recorded h) (he : e.label.isGenerate = false) :
    Recorded (e :: h) := by
  intro h₂ g h₁ heq hg
  cases h₂ with
  | nil =>
      obtain ⟨rfl, rfl⟩ := List.cons.inj heq
      rw [he] at hg
      cases hg
  | cons x h₂ =>
      obtain ⟨rfl, rfl⟩ := List.cons.inj heq
      obtain ⟨s, hs, hst⟩ := hr h₂ g h₁ rfl hg
      exact ⟨s, List.mem_cons_of_mem _ hs, hst⟩

theorem InFlight.cons {e : Done} {h : List Done} (hf : InFlight t h)
    (he : e.label.isGenerate = false) : InFlight t (e :: h) := by
  obtain ⟨h₂, g, h₁, rfl, hg, hnone, hr⟩ := hf
  refine ⟨e :: h₂, g, h₁, rfl, hg, ?_, hr⟩
  rw [generates, List.filter_cons, he]
  exact hnone

/-- The write that accounts for the request in flight. -/
theorem InFlight.recorded {e : Done} {h : List Done} {s : RelayState} (hf : InFlight t h)
    (ht : e.tid = t) (he : e.label = .save s) : Recorded (e :: h) := by
  obtain ⟨h₂, g, h₁, rfl, hg, hnone, hr⟩ := hf
  intro k₂ g' k₁ heq hg'
  rcases List.append_eq_append_iff.1 (show (e :: h₂) ++ g :: h₁ = k₂ ++ g' :: k₁ from heq) with
    ⟨m, rfl, hm⟩ | ⟨m, hm, hm'⟩
  · cases m with
    | nil =>
        obtain ⟨rfl, rfl⟩ := List.cons.inj hm
        exact ⟨e, by simp, ht.trans hg.symm, s, he⟩
    | cons x m =>
        obtain ⟨rfl, rfl⟩ := List.cons.inj hm
        obtain ⟨e', he', h'⟩ := hr m g' k₁ rfl hg'
        exact ⟨e', by simp [he'], h'⟩
  · cases m with
    | nil =>
        obtain ⟨rfl, rfl⟩ := List.cons.inj hm'
        exact ⟨e, by rw [List.append_nil] at hm; exact hm ▸ List.mem_cons_self, ht.trans hg.symm, s, he⟩
    | cons x m =>
        obtain ⟨rfl, -⟩ := List.cons.inj hm'
        cases k₂ with
        | nil =>
            obtain ⟨rfl, -⟩ := List.cons.inj hm
            rw [he] at hg'
            cases hg'
        | cons y k₂ =>
            obtain ⟨-, rfl⟩ := List.cons.inj hm
            have hmem : g' ∈ generates (k₂.append (g' :: m)) :=
              List.mem_filter.2 ⟨List.mem_append_right _ List.mem_cons_self, hg'⟩
            rw [hnone] at hmem
            cases hmem

theorem Within.of_cons {e : Done} {h : List Done} (hw : Within (e :: h)) : Within h :=
  fun e' he' => hw e' (List.mem_cons_of_mem _ he')

theorem Recorded.nil : Recorded [] := fun h₂ g h₁ heq => by simp at heq

/-! ## The file and the history -/

/-- How many requests are marked as pending that have not been forwarded. -/
def Phase.marked : Phase → ℕ
  | .reserved _ _ => 1
  | _ => 0

/-- What is reserved for a request whose response has not been accounted for. -/
def Phase.cost : Phase → ℤ
  | .reserved _ r | .sent r | .answered _ r => r.total
  | _ => 0

/-- No more requests are forwarded than have been charged. -/
theorem Run.turns (h : Run (· = o) dies t φ v) :
    (generates v.hist).length + φ.marked ≤ v.world.state.calls ∧
      v.world.state.calls ≤ o.maxTurns := by
  induction h with
  | init => exact ⟨Nat.zero_le _, Nat.zero_le _⟩
  | load _ _ ih => exact ih
  | charge _ _ ih => exact ih
  | count _ _ ih => exact ih
  | counted _ _ _ ih => exact ih
  | drop _ ih => exact ih
  | request hO _ _ ha ih =>
      subst hO
      exact ⟨Nat.succ_le_succ ih.1, ha.turn⟩
  | send _ ih => exact ih
  | receive _ _ ih => exact ih
  | lost _ ih => exact ih
  | @account t o' v response r usage _ _ ih =>
      refine ⟨?_, ih.2⟩
      split
      · exact ih.1
      · exact ih.1
  | unknown _ _ ih => exact ih
  | close _ ih => exact ih
  | die _ _ ih => exact ⟨Nat.le_trans (Nat.le_add_right _ _) ih.1, ih.2⟩
  | leave _ ih => exact ih

/-- Which requests have been accounted for in a phase: all of them, unless one is at the
provider or the file is marked. -/
def Phase.Accounts : Phase → ℕ → Seen → Prop
  | .idle, _, v | .ready _, _, v => v.world.state.pending = false → Recorded v.hist
  | .reserved _ _, _, v => Recorded v.hist ∧ v.world.state.pending = true
  | .sent _, t, v | .answered _ _, t, v => InFlight t v.hist ∧ v.world.state.pending = true
  | .overrun, _, v => Recorded v.hist

/-- No request is forwarded unless all before it have been accounted for. -/
theorem Run.recorded (h : Run O dies t φ v) : φ.Accounts t v ∧
    Always (fun e before => e.label.isGenerate → Recorded before) v.hist := by
  induction h with
  | init => exact ⟨fun _ => .nil, trivial⟩
  | load _ _ ih => exact ⟨fun hp => (ih.1 hp).cons rfl, nofun, ih.2⟩
  | charge _ _ ih => exact ⟨fun hp => (ih.1 hp).cons rfl, nofun, ih.2⟩
  | count _ _ ih => exact ⟨fun hp => (ih.1 hp).cons rfl, nofun, ih.2⟩
  | counted _ _ _ ih => exact ⟨fun hp => (ih.1 hp).cons rfl, nofun, ih.2⟩
  | drop _ ih => exact ih
  | request _ _ hp _ ih => exact ⟨⟨(ih.1 hp).cons rfl, rfl⟩, nofun, ih.2⟩
  | send _ ih => exact ⟨⟨⟨[], _, _, rfl, rfl, rfl, ih.1.1⟩, ih.1.2⟩, fun _ => ih.1.1, ih.2⟩
  | receive _ _ ih => exact ⟨⟨ih.1.1.cons rfl, ih.1.2⟩, nofun, ih.2⟩
  | lost _ ih => exact ⟨fun hp => absurd hp (by simp [ih.1.2]), ih.2⟩
  | @account t o v response r usage _ _ ih =>
      have hr : Recorded (v.log t o (.save (v.world.state.accounted response usage))
          (some (v.world.state.accounted response usage))).hist := ih.1.1.recorded rfl rfl
      refine ⟨?_, nofun, ih.2⟩
      by_cases hover : usage > r.total
      · rw [if_pos hover]
        exact hr
      · rw [if_neg hover]
        exact fun _ => hr
  | unknown _ _ ih => exact ⟨fun hp => absurd hp (by simp [ih.1.2]), ih.2⟩
  | close _ ih => exact ⟨nofun, nofun, ih.2⟩
  | @die t φ v _ _ ih =>
      refine ⟨fun hp => ?_, ih.2⟩
      cases φ with
      | idle | ready p => exact ih.1 hp
      | reserved a r => exact ih.1.1
      | overrun => exact ih.1
      | sent r | answered response r => exact absurd hp (by simp [ih.1.2])
  | leave _ ih => exact ih

/-- The response that is being accounted for is one the provider has sent. -/
theorem Run.received {response : Json} {r : Reservation}
    (h : Run O dies t (.answered response r) v) :
    ∃ e ∈ v.hist, e.label = .received response r := by
  generalize hφ : Phase.answered response r = φ at h
  cases h with
  | receive response' _ =>
      cases hφ
      exact ⟨_, List.mem_cons_self, rfl⟩
  | account _ _ => split at hφ <;> cases hφ
  | _ => cases hφ

/-- While every response is within its reservation, what has been spent and what is
reserved stay within the budget. -/
theorem Run.total (h : Run (· = o) dies t φ v) (hw : Within v.hist) :
    v.world.state.tokens ≤ (o.maxTotalTokens : ℤ) ∧
      v.world.state.tokens + φ.cost ≤ (o.maxTotalTokens : ℤ) := by
  induction h with
  | init => exact ⟨by simp [World.state, RelayState.initial], by simp [World.state, RelayState.initial, Phase.cost]⟩
  | load _ _ ih => exact ih hw.of_cons
  | charge _ _ ih => exact ih hw.of_cons
  | count _ _ ih => exact ih hw.of_cons
  | counted _ _ _ ih => exact ih hw.of_cons
  | drop _ ih => exact ih hw
  | request hO _ _ ha ih =>
      subst hO
      exact ⟨(ih hw.of_cons).1, ha.total⟩
  | send _ ih => exact ih hw.of_cons
  | receive _ _ ih => exact ih hw.of_cons
  | lost _ ih => exact ⟨(ih hw).1, by simpa [Phase.cost] using (ih hw).1⟩
  | @account t o' v response r usage hrun hu ih =>
      obtain ⟨-, hcost⟩ := ih hw.of_cons
      have hle : usage ≤ r.total := by
        obtain ⟨e, he, hl⟩ := hrun.received
        exact hw e (List.mem_cons_of_mem _ he) response r usage hl hu
      have htokens : ((v.world.state.tokens + usage : ℕ) : ℤ) ≤ o.maxTotalTokens := by
        simp only [Phase.cost] at hcost
        omega
      refine ⟨htokens, ?_⟩
      rw [if_neg (by omega)]
      exact (Int.add_zero _).trans_le htokens
  | unknown _ _ ih => exact ⟨(ih hw).1, by simpa [Phase.cost] using (ih hw).1⟩
  | close _ ih => exact ih hw.of_cons
  | die _ _ ih => exact ⟨(ih hw).1, by simpa [Phase.cost] using (ih hw).1⟩
  | leave _ ih => exact ih hw

/-- What is known of the request a relay is about to forward. -/
def Phase.Counted (o : Options) : Phase → ℕ → Seen → Prop
  | .ready (some (arguments, n)), t, v => latestCount v.hist = some (t, arguments, n)
  | .reserved arguments r, t, v => Forwarded o v.hist t v.world.state arguments r
  | _, _, _ => True

/-- Every request that is forwarded has been counted and fits the budget. -/
theorem Run.forwarded (h : Run (· = o) dies t φ v) : φ.Counted o t v ∧
    Always (fun e before => ∀ arguments r, e.label = .generate arguments r →
      Forwarded o before e.tid e.pre.state arguments r) v.hist := by
  induction h with
  | init => exact ⟨trivial, trivial⟩
  | load _ _ ih => exact ⟨trivial, nofun, ih.2⟩
  | @charge t o' p v _ _ ih =>
      refine ⟨?_, nofun, ih.2⟩
      cases p with
      | none => trivial
      | some counted => exact ih.1
  | @count t o' p v arguments _ ih =>
      refine ⟨?_, nofun, ih.2⟩
      cases p with
      | none => trivial
      | some counted => exact ih.1
  | counted _ _ _ ih => exact ⟨rfl, nofun, ih.2⟩
  | drop _ ih => exact ⟨trivial, ih.2⟩
  | @request t o' v arguments counted r hO _ _ ha ih =>
      subst hO
      obtain ⟨inputs, hi, hsame, hth⟩ := ha.inputs
      have htotal := ha.total
      simp only [Reservation.total] at htotal
      exact ⟨⟨⟨inputs, counted, hi, hsame, ih.1, hth⟩, ha.output, ⟨ha.positive, ha.limited⟩,
        by change ((v.world.state.tokens : ℕ) : ℤ) + _ + _ + _ ≤ _; omega⟩, nofun, ih.2⟩
  | send _ ih =>
      refine ⟨trivial, ?_, ih.2⟩
      rintro _ _ ⟨⟩
      exact ih.1
  | receive _ _ ih => exact ⟨trivial, nofun, ih.2⟩
  | lost _ ih => exact ⟨trivial, ih.2⟩
  | account _ _ ih =>
      refine ⟨?_, nofun, ih.2⟩
      split <;> trivial
  | unknown _ _ ih => exact ⟨trivial, ih.2⟩
  | close _ ih => exact ⟨trivial, nofun, ih.2⟩
  | die _ _ ih => exact ⟨trivial, ih.2⟩
  | leave _ ih => exact ⟨trivial, ih.2⟩

/-! ## Failing closed -/

/-- A response that exceeds its reservation has been accounted for, and the file has not
been marked again. -/
def BetweenSaves (v : Seen) : Prop :=
  ∃ e e' h s response r usage, v.hist = e :: e' :: h ∧ e.label = .save s ∧
    e'.label = .received response r ∧ usageOf response = .ok usage ∧ r.total < usage

/-- Every response was paid for in advance. -/
def Paid (h : List Done) : Prop := ∀ e ∈ h, ¬e.label.Unpaid

theorem Paid.cons {e : Done} {h : List Done} (hp : Paid h)
    (he : ∀ response r, e.label ≠ .received response r) : Paid (e :: h) := by
  intro x hx
  rcases List.mem_cons.1 hx with rfl | hx
  · rintro ⟨response, r, hr, -⟩
    exact he response r hr
  · exact hp x hx

/-- What a phase says of responses that were not paid for in advance. -/
def Phase.Closed : Phase → Seen → Prop
  | .idle, v | .ready _, v => v.world.state.pending = false → Paid v.hist
  | .reserved _ _, v | .sent _, v => v.world.state.pending = true ∧ Paid v.hist
  | .answered response r, v => v.world.state.pending = true ∧
      ∃ e h, v.hist = e :: h ∧ e.label = .received response r ∧ Paid h
  | .overrun, v => BetweenSaves v

/-- If no relay is killed between the two writes that follow a response in excess of its
reservation, no request is forwarded after a response that was not paid for. -/
theorem Run.failsClosed (h : Run O (fun v => ¬BetweenSaves v) t φ v) : φ.Closed v ∧
    Always (fun e before => e.label.isGenerate → Paid before) v.hist := by
  induction h with
  | init => exact ⟨fun _ e he => by simp at he, trivial⟩
  | load _ _ ih => exact ⟨fun hp => (ih.1 hp).cons nofun, nofun, ih.2⟩
  | charge _ _ ih => exact ⟨fun hp => (ih.1 hp).cons nofun, nofun, ih.2⟩
  | count _ _ ih => exact ⟨fun hp => (ih.1 hp).cons nofun, nofun, ih.2⟩
  | counted _ _ _ ih => exact ⟨fun hp => (ih.1 hp).cons nofun, nofun, ih.2⟩
  | drop _ ih => exact ih
  | request _ _ hp _ ih => exact ⟨⟨rfl, (ih.1 hp).cons nofun⟩, nofun, ih.2⟩
  | send _ ih => exact ⟨⟨ih.1.1, ih.1.2.cons nofun⟩, fun _ => ih.1.2, ih.2⟩
  | receive _ _ ih => exact ⟨⟨ih.1.1, _, _, rfl, rfl, ih.1.2⟩, nofun, ih.2⟩
  | lost _ ih => exact ⟨fun _ => ih.1.2, ih.2⟩
  | @account t o v response r usage _ hu ih =>
      obtain ⟨⟨-, e, h, hhist, he, hpaid⟩, hall⟩ := ih
      refine ⟨?_, nofun, hall⟩
      by_cases hover : usage > r.total
      · rw [if_pos hover]
        exact ⟨_, e, h, _, response, r, usage, by rw [View.log_hist, hhist], rfl, he, hu, hover⟩
      · rw [if_neg hover]
        have hthis : Paid v.hist := by
          rw [hhist]
          intro x hx
          rcases List.mem_cons.1 hx with rfl | hx
          · rintro ⟨response', r', heq, hbad⟩
            obtain ⟨rfl, rfl⟩ := Act.received.inj (he.symm.trans heq)
            exact hover (hbad usage hu)
          · exact hpaid x hx
        exact fun _ => hthis.cons nofun
  | unknown _ _ ih => exact ⟨fun hp => absurd hp (by simp [ih.1.1]), ih.2⟩
  | close _ ih => exact ⟨nofun, nofun, ih.2⟩
  | @die t φ v _ hd ih =>
      refine ⟨fun hp => ?_, ih.2⟩
      cases φ with
      | idle | ready p => exact ih.1 hp
      | reserved a r | sent r => exact ih.1.2
      | answered response r => exact absurd hp (by simp [ih.1.1])
      | overrun => exact absurd ih.1 hd
  | leave _ ih => exact ih

end AutonomyLab.Relay
