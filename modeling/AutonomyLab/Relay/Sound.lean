import AutonomyLab.Relay.Protocol

/-!
# The relay keeps to its phases

`call` takes a relay that waits from one history to another by the acts of `Run`
only, whatever it is asked, whatever the provider answers and however the call ends
(`keeps_call`).  So every reachable view of the relays on a file is such a history
(`run_of_reachable`).
-/

namespace AutonomyLab.Relay

open Json Process

variable {O : Options → Prop} {dies : Seen → Prop} {t : ℕ} {o : Options} {α : Type}

/-- What the proof is relative to: the view is the history of relays, and where there is
no relay, one that may be followed by another. -/
def logic (O : Options → Prop) (dies : Seen → Prop) : Sequential.Logic (system O dies) where
  inv v := ∃ t φ, Run O dies t φ v
  idle v := ∃ t, Run O dies t .idle v
  inv_init hw := ⟨0, .idle, hw ▸ .init⟩
  idle_init hw := ⟨0, hw ▸ .init⟩

theorem Run.point {φ : Phase} {v : Seen} (h : Run O dies t φ v) :
    Sequential.Point (logic O dies) v := ⟨⟨t, φ, h⟩, fun hd => ⟨t, h.die hd⟩⟩

/-- The relay waits for a call. -/
def Waits (O : Options → Prop) (dies : Seen → Prop) (t : ℕ) (relay : ModelRelay) (v : Seen) : Prop :=
  Run O dies t (.ready relay.preflight) v ∧ relay.state = v.world.state

/-- However a call ends, the relay waits for the next one. -/
def Returns (O : Options → Prop) (dies : Seen → Prop) (t : ℕ) :
    Except (CallError × ModelRelay) (α × ModelRelay) → Seen → Prop
  | .ok r, v => Waits O dies t r.2 v
  | .error r, v => Waits O dies t r.2 v

/-- `p` takes a relay that waits to one that waits. -/
def Keeps (O : Options → Prop) (dies : Seen → Prop) (t : ℕ) (o : Options) (p : Program α) : Prop :=
  ∀ relay v, Waits O dies t relay v →
    Sequential.keeps (logic O dies) t o (p relay) (Returns O dies t) v

theorem keeps_refuse (message : String) : Keeps O dies t o (refuse message : Program α) :=
  fun _ _ h => h

theorem keeps_record {response : Json} {r : Reservation} {relay : ModelRelay} {v : Seen}
    (h : Run O dies t (.answered response r) v) (hs : relay.state = v.world.state)
    (hp : relay.preflight = none) :
    Sequential.keeps (logic O dies) t o (record response r.total relay) (Returns O dies t) v := by
  obtain ⟨state, preflight⟩ := relay
  obtain rfl : state = v.world.state := hs
  obtain rfl : preflight = none := hp
  unfold record
  cases hu : usageOf response with
  | error e => exact ⟨h.unknown hu, rfl⟩
  | ok usage =>
      have hacc := h.account (o := o) hu
      rintro ⟨⟩ _ ⟨⟩
      refine ⟨hacc.point, ?_⟩
      by_cases hover : (usage : ℤ) > r.total
      · rw [if_pos hover] at hacc ⊢
        rintro ⟨⟩ _ ⟨⟩
        exact ⟨hacc.close.point, hacc.close, rfl⟩
      · rw [if_neg hover] at hacc ⊢
        exact ⟨hacc, rfl⟩

/-- Everything from the mark of a request on. -/
theorem keeps_clientGenerate {arguments : Json} {r : Reservation} {relay : ModelRelay} {v : Seen}
    (h : Run O dies t (.reserved arguments r) v) (hs : relay.state = v.world.state)
    (hp : relay.preflight = none) :
    Sequential.keeps (logic O dies) t o (clientGenerate arguments r relay) (fun res u => ∃ outcome,
      res = .ok (outcome, relay) ∧ relay.state = u.world.state ∧
        match outcome.response? with
        | some response => Run O dies t (.answered response r) u
        | none => Run O dies t (.ready relay.preflight) u) v := by
  rintro ⟨⟩ _ ⟨⟩
  have hsent := h.send (o := o)
  refine ⟨hsent.point, fun outcome => ?_⟩
  dsimp only [Proc.bind]
  cases hr : outcome.response? with
  | none => exact ⟨outcome, rfl, hs, by rw [hr, hp]; exact hsent.lost⟩
  | some response =>
      rintro ⟨⟩ _ ⟨⟩
      have hrec := hsent.receive (o := o) response
      exact ⟨hrec.point, outcome, rfl, hs, by rw [hr]; exact hrec⟩

theorem keeps_clientCount {arguments : Json} {relay : ModelRelay} {v : Seen}
    (h : Waits O dies t relay v) :
    Sequential.keeps (logic O dies) t o (clientCount arguments relay) (fun res u => match res with
      | .ok r => r.2 = relay ∧ Waits O dies t ⟨relay.state, some (arguments, r.1)⟩ u
      | .error r => Waits O dies t r.2 u) v := by
  obtain ⟨hrun, hs⟩ := h
  unfold clientCount
  by_cases hd : arguments.isDict = true
  · rw [if_pos hd]
    rintro ⟨⟩ _ ⟨⟩
    have hcount := hrun.count (o := o) arguments
    refine ⟨hcount.point, fun answer => ?_⟩
    cases answer with
    | none => exact ⟨hcount, hs⟩
    | some n =>
        rintro ⟨⟩ _ ⟨⟩
        have hcounted := hcount.counted (o := o) arguments n
        exact ⟨hcounted.point, rfl, hcounted, hs⟩
  · rw [if_neg hd]
    exact ⟨hrun, hs⟩

theorem keeps_countTokens (arguments : Json) {relay : ModelRelay} {v : Seen}
    (h : Waits O dies t relay v) (hp : relay.state.pending = false) :
    Sequential.keeps (logic O dies) t o (countTokens o arguments relay) (Returns O dies t) v := by
  obtain ⟨state, preflight⟩ := relay
  obtain ⟨hrun, rfl : state = v.world.state⟩ := h
  change Sequential.keeps _ _ _ ((if _ then _ else _ : Program Json) _) _ _
  split
  · exact ⟨hrun, rfl⟩
  · have hcharge := hrun.charge (o := o) hp
    rintro ⟨⟩ _ ⟨⟩
    refine ⟨hcharge.point, ?_⟩
    change Sequential.keeps _ _ _
      ((clientCount arguments ⟨v.world.state.charged, preflight⟩).bind _) _ _
    refine Sequential.keeps_bind (Sequential.keeps_mono (keeps_clientCount ⟨hcharge, rfl⟩) ?_)
    rintro (e | ⟨n, relay⟩) u hu
    · exact hu
    · obtain ⟨rfl, hu⟩ := hu
      exact hu

/-- What the checks before the budget establish. -/
theorem outputOf_eq_ok {arguments inputs counted : Json} {output : ℤ}
    (h : outputOf o arguments inputs counted = .ok output) :
    arguments.get "max_output_tokens" = .ok (.int output) ∧ PyEq inputs counted ∧ 1 ≤ output ∧
      output ≤ o.maxOutputTokens := by
  obtain ⟨value, hv, h⟩ := bind_eq_ok.1 h
  cases value with
  | int n =>
      dsimp only at h
      split at h
      · cases h
      · rename_i hgood
        rw [not_or, not_not, not_not] at hgood
        cases h
        exact ⟨hv, hgood⟩
  | _ => simp [throw, throwThe, MonadExceptOf.throw] at h

theorem keeps_generate {arguments : Json} {counted : Json × ℤ} {relay : ModelRelay} {v : Seen}
    (hO : O o) (h : Waits O dies t relay v) (hc : relay.preflight = some counted)
    (hp : relay.state.pending = false) :
    Sequential.keeps (logic O dies) t o (generate o arguments counted relay) (Returns O dies t) v := by
  obtain ⟨state, preflight⟩ := relay
  obtain ⟨hrun, rfl : state = v.world.state⟩ := h
  obtain rfl : preflight = some counted := hc
  unfold generate
  cases hi : inputsOf arguments with
  | error e => exact ⟨hrun, rfl⟩
  | ok inputs =>
      change Sequential.keeps _ _ _ (((ofPy (outputOf o arguments inputs counted.1) : Program ℤ)
        ⟨v.world.state, none⟩).bind _) _ _
      cases hout : outputOf o arguments inputs counted.1 with
      | error e => exact ⟨hrun.drop, rfl⟩
      | ok output =>
          change Sequential.keeps _ _ _ (((ofPy (reservedThoughts v.world.state.responses inputs) :
            Program ℤ) ⟨v.world.state, none⟩).bind _) _ _
          cases hth : reservedThoughts v.world.state.responses inputs with
          | error e => exact ⟨hrun.drop, rfl⟩
          | ok thoughts =>
              change Sequential.keeps _ _ _ ((if _ then _ else _ : Program Json) _) _ _
              split
              · exact ⟨hrun.drop, rfl⟩
              · rename_i hbudget
                obtain ⟨hget, hsame, hpos, hlim⟩ := outputOf_eq_ok hout
                obtain ⟨hturn, htotal⟩ := not_or.1 hbudget
                have hreq := hrun.request (o := o) (r := ⟨counted.2, thoughts, output⟩) hO hp
                  ⟨⟨inputs, hi, hsame, hth⟩, hget, hpos, hlim, not_le.1 hturn, not_lt.1 htotal⟩
                rintro ⟨⟩ _ ⟨⟩
                refine ⟨hreq.point, ?_⟩
                change Sequential.keeps _ _ _ ((clientGenerate arguments
                  ⟨counted.2, thoughts, output⟩ ⟨v.world.state.requested, none⟩).bind _) _ _
                refine Sequential.keeps_bind (Sequential.keeps_mono
                  (keeps_clientGenerate hreq rfl rfl) ?_)
                rintro _ u ⟨outcome, rfl, hs, hu⟩
                cases outcome with
                | returned response =>
                    refine Sequential.keeps_bind (Sequential.keeps_mono (keeps_record hu hs rfl) ?_)
                    rintro (_ | _) _ hw
                    · exact hw
                    · exact hw
                | raised response =>
                    change Sequential.keeps _ _ _ ((if response.isDict = true then _ else _ :
                      Program Json) ⟨v.world.state.requested, none⟩) _ _
                    by_cases hd : response.isDict = true
                    · rw [Outcome.response?, if_pos hd] at hu
                      rw [if_pos hd]
                      refine Sequential.keeps_bind (Sequential.keeps_mono (keeps_record hu hs rfl) ?_)
                      rintro (_ | _) _ hw
                      · exact hw
                      · exact hw
                    · rw [Outcome.response?, if_neg hd] at hu
                      rw [if_neg hd]
                      exact ⟨hu, hs⟩

theorem keeps_call (hO : O o) (method : String) (arguments : Json) :
    Keeps O dies t o (call o method arguments) := by
  intro relay v h
  unfold call
  change Sequential.keeps _ _ _ ((if relay.state.pending = true then _ else _ : Program Json) relay) _ _
  split
  · exact h
  rename_i hp
  change Sequential.keeps _ _ _ ((if _ then _ else _ : Program Json) relay) _ _
  split
  · exact keeps_countTokens arguments h (Bool.eq_false_of_not_eq_true hp)
  · cases hc : relay.preflight with
    | none => exact h
    | some counted =>
        change Sequential.keeps _ _ _ ((if _ then _ else _ : Program Json) relay) _ _
        split
        · exact keeps_generate hO h hc (Bool.eq_false_of_not_eq_true hp)
        · exact h

theorem keeps_serve (hO : O o) (requests : List (String × Json)) :
    Keeps O dies t o (serve o requests) := by
  induction requests with
  | nil => exact fun relay v h => h
  | cons request requests ih =>
      intro relay v h
      refine Sequential.keeps_bind (Sequential.keeps_tryCatch (Sequential.keeps_bind
        (Sequential.keeps_mono (keeps_call hO request.1 request.2 relay v h) ?_)))
      rintro (⟨e, relay⟩ | ⟨answer, relay⟩) u hu
      · exact ih relay u hu
      · exact ih relay u hu

theorem keeps_session (hO : O o) {v : Seen} {s : ℕ} (h : Run O dies s .idle v)
    (hnew : ∀ e ∈ v.hist, e.tid < t) (requests : List (String × Json)) :
    Sequential.keeps (logic O dies) t o (session o requests) (Returns O dies t) v := by
  rintro w _ ⟨⟩
  have hload := h.load (o := o) hnew
  exact ⟨hload.point, keeps_serve hO requests ⟨v.world.state, none⟩ _ ⟨hload, rfl⟩⟩

theorem sound : Sequential.Sound (logic O dies) := by
  rintro t o p v - ⟨s, hidle⟩ hnew ⟨hO, requests, rfl⟩
  refine Sequential.keeps_mono (keeps_session hO hidle hnew requests) ?_
  rintro (⟨e, relay⟩ | ⟨⟨⟩, relay⟩) u hu
  · exact ⟨t, hu.1.leave⟩
  · exact ⟨t, hu.1.leave⟩

/-- Every reachable view is a history of relays. -/
theorem run_of_reachable {c : Sequential.Conf World Act Options (CallError × ModelRelay)
    (Unit × ModelRelay)} (h : Sequential.Reachable (system O dies) c) :
    ∃ t φ, Run O dies t φ c.view := h.inv sound

end AutonomyLab.Relay
