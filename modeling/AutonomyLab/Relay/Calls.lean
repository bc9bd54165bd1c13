import AutonomyLab.Relay.Sound

/-!
# What one call of the relay does

Undisturbed, a count changes nothing but the number of counts, and a request that the
relay admits is sent.

* `Sends` — a call has sent a request to the provider.
* `Tells` — the response that the caller hears of.
* `must_count`, `must_generate`, `must_account` — what every run of a call does.
* `may_count`, `may_generate` — a run in which the provider answers.
-/

namespace AutonomyLab.Relay

open Json Process

/-- The outcome of a call, and the memory it leaves. -/
abbrev Ended := Except (CallError × ModelRelay) (Json × ModelRelay)

/-- The memory that a call leaves. -/
def memoryOf : Ended → ModelRelay
  | .ok r => r.2
  | .error e => e.2

/-- The latest response to the latest request, if there is one. -/
def latestResponse : List Done → Option Json
  | [] => none
  | e :: h => match e.label with
      | .received response _ => some response
      | .generate _ _ => none
      | _ => latestResponse h

/-- The call that has led from `before` to the view `u` has sent the request. -/
def Sends (before : List Done) (arguments : Json) (r : Reservation) (u : Seen) : Prop :=
  ∃ new, u.hist = new ++ before ∧ ∃ e ∈ new, e.label = .generate arguments r

/-- The caller hears of the response: it is returned, or attached to the exception of the
client. -/
def Tells (ended : Ended) (u : Seen) (response : Json) : Prop :=
  ended = .ok (response, memoryOf ended) ∨
    ended = .error (.client, memoryOf ended) ∧ latestResponse u.hist = some response

/-- Nothing but the number of counts has changed. -/
def SameButCounts (s s' : RelayState) : Prop := s' = { s with counts := s'.counts }

variable {o : Options} {t : ℕ} {arguments counted : Json} {r : Reservation} {relay : ModelRelay}
  {v : Seen}

/-! ## Counting -/

/-- A count leaves all but the number of counts, and its result is the preflight. -/
theorem must_count (arguments : Json) : must t o (call o "count_tokens" arguments relay)
    (fun ended _ => SameButCounts relay.state (memoryOf ended).state ∧
      ∀ value, ended = .ok (value, memoryOf ended) →
        ∃ n, value = .int n ∧ (memoryOf ended).preflight = some (arguments, n)) v := by
  have hrefused : ∀ e : CallError, SameButCounts relay.state relay.state ∧
      ∀ value, (.error (e, relay) : Ended) = .ok (value, relay) →
        ∃ n, value = .int n ∧ relay.preflight = some (arguments, n) := by
    intro e
    refine ⟨rfl, ?_⟩
    rintro value ⟨⟩
  unfold call
  change must _ _ ((if relay.state.pending = true then _ else _ : Program Json) relay) _ _
  split
  · exact hrefused _
  change must _ _ ((if relay.state.counts ≥ o.maxTurns * 2 then _ else _ : Program Json) relay) _ _
  split
  · exact hrefused _
  rintro ⟨⟩ _ ⟨⟩
  change must _ _ ((clientCount arguments ⟨relay.state.charged, relay.preflight⟩).bind _) _ _
  unfold clientCount
  by_cases hd : arguments.isDict = true
  · rw [if_pos hd]
    rintro ⟨⟩ _ ⟨⟩
    intro answer
    cases answer with
    | none =>
        refine ⟨rfl, ?_⟩
        rintro value ⟨⟩
    | some n =>
        rintro ⟨⟩ _ ⟨⟩
        refine ⟨rfl, ?_⟩
        rintro value ⟨⟩
        exact ⟨n, rfl, rfl⟩
  · rw [if_neg hd]
    refine ⟨rfl, ?_⟩
    rintro value ⟨⟩

/-- The provider counts `n` tokens. -/
theorem may_count {n : ℤ} (hp : relay.state.pending = false) (hc : relay.state.counts < o.maxTurns * 2)
    (hd : arguments.isDict = true) : may t o (call o "count_tokens" arguments relay)
      (fun ended _ => ended = .ok (.int n, ⟨relay.state.charged, some (arguments, n)⟩)) v := by
  unfold call
  change may _ _ ((if relay.state.pending = true then _ else _ : Program Json) relay) _ _
  rw [hp, if_neg Bool.false_ne_true]
  change may _ _ ((if relay.state.counts ≥ o.maxTurns * 2 then _ else _ : Program Json) relay) _ _
  rw [if_neg (not_le.2 hc)]
  refine ⟨(), some relay.state.charged, rfl, ?_⟩
  change may _ _ ((clientCount arguments ⟨relay.state.charged, relay.preflight⟩).bind _) _ _
  unfold clientCount
  rw [if_pos hd]
  exact ⟨(), _, rfl, some n, (), _, rfl, rfl⟩

/-! ## Generating -/

/-- What is known when the answer to a request has been recorded. -/
def Recording (s : RelayState) (response : Json) (before : List Done)
    (ended : Except (CallError × ModelRelay) (Unit × ModelRelay)) (u : Seen) : Prop :=
  (∃ new, u.hist = new ++ before) ∧ latestResponse u.hist = some response ∧
    match ended with
    | .ok r => ∃ usage, usageOf response = .ok usage ∧ r.2.state = s.accounted response usage
    | .error e => ∃ error, e.1 = .python error

theorem must_record {response : Json} {total : ℤ} (hlatest : latestResponse v.hist = some response) :
    must t o (record response total relay) (Recording relay.state response v.hist) v := by
  unfold record
  cases hu : usageOf response with
  | error e => exact ⟨⟨[], rfl⟩, hlatest, e, rfl⟩
  | ok usage =>
      rintro ⟨⟩ _ ⟨⟩
      change must _ _ ((if (usage : ℤ) > total then _ else _ : Program Unit) _) _ _
      split
      · rintro ⟨⟩ _ ⟨⟩
        exact ⟨⟨[_, _], rfl⟩, hlatest, _, rfl⟩
      · exact ⟨⟨[_], rfl⟩, hlatest, usage, hu, rfl⟩

theorem must_clientGenerate : must t o (clientGenerate arguments r relay) (fun ended u =>
    ∃ outcome, ended = .ok (outcome, relay) ∧ Sends v.hist arguments r u ∧
      latestResponse u.hist = outcome.response?) v := by
  rintro ⟨⟩ _ ⟨⟩
  intro outcome
  dsimp only [Proc.bind]
  cases hr : outcome.response? with
  | none => exact ⟨outcome, rfl, ⟨[_], rfl, _, List.mem_singleton_self _, rfl⟩, hr.symm⟩
  | some response =>
      rintro ⟨⟩ _ ⟨⟩
      exact ⟨outcome, rfl, ⟨[_, _], rfl, _, List.mem_cons_of_mem _ (List.mem_singleton_self _), rfl⟩,
        hr.symm⟩

theorem Sends.append {before : List Done} {u w : Seen} (h : Sends before arguments r u)
    (hw : ∃ new, w.hist = new ++ u.hist) : Sends before arguments r w := by
  obtain ⟨new, hu, e, he, hl⟩ := h
  obtain ⟨new', hw⟩ := hw
  exact ⟨new' ++ new, by rw [hw, hu, List.append_assoc], e, List.mem_append_right _ he, hl⟩

/-- What is left of a call when a request has been admitted. -/
def forward (arguments : Json) (r : Reservation) : Program Json := do
  save
  match ← clientGenerate arguments r with
  | .raised response =>
      if response.isDict then record response r.total
      throw .client
  | .returned response =>
      record response r.total
      return response

/-- The checks of a generation after the count of `n` tokens. -/
def grant (o : Options) (s : RelayState) (arguments counted : Json) (n : ℤ) : Except PyError Reservation := do
  let inputs ← inputsOf arguments
  let output ← outputOf o arguments inputs counted
  let thoughts ← reservedThoughts s.responses inputs
  if s.calls ≥ o.maxTurns ∨ s.tokens + Reservation.total ⟨n, thoughts, output⟩ > o.maxTotalTokens then
    throw (.valueError "Host model budget exhausted")
  return ⟨n, thoughts, output⟩

theorem grant_eq_ok {s : RelayState} {n : ℤ} :
    grant o s arguments counted n = .ok r ↔ r.count = n ∧ Admits o s arguments counted r := by
  constructor
  · intro h
    obtain ⟨inputs, hinputs, h⟩ := bind_eq_ok.1 h
    obtain ⟨output, houtput, h⟩ := bind_eq_ok.1 h
    obtain ⟨thoughts, hthoughts, h⟩ := bind_eq_ok.1 h
    obtain ⟨hget, hsame, hpositive, hlimited⟩ := outputOf_eq_ok houtput
    split at h
    · cases h
    · rename_i hbudget
      cases h
      obtain ⟨hturn, htotal⟩ := not_or.1 hbudget
      exact ⟨rfl, ⟨inputs, hinputs, hsame, hthoughts⟩, hget, hpositive, hlimited, not_le.1 hturn, not_lt.1 htotal⟩
  · rintro ⟨rfl, ha⟩
    obtain ⟨inputs, hinputs, hsame, hthoughts⟩ := ha.inputs
    have houtput : outputOf o arguments inputs counted = .ok r.output := by
      refine bind_eq_ok.2 ⟨_, ha.output, ?_⟩
      dsimp only
      rw [if_neg]
      · rfl
      · simp [hsame, ha.positive, ha.limited]
    refine bind_eq_ok.2 ⟨inputs, hinputs, bind_eq_ok.2 ⟨r.output, houtput, bind_eq_ok.2 ⟨r.thoughts, hthoughts, ?_⟩⟩⟩
    rw [if_neg]
    · rfl
    · rw [not_or]
      exact ⟨not_le.2 ha.turn, not_lt.2 ha.total⟩

/-- **A call for a generation is refused, or its request is admitted and forwarded.** -/
theorem call_generate {state : RelayState} {n : ℤ} (hp : state.pending = false) :
    match grant o state arguments counted n with
    | .ok r => call o "generate" arguments ⟨state, some (counted, n)⟩ =
        forward arguments r ⟨state.requested, none⟩
    | .error e => ∃ m, call o "generate" arguments ⟨state, some (counted, n)⟩ = .fail (.python e, m) := by
  have hcall : call o "generate" arguments ⟨state, some (counted, n)⟩ =
      generate o arguments (counted, n) ⟨state, some (counted, n)⟩ := by
    unfold call
    change (if state.pending = true then _ else _ : Program Json) _ = _
    rw [hp, if_neg Bool.false_ne_true]
    rfl
  rw [hcall]
  unfold generate grant
  cases hinputs : inputsOf arguments with
  | error e => exact ⟨⟨state, some (counted, n)⟩, rfl⟩
  | ok inputs =>
      dsimp only [bind, Except.bind]
      cases houtput : outputOf o arguments inputs counted with
      | error e =>
          refine ⟨⟨state, none⟩, ?_⟩
          change ((ofPy (outputOf o arguments inputs counted) : Program ℤ) ⟨state, none⟩).bind _ = _
          rw [houtput]
          rfl
      | ok output =>
          dsimp only
          cases hthoughts : reservedThoughts state.responses inputs with
          | error e =>
              refine ⟨⟨state, none⟩, ?_⟩
              change ((ofPy (outputOf o arguments inputs counted) : Program ℤ) ⟨state, none⟩).bind _ = _
              rw [houtput]
              change ((ofPy (reservedThoughts state.responses inputs) : Program ℤ) ⟨state, none⟩).bind _ = _
              rw [hthoughts]
              rfl
          | ok thoughts =>
              dsimp only
              by_cases hbudget : state.calls ≥ o.maxTurns ∨
                  state.tokens + Reservation.total ⟨n, thoughts, output⟩ > o.maxTotalTokens
              · rw [if_pos hbudget]
                refine ⟨⟨state, none⟩, ?_⟩
                change ((ofPy (outputOf o arguments inputs counted) : Program ℤ) ⟨state, none⟩).bind _ = _
                rw [houtput]
                change ((ofPy (reservedThoughts state.responses inputs) : Program ℤ) ⟨state, none⟩).bind _ = _
                rw [hthoughts]
                change (if state.calls ≥ o.maxTurns ∨ state.tokens + Reservation.total ⟨n, thoughts, output⟩ >
                  o.maxTotalTokens then _ else _ : Program Json) _ = _
                rw [if_pos hbudget]
                rfl
              · rw [if_neg hbudget]
                change ((ofPy (outputOf o arguments inputs counted) : Program ℤ) ⟨state, none⟩).bind _ = _
                rw [houtput]
                change ((ofPy (reservedThoughts state.responses inputs) : Program ℤ) ⟨state, none⟩).bind _ = _
                rw [hthoughts]
                change (if state.calls ≥ o.maxTurns ∨ state.tokens + Reservation.total ⟨n, thoughts, output⟩ >
                  o.maxTotalTokens then _ else _ : Program Json) _ = _
                rw [if_neg hbudget]
                rfl

theorem call_of_admits {state : RelayState} (hp : state.pending = false)
    (ha : Admits o state arguments counted r) :
    call o "generate" arguments ⟨state, some (counted, r.count)⟩ =
      forward arguments r ⟨state.requested, none⟩ := by
  have hcall := @call_generate o arguments counted state r.count hp
  rw [grant_eq_ok.2 ⟨rfl, ha⟩] at hcall
  exact hcall

/-- The caller hears of a response only when it has been accounted for. -/
def Accounted (s : RelayState) (ended : Ended) (u : Seen) : Prop :=
  ∀ response, Tells ended u response → ∃ usage, usageOf response = .ok usage ∧
    (memoryOf ended).state = s.requested.accounted response usage

theorem must_forward {state : RelayState} : must t o (forward arguments r ⟨state.requested, none⟩)
    (fun ended u => Sends v.hist arguments r u ∧ Accounted state ended u) v := by
  rintro ⟨⟩ _ ⟨⟩
  change must _ _ ((clientGenerate arguments r ⟨state.requested, none⟩).bind _) _ _
  refine must_bind (must_mono must_clientGenerate ?_)
  rintro _ u ⟨outcome, rfl, hsends, hlatest⟩
  have hsends : Sends v.hist arguments r u := by
    obtain ⟨new, hu, e, he, hl⟩ := hsends
    exact ⟨new ++ [_], by rw [hu, List.append_assoc]; rfl, e, List.mem_append_left _ he, hl⟩
  cases outcome with
  | returned response =>
      refine must_bind (must_mono (must_record hlatest) ?_)
      rintro (⟨e, m⟩ | ⟨⟨⟩, m⟩) w ⟨hnew, hlatest', hend⟩
      · obtain ⟨error, rfl⟩ := hend
        refine ⟨hsends.append hnew, ?_⟩
        rintro response' (⟨⟨⟩⟩ | ⟨⟨⟩, -⟩)
      · refine ⟨hsends.append hnew, ?_⟩
        rintro response' (⟨⟨⟩⟩ | ⟨⟨⟩, -⟩)
        exact hend
  | raised response =>
      change must _ _ ((if response.isDict = true then _ else _ : Program Json) ⟨state.requested, none⟩) _ _
      by_cases hd : response.isDict = true
      · rw [Outcome.response?, if_pos hd] at hlatest
        rw [if_pos hd]
        refine must_bind (must_mono (must_record hlatest) ?_)
        rintro (⟨e, m⟩ | ⟨⟨⟩, m⟩) w ⟨hnew, hlatest', hend⟩
        · obtain ⟨error, rfl⟩ := hend
          refine ⟨hsends.append hnew, ?_⟩
          rintro response' (⟨⟨⟩⟩ | ⟨⟨⟩, -⟩)
        · refine ⟨hsends.append hnew, ?_⟩
          rintro response' (⟨⟨⟩⟩ | ⟨-, hresponse⟩)
          cases hlatest'.symm.trans hresponse
          exact hend
      · rw [Outcome.response?, if_neg hd] at hlatest
        rw [if_neg hd]
        refine ⟨hsends, ?_⟩
        rintro response' (⟨⟨⟩⟩ | ⟨-, hresponse⟩)
        cases hlatest.symm.trans hresponse

/-- **A request that the relay admits is sent.** -/
theorem must_generate (hp : relay.state.pending = false)
    (hpre : relay.preflight = some (counted, r.count)) (ha : Admits o relay.state arguments counted r) :
    must t o (call o "generate" arguments relay) (fun _ u => Sends v.hist arguments r u) v := by
  obtain ⟨state, preflight⟩ := relay
  obtain rfl : preflight = some (counted, r.count) := hpre
  rw [call_of_admits hp ha]
  exact must_mono must_forward fun _ _ h => h.1

/-- **Whatever is asked for, a response the caller hears of is accounted for.** -/
theorem must_account : must t o (call o "generate" arguments relay) (Accounted relay.state) v := by
  have hrefused : ∀ (e : PyError) m u, Accounted relay.state (.error (.python e, m)) u := by
    rintro e m u response (⟨⟨⟩⟩ | ⟨⟨⟩, -⟩)
  obtain ⟨state, preflight⟩ := relay
  cases hp : state.pending with
  | true =>
      unfold call
      change must _ _ ((if state.pending = true then _ else _ : Program Json) _) _ _
      rw [hp, if_pos rfl]
      exact hrefused _ _ _
  | false =>
      cases preflight with
      | none =>
          unfold call
          change must _ _ ((if state.pending = true then _ else _ : Program Json) _) _ _
          rw [hp, if_neg Bool.false_ne_true]
          exact hrefused _ _ _
      | some counted =>
          have hcall := @call_generate o arguments counted.1 state counted.2 hp
          cases hgrant : grant o state arguments counted.1 counted.2 with
          | ok r =>
              rw [hgrant] at hcall
              rw [hcall]
              exact must_mono must_forward fun _ _ h => h.2
          | error e =>
              rw [hgrant] at hcall
              obtain ⟨m, hcall⟩ := hcall
              rw [hcall]
              exact hrefused _ _ _

/-- The provider returns a response that is within the reservation. -/
theorem may_generate {response : Json} {usage : ℕ} (hp : relay.state.pending = false)
    (hpre : relay.preflight = some (counted, r.count)) (ha : Admits o relay.state arguments counted r)
    (husage : usageOf response = .ok usage) (hle : (usage : ℤ) ≤ r.total) :
    may t o (call o "generate" arguments relay) (fun ended _ =>
      ended = .ok (response, ⟨relay.state.requested.accounted response usage, none⟩)) v := by
  obtain ⟨state, preflight⟩ := relay
  obtain rfl : preflight = some (counted, r.count) := hpre
  rw [call_of_admits hp ha]
  refine ⟨(), _, rfl, (), _, rfl, .returned response, (), _, rfl, ?_⟩
  change may _ _ ((record response r.total ⟨state.requested, none⟩).bind _) _ _
  unfold record
  rw [husage]
  refine ⟨(), _, rfl, ?_⟩
  change may _ _ (((if (usage : ℤ) > r.total then _ else _ : Program Unit) _).bind _) _ _
  rw [if_neg (not_lt.2 hle)]
  rfl

end AutonomyLab.Relay
