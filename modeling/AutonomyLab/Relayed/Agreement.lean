import AutonomyLab.Relayed.InStep

/-!
# What the agent and the relay reserve for a request

The agent reserves the thoughts of the responses whose messages it sends.  The relay finds these
by their contents, so that contents that occur twice are reserved for twice.

* `asks_of_run` — what is known of every request when it is sent.
* `context_of_transcript` — the messages of a request are those of the last exchanges.
* `Apart` — the contents that are kept belong to one response each.
* `relay_reserves` — the relay never reserves less than the agent, and it reserves the same just
  if the contents are apart; then it sends what the agent asks for.
-/

namespace AutonomyLab.Relayed

open Json Process Count
open Agent (AgentState Exchange Inputs Request Transcript)

variable {reprFloat : ℚ → String} {o : Relay.Options} {host : Host} {reply : Reply} {s : AgentState}
  {request : Request} {xs dropped kept : List Exchange} {e : Agent.Done} {before : List Agent.Done}

/-! ## When a request is sent -/

variable (reprFloat o) in
/-- What is known of a request when it is sent. -/
def Asks (e : Agent.Done) (before : List Agent.Done) : Prop :=
  ∀ index request, e.label = .generate index request → ∃ s xs,
    e.pre = some (s.requested request) ∧ Agent.Admitted reprFloat s request ∧ Agent.Counted before request ∧
    Transcript s xs ∧ Agent.Received before s ∧
    ∀ host reply, Through o before host reply → Synced s host.relay.state

theorem Asks.of_none (h : e.label.sendsNone) : Asks reprFloat o e before := by
  intro index request hl
  rw [hl] at h
  exact h.elim

/-- **What is known of every request.** -/
theorem asks_of_run {φ : Agent.Phase} {v : Agent.Seen} (h : Agent.Run reprFloat φ v) :
    Always (Asks reprFloat o) v.hist := by
  induction h with
  | init => trivial
  | ask t job hrun hw ih =>
      refine ⟨?_, ih⟩
      rintro _ request ⟨⟩
      obtain ⟨-, hadmitted, hcounted⟩ := hrun.accounts.memory _ _ rfl
      obtain ⟨⟨hshape, hidle⟩, hreceived⟩ := hrun.transcribed.memory _ _ rfl
      obtain ⟨⟨xs, htranscript, -⟩, -⟩ := hshape.complete hidle hreceived
      refine ⟨_, xs, hw, hadmitted, hcounted, ⟨htranscript.valid, htranscript.responses,
        htranscript.contents⟩, hreceived, ?_⟩
      intro host reply hthrough
      exact ((inStep_of_run hrun hthrough).memory _ _ rfl).2
  | refuse t job _ _ hl ih => exact ⟨.of_none hl.sendsNone, ih⟩
  | note t job _ hl ih => exact ⟨.of_none hl.sendsNone, ih⟩
  | load t job _ ih | save t job _ _ ih | send t job _ _ ih | answer t job result _ ih
      | receive t job response _ ih => exact ⟨.of_none trivial, ih⟩
  | _ => assumption

/-! ## The messages of a request -/

theorem unsigned_firstContent : Unsigned Agent.firstContent where
  role := by decide
  parts := by
    refine ⟨_, rfl, ?_⟩
    intro part hpart
    obtain rfl := List.mem_singleton.1 hpart
    rfl

theorem unsigned_opening : Unsigned (Agent.opening reprFloat xs) where
  role := rfl
  parts := by
    refine ⟨_, rfl, ?_⟩
    intro part hpart
    rcases List.mem_append.1 hpart with hpart | hpart
    · obtain rfl := List.mem_singleton.1 hpart
      rfl
    · obtain rfl := List.mem_singleton.1 hpart
      rfl

/-- The thoughts of the responses that are kept. -/
theorem retainedThoughts_kept (dropped kept : List Exchange) :
    Agent.retainedThoughts ((dropped ++ kept).map Exchange.response)
      (List.range' dropped.length kept.length) = (kept.map thoughts).sum := by
  have hdropped : ((dropped.map Exchange.response).zipIdx.filter
      fun p => (List.range' dropped.length kept.length).contains p.2) = [] := by
    rw [List.filter_eq_nil_iff]
    intro p hp
    have hlt := (List.mem_zipIdx hp).2.1
    rw [List.length_map] at hlt
    rw [List.contains_iff_mem, List.mem_range'_1]
    omega
  have hkept : (((kept.map Exchange.response).zipIdx dropped.length).filter
      fun p => (List.range' dropped.length kept.length).contains p.2) =
      (kept.map Exchange.response).zipIdx dropped.length := by
    rw [List.filter_eq_self]
    intro p hp
    obtain ⟨hle, hlt, -⟩ := List.mem_zipIdx hp
    rw [List.length_map] at hlt
    rw [List.contains_iff_mem, List.mem_range'_1]
    exact ⟨hle, hlt⟩
  unfold Agent.retainedThoughts
  rw [List.map_append, List.zipIdx_append, List.filter_append, hdropped, List.nil_append, Nat.zero_add,
    List.length_map, hkept]
  have hfst : ((kept.map Exchange.response).zipIdx dropped.length).map (fun p => Agent.thoughtTokens p.1) =
      (kept.map Exchange.response).map Agent.thoughtTokens := by
    rw [← List.zipIdx_map_fst dropped.length (kept.map Exchange.response), List.map_map]
    simp
  rw [hfst, List.map_map]
  rfl

/-- **The messages of a request** are an opening and those of the last exchanges, and the thoughts
that are reserved for it are theirs. -/
theorem context_of_transcript {policy : Agent.Policy} {contents : List Agent.Dict} {retained : List ℕ}
    (h : Transcript s xs) (hrole : ∀ x ∈ xs, Agent.hasRole "model" x.content = true)
    (hcontext : Agent.requestContext reprFloat s policy = .ok (contents, retained)) :
    ∃ dropped kept opening, xs = dropped ++ kept ∧ contents = opening :: kept.flatMap Exchange.messages ∧
      Unsigned opening ∧ Agent.retainedThoughts s.modelResponses retained = (kept.map thoughts).sum := by
  have hwhole : Agent.retainedThoughts s.modelResponses (List.range xs.length) = (xs.map thoughts).sum := by
    rw [h.responses, List.range_eq_range']
    exact retainedThoughts_kept [] xs
  cases policy with
  | full =>
      cases hcontext
      refine ⟨[], xs, Agent.firstContent, rfl, h.contents, unsigned_firstContent, ?_⟩
      rw [show s.modelResponses.length = xs.length by rw [h.responses, List.length_map]]
      exact hwhole
  | recentExchanges =>
      rw [Agent.requestContext_of_transcript h hrole, Agent.compacted] at hcontext
      by_cases hshort : xs.length ≤ 2
      · rw [if_pos hshort] at hcontext
        cases hcontext
        exact ⟨[], xs, Agent.firstContent, rfl, rfl, unsigned_firstContent, hwhole⟩
      · rw [if_neg hshort] at hcontext
        cases hcontext
        refine ⟨xs.take (xs.length - 2), xs.drop (xs.length - 2), _, (List.take_append_drop _ xs).symm, rfl,
          unsigned_opening, ?_⟩
        have hkept := retainedThoughts_kept (xs.take (xs.length - 2)) (xs.drop (xs.length - 2))
        rw [List.take_append_drop, List.length_take, List.length_drop, Nat.min_eq_left (Nat.sub_le _ _),
          show xs.length - (xs.length - 2) = 2 by omega] at hkept
        rw [h.responses]
        exact hkept

/-! ## What is reserved -/

/-- The contents that are kept belong to one response each, as far as these have thoughts. -/
structure Apart (dropped kept : List Exchange) : Prop where
  dropped : ∀ x ∈ dropped, ∀ y ∈ kept, Same y x → thoughts x = 0
  kept : kept.Pairwise fun x y => Same x y → thoughts x = 0 ∧ thoughts y = 0

/-- The agent works within the limits of the relay. -/
structure Fits (o : Relay.Options) (limits : Agent.Limits) : Prop where
  maxTurns : limits.maxTurns ≤ o.maxTurns
  maxTotalTokens : limits.maxTotalTokens ≤ o.maxTotalTokens
  maxOutputTokens : limits.maxOutputTokens ≤ o.maxOutputTokens

/-- What the relay reserves for a request of the agent. -/
def reservation (request : Request) (thoughts : ℕ) : Relay.Reservation :=
  ⟨request.inputTokenCount, thoughts, request.maxOutputTokens⟩

/-- The contents of the exchanges of a state have the role of the model. -/
theorem role_of_received (h : Transcript s xs) (hreceived : Agent.Received before s)
    (hrole : Agent.ModelRole before) : ∀ x ∈ xs, Agent.hasRole "model" x.content = true := by
  intro x hx
  obtain ⟨candidate, parts, tools, hcandidate, hcontent, -⟩ := h.valid x hx
  have hresponse : x.response ∈ s.modelResponses := by
    rw [h.responses]
    exact List.mem_map_of_mem hx
  obtain ⟨d, hd, index, hl⟩ := hreceived x.response hresponse
  exact hrole d hd index x.response hl candidate x.content parts hcandidate hcontent

/-- A request of the agent is admitted just if what the relay reserves is within its budget. -/
theorem admits_iff {limits : Agent.Limits} {reserved : ℕ} (hfits : Fits o limits)
    (hsynced : Synced s host.relay.state) (hturn : s.usage.modelCalls < limits.maxTurns)
    (hpositive : 1 ≤ request.maxOutputTokens) (hlimited : request.maxOutputTokens ≤ limits.maxOutputTokens)
    (hreserved : Relay.reservedThoughts host.relay.state.responses (argumentsOf request.inputs) = .ok reserved) :
    Relay.Admits o host.relay.state (requestArguments request) (argumentsOf request.inputs)
      (reservation request reserved) ↔
      s.usage.totalTokens + (reservation request reserved).total ≤ o.maxTotalTokens := by
  have htokens : (host.relay.state.tokens : ℤ) = s.usage.totalTokens := by rw [hsynced.tokens]
  constructor
  · intro h
    rw [← htokens]
    exact h.total
  · intro htotal
    refine ⟨⟨_, inputsOf_requestArguments request, PyEq.refl _, hreserved⟩, get_requestArguments request,
      ?_, ?_, ?_, ?_⟩
    · exact Int.ofNat_le.2 hpositive
    · exact Int.ofNat_le.2 (hlimited.trans hfits.maxOutputTokens)
    · rw [hsynced.calls]
      exact hturn.trans_le hfits.maxTurns
    · rw [htokens]
      exact htotal

/-- Nothing else can be reserved for the request. -/
theorem eq_reservation {reserved : ℕ} {r : Relay.Reservation} {state : Relay.RelayState}
    (hreserved : Relay.reservedThoughts state.responses (argumentsOf request.inputs) = .ok reserved)
    (hcount : r.count = request.inputTokenCount)
    (ha : Relay.Admits o state (requestArguments request) (argumentsOf request.inputs) r) :
    r = reservation request reserved := by
  obtain ⟨inputs, hinputs, -, hthoughts⟩ := ha.inputs
  cases (inputsOf_requestArguments request).symm.trans hinputs
  have houtput := (get_requestArguments request).symm.trans ha.output
  cases r
  cases hcount
  cases hreserved.symm.trans hthoughts
  cases houtput
  rfl

/-- What is not admitted is not sent. -/
theorem must_refuse {counted : Json} {n : ℤ} {t : ℕ} {arguments : Json}
    (hp : host.relay.state.pending = false) (hpre : host.relay.preflight = some (counted, n))
    (hrefused : ∀ r, ¬(r.count = n ∧ Relay.Admits o host.relay.state arguments counted r)) :
    must t o (Relay.call o "generate" arguments host.relay)
      (fun _ u => ∀ r, ¬Relay.Sends host.view.hist arguments r u) host.view := by
  obtain ⟨⟨state, preflight⟩, view⟩ := host
  obtain rfl : preflight = some (counted, n) := hpre
  have hcall := @Relay.call_generate o arguments counted state n hp
  cases hgrant : Relay.grant o state arguments counted n with
  | ok r => exact absurd (Relay.grant_eq_ok.1 hgrant) (hrefused r)
  | error e =>
      rw [hgrant] at hcall
      obtain ⟨m, hcall⟩ := hcall
      show must _ _ (Relay.call o "generate" arguments ⟨state, some (counted, n)⟩) _ _
      rw [hcall]
      rintro r ⟨new, hnew, e, he, -⟩
      obtain rfl : new = [] := List.self_eq_append_left.1 hnew
      cases he

/-- How the relay deals with a request of the agent, in the state `s` with the exchanges
`dropped ++ kept`. -/
structure Reserves (o : Relay.Options) (host : Host) (s : AgentState) (request : Request)
    (dropped kept : List Exchange) (reserved : ℕ) : Prop where
  found : Relay.reservedThoughts host.relay.state.responses (argumentsOf request.inputs) = .ok reserved
  /-- Never less than the agent. -/
  le : request.preservedThoughtTokens ≤ reserved
  eq_iff : reserved = request.preservedThoughtTokens ↔ Apart dropped kept
  within : Fits o s.limits → Apart dropped kept →
    s.usage.totalTokens + (reservation request reserved).total ≤ o.maxTotalTokens
  sent : Fits o s.limits → s.usage.totalTokens + (reservation request reserved).total ≤ o.maxTotalTokens →
    ∀ t, must t o (Relay.call o "generate" (requestArguments request) host.relay) (fun _ u =>
      Relay.Sends host.view.hist (requestArguments request) (reservation request reserved) u) host.view
  refused : Fits o s.limits → o.maxTotalTokens < s.usage.totalTokens + (reservation request reserved).total →
    ∀ t, must t o (Relay.call o "generate" (requestArguments request) host.relay) (fun _ u =>
      ∀ r, ¬Relay.Sends host.view.hist (requestArguments request) r u) host.view

/-- The acts of the sample before its request, latest first. -/
def SampleActs (inputs : Inputs) (history : List Agent.Done) : Prop :=
  ∃ a b c d k l m, history.map Event.label = [Agent.Act.save a, .save b] ++ Agent.Act.counted inputs (.int 7) ::
    .count inputs :: [.save c, .save d, .context k, .save l, .save m, .load]

/-- The first agent counts and asks. -/
theorem visits_asked {v : Agent.Seen} {t : ℕ} (hw : v.world = none) (hh : v.hist = []) :
    Sequential.visits t Agent.sampleJob (Agent.runAgent reprFloat Agent.sampleJob Agent.sampleJob.blank)
      (fun u => ∃ e before request inputs, u.hist = e :: before ∧ e.label = .generate 0 request ∧
        SampleActs inputs before) v := by
  obtain ⟨w, h⟩ := v
  obtain rfl : w = none := hw
  obtain rfl : h = [] := hh
  unfold Agent.runAgent
  rw [Agent.sampleJob_contract]
  refine .inr ⟨_, _, rfl, .inr ⟨.done, .inr ⟨_, _, rfl, ?_⟩⟩⟩
  -- the toolbox has decided nothing
  refine .inr ⟨.ok none, .inr ⟨.done, .inr ⟨_, _, rfl, .inr ⟨.ok none, ?_⟩⟩⟩⟩
  refine .inr ⟨_, _, rfl, .inr ⟨.done, .inr ⟨_, _, rfl, ?_⟩⟩⟩
  refine .inr ⟨.done, .inr ⟨_, _, rfl, ?_⟩⟩
  -- the client counts seven tokens
  refine .inr ⟨_, _, rfl, .inr ⟨.ok (.int 7), .inr ⟨_, _, rfl, ?_⟩⟩⟩
  refine .inr ⟨.done, .inr ⟨_, _, rfl, .inr ⟨.done, .inr ⟨_, _, rfl, ?_⟩⟩⟩⟩
  refine .inr ⟨_, _, rfl, Sequential.visits_here ?_⟩
  exact ⟨_, _, _, _, rfl, rfl, _, _, _, _, _, _, _, rfl⟩

theorem through_sample {inputs : Inputs} (h : SampleActs inputs before) :
    ∃ host reply, Through ⟨2, 100, 10⟩ before host reply := by
  obtain ⟨a, b, c, d, k, l, m, hlabels⟩ := h
  obtain ⟨saves, rest, rfl, hsaves, hrest⟩ := List.map_eq_append_iff.1 hlabels
  obtain ⟨counted, rest, rfl, hcounted, hrest⟩ := List.map_eq_cons_iff.1 hrest
  obtain ⟨count, earlier, rfl, hcount, hearlier⟩ := List.map_eq_cons_iff.1 hrest
  have hstart := (Through.start (o := ⟨2, 100, 10⟩)).others hearlier (by simp [isClient])
  rw [List.append_nil] at hstart
  obtain ⟨ended, u, rfl, hmay⟩ := exists_outcome (@Relay.may_count ⟨2, 100, 10⟩ 0 (argumentsOf inputs)
    Host.start.relay Host.start.view 7 rfl (by decide) rfl)
  have hanswers : Host.start.Answers ⟨2, 100, 10⟩ "count_tokens" (argumentsOf inputs) _ ⟨_, u⟩ := ⟨hmay, rfl⟩
  have hcounts := (hstart.count hcount hanswers).counted hcounted
  exact ⟨_, _, hcounts.others hsaves (by simp [isClient])⟩

theorem modelRole_sample {inputs : Inputs} (h : SampleActs inputs before) : Agent.ModelRole before := by
  obtain ⟨a, b, c, d, k, l, m, hlabels⟩ := h
  intro d hd index response hl
  have hmem := hlabels ▸ List.mem_map_of_mem (f := Event.label) hd
  rw [hl] at hmem
  simp at hmem

end AutonomyLab.Relayed
