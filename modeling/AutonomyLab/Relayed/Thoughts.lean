import AutonomyLab.Agent.Transcript
import AutonomyLab.Count.Weighted
import AutonomyLab.Relay.Program

/-!
# The thoughts a relay finds in a request

The agent knows which responses are still in its context, and adds up their thoughts.  The
relay is not told: it looks for the contents of the recorded responses among the messages it
is given.

* `argumentsOf`, `requestArguments` — the requests of an agent, as its client sends them.
* `thoughtTokens_of_known` — the two read the same tokens off a response.
* `reservedThoughts_of_exchanges` — what the relay reserves for the messages of some exchanges.
-/

namespace AutonomyLab.Relayed

open Json Count
open Agent (Dict Exchange Inputs Request)

/-! ## Requests -/

/-- `contents=…, system_instruction=…, declarations=…`. -/
def members (inputs : Inputs) : Dict := [
  ("contents", .arr (inputs.contents.map .obj)), ("system_instruction", .str inputs.systemInstruction),
  ("declarations", .arr inputs.declarations)]

/-- The arguments of `count_tokens`. -/
def argumentsOf (inputs : Inputs) : Json := .obj (members inputs)

/-- The arguments of `generate`. -/
def requestArguments (request : Request) : Json :=
  .obj (members request.inputs ++ [("max_output_tokens", .int request.maxOutputTokens)])

theorem inputsOf_requestArguments (request : Request) :
    Relay.inputsOf (requestArguments request) = .ok (argumentsOf request.inputs) := rfl

theorem get_requestArguments (request : Request) :
    (requestArguments request).get "max_output_tokens" = .ok (.int request.maxOutputTokens) := rfl

theorem contents_argumentsOf (inputs : Inputs) :
    (argumentsOf inputs).subscript "contents" = .ok (.arr (inputs.contents.map .obj)) := rfl

/-! ## One response -/

variable {response : Json} {metadata : Dict} {total tokens : ℕ} {source : String}
  {x y : Exchange} {xs ys : List Exchange}

theorem subscript_of_usageMetadata (h : Agent.usageMetadata response = some metadata) :
    response.subscript "usageMetadata" = .ok (.obj metadata) := by
  unfold Agent.usageMetadata at h
  split at h
  · rename_i metadata' hfield
    cases h
    cases response with
    | obj fs => exact subscript_obj.2 hfield
    | _ => cases hfield
  · cases h

theorem lookup_of_count {key : String} {n : ℕ} (h : metadata.lookup key >>= Agent.count? = some n) :
    metadata.lookup key = some (.int n) := by
  obtain ⟨value, hvalue, hcount⟩ := Option.bind_eq_some_iff.1 h
  unfold Agent.count? at hcount
  split at hcount
  · cases hcount
    exact hvalue
  · cases hcount

/-- The total that the relay charges is the one that the agent charges. -/
theorem total_of_usageOf {usage : ℕ} (h : Relay.usageOf response = .ok usage) :
    Agent.totalTokenCount response = some usage := by
  obtain ⟨metadata, hmetadata, h⟩ := bind_eq_ok.1 h
  obtain ⟨value, hvalue, h⟩ := bind_eq_ok.1 h
  have husage : value = .int usage := by
    split at h
    · cases h
      rfl
    · cases h
  subst husage
  cases response with
  | obj fs =>
      have hlookup : (fs.lookup "usageMetadata").getD (.obj []) = metadata := Except.ok.inj hmetadata
      cases metadata with
      | obj members =>
          have htotal : (members.lookup "totalTokenCount").getD .null = .int usage := Except.ok.inj hvalue
          cases hfield : fs.lookup "usageMetadata" with
          | none =>
              rw [hfield] at hlookup
              cases hlookup
              cases htotal
          | some value =>
              rw [hfield] at hlookup
              obtain rfl : value = .obj members := hlookup
              cases hcount : members.lookup "totalTokenCount" with
              | none =>
                  rw [hcount] at htotal
                  cases htotal
              | some count =>
                  rw [hcount] at htotal
                  obtain rfl : count = .int usage := htotal
                  simp [Agent.totalTokenCount, Agent.usageMetadata, field?_obj, hfield, hcount, Agent.count?]
      | _ => cases hvalue
  | _ => cases hmetadata

/-- **The relay and the agent read the same thought tokens off a response.** -/
theorem thoughtTokens_of_known (h : Agent.priorThoughts response = .ok (total, tokens, source)) :
    Relay.thoughtTokens response = .ok tokens := by
  unfold Agent.priorThoughts at h
  cases hmetadata : Agent.usageMetadata response with
  | none => rw [hmetadata] at h; cases h
  | some metadata =>
      simp only [hmetadata] at h
      cases htotal : metadata.lookup "totalTokenCount" >>= Agent.count? with
      | none => simp only [htotal] at h; cases h
      | some n =>
          simp only [htotal] at h
          obtain ⟨⟨value, source'⟩, hsource, h⟩ := bind_eq_ok.1 h
          have hvalue : value = .int tokens := by
            dsimp only at h
            split at h
            · rename_i m hm
              split at h
              · cases h
                unfold Agent.count? at hm
                split at hm
                · cases hm
                  rfl
                · cases hm
              · cases h
            · cases h
          subst hvalue
          have husage := subscript_of_usageMetadata hmetadata
          have hnonneg : ¬(tokens : ℤ) < 0 := by omega
          unfold Relay.thoughtTokens
          cases hreported : metadata.lookup "thoughtsTokenCount" with
          | some value =>
              obtain rfl : value = .int tokens := by
                rw [Agent.thoughtSource, hreported] at hsource
                cases hsource
                rfl
              have hget : (Json.obj metadata).get "thoughtsTokenCount" = .ok (.int tokens) := by
                rw [Json.get, getD, hreported]
                rfl
              simp [husage, hget, hnonneg, bind, Except.bind, pure, Except.pure]
          | none =>
              have hget : (Json.obj metadata).get "thoughtsTokenCount" = .ok .null := by
                rw [Json.get, getD, hreported]
                rfl
              rw [Agent.thoughtSource, hreported] at hsource
              obtain ⟨rest, hrest, heq⟩ := map_eq_ok.1 hsource
              obtain rfl : rest = (tokens : ℤ) := by
                cases heq
                rfl
              unfold Agent.remainingTokens at hrest
              split at hrest
              · rename_i prompt candidates hprompt hcandidates
                have hdifference : (n : ℤ) - prompt - candidates = tokens := by
                  split at hrest
                  · cases hrest
                  · exact Except.ok.inj hrest
                simp [husage, hget, subscript_obj.2 (lookup_of_count htotal),
                  subscript_obj.2 (lookup_of_count hprompt), subscript_obj.2 (lookup_of_count hcandidates),
                  sub, numeric, hdifference, hnonneg, bind, Except.bind, pure, Except.pure]
              · cases hrest

/-! ## The messages of exchanges -/

/-- The content of a response, as the relay looks for it. -/
theorem contentOf_of_valid (h : x.Valid) : Relay.contentOf x.response = .ok (.obj x.content) := by
  obtain ⟨candidate, parts, tools, hcandidate, hcontent, -⟩ := h
  have hcandidates := Agent.candidates_of_candidate hcandidate
  obtain ⟨hlookup, -⟩ := Agent.content_of_content hcontent
  have hget : (Json.obj candidate).get "content" = .ok (.obj x.content) := by
    rw [Json.get, getD, hlookup]
    rfl
  unfold Relay.contentOf
  cases hresponse : x.response with
  | obj fs =>
      rw [hresponse] at hcandidates
      have hfs := subscript_obj.1 hcandidates
      simp [getD, hfs, first, hget, bind, Except.bind]
  | _ =>
      rw [hresponse] at hcandidates
      cases hcandidates

/-- The same content, read again where its tokens are counted. -/
theorem content_of_valid (h : x.Valid) : ∃ candidate, x.response.subscript "candidates" = .ok candidate ∧
    ∃ value, first candidate = .ok value ∧ value.subscript "content" = .ok (.obj x.content) := by
  obtain ⟨candidate, parts, tools, hcandidate, hcontent, -⟩ := h
  obtain ⟨hlookup, -⟩ := Agent.content_of_content hcontent
  exact ⟨_, Agent.candidates_of_candidate hcandidate, _, rfl, subscript_obj.2 hlookup⟩

theorem isModel_obj (content : Dict) :
    Relay.isModel (.obj content) = .ok (Agent.hasRole "model" content) := by
  unfold Relay.isModel Agent.hasRole
  rw [Json.get, getD]
  refine congrArg Except.ok (decide_eq_decide.2 ?_)
  rw [pyEq_str_iff]
  cases content.lookup "role" with
  | none => simp
  | some role => simp

/-- A message that the model has not written, and that carries no signature. -/
structure Unsigned (content : Dict) : Prop where
  role : Agent.hasRole "model" content = false
  parts : ∃ parts, content.lookup "parts" = some (.arr parts) ∧ ∀ part ∈ parts, Relay.signed part = .ok false

theorem unsigned_results (x : Exchange) : Unsigned x.results where
  role := rfl
  parts := by
    refine ⟨_, rfl, ?_⟩
    intro part hpart
    obtain ⟨call, -, rfl⟩ := List.mem_map.1 hpart
    rfl

/-- The messages of exchanges that the model has written are their contents. -/
theorem submitted_messages (hrole : ∀ y ∈ ys, Agent.hasRole "model" y.content = true) :
    Relay.submitted ((ys.flatMap Exchange.messages).map .obj) = .ok (ys.map fun y => .obj y.content) := by
  induction ys with
  | nil => rfl
  | cons y ys ih =>
      rw [List.forall_mem_cons] at hrole
      rw [List.flatMap_cons, List.map_append]
      show Relay.submitted (.obj y.content :: .obj y.results :: (ys.flatMap Exchange.messages).map .obj) = _
      simp [Relay.submitted, isModel_obj, hrole.1, (unsigned_results y).role, ih hrole.2, bind, Except.bind,
        pure, Except.pure]

theorem checkSignatures_cons {content : Dict} {contents : List Json}
    (h : Agent.hasRole "model" content = true ∨ Unsigned content) :
    Relay.checkSignatures (.obj content :: contents) = Relay.checkSignatures contents := by
  rcases h with hrole | ⟨hrole, parts, hparts, hunsigned⟩
  · simp [Relay.checkSignatures, isModel_obj, hrole, bind, Except.bind]
  · have hnone : anyTrue (parts.map Relay.signed) = .ok false := by
      rw [anyTrue_eq_false]
      intro c hc
      obtain ⟨part, hpart, rfl⟩ := List.mem_map.1 hc
      exact hunsigned part hpart
    simp [Relay.checkSignatures, isModel_obj, hrole, getD, hparts, iterate, hnone, bind, Except.bind]

theorem checkSignatures_messages (hrole : ∀ y ∈ ys, Agent.hasRole "model" y.content = true) :
    Relay.checkSignatures ((ys.flatMap Exchange.messages).map .obj) = .ok () := by
  induction ys with
  | nil => rfl
  | cons y ys ih =>
      rw [List.forall_mem_cons] at hrole
      rw [List.flatMap_cons, List.map_append]
      show Relay.checkSignatures (.obj y.content :: .obj y.results ::
        (ys.flatMap Exchange.messages).map .obj) = _
      rw [checkSignatures_cons (.inl hrole.1), checkSignatures_cons (.inr (unsigned_results y)), ih hrole.2]

/-! ## The sum -/

/-- Two exchanges have the same content. -/
def Same (x y : Exchange) : Prop := PyEq (.obj x.content) (.obj y.content)

instance : DecidableRel Same := fun _ _ => inferInstanceAs (Decidable (PyEq _ _))

theorem Same.refl (x : Exchange) : Same x x := PyEq.refl _

theorem Same.symm (h : Same x y) : Same y x := PyEq.symm h

/-- The thought tokens of the response of an exchange. -/
def thoughts (x : Exchange) : ℕ := Agent.thoughtTokens x.response

/-- The relay counts a response as often as its content is among the messages. -/
theorem sumThoughts_eq (hvalid : ∀ x ∈ xs, x.Valid)
    (hknown : ∀ x ∈ xs, ∃ u, Agent.priorThoughts x.response = .ok u) :
    Relay.sumThoughts (ys.map fun y => .obj y.content) (xs.map Exchange.response) =
      .ok (weighted Same thoughts ys xs : ℕ) := by
  induction xs with
  | nil => rfl
  | cons x xs ih =>
      rw [List.forall_mem_cons] at hvalid hknown
      obtain ⟨⟨total, n, source⟩, hu⟩ := hknown.1
      obtain ⟨candidates, hcandidates, value, hvalue, hcontent⟩ := content_of_valid hvalid.1
      have hthoughts : thoughts x = n := by
        unfold thoughts Agent.thoughtTokens
        rw [hu]
        rfl
      have hcount : ((ys.map fun y => Json.obj y.content).filter fun c => PyEq c (.obj x.content)).length =
          occurrences Same ys x := by
        rw [← List.countP_eq_length_filter, List.countP_map]
        rfl
      have hin : isIn (.obj x.content) (ys.map fun y => Json.obj y.content) = true ↔
          occurrences Same ys x ≠ 0 := by
        rw [Ne, occurrences_eq_zero, isIn]
        simp only [List.any_map, List.any_eq_true, Function.comp_apply, decide_eq_true_eq, not_forall, not_not]
        constructor
        · rintro ⟨y, hy, heq⟩
          exact ⟨y, hy, PyEq.symm heq⟩
        · rintro ⟨y, hy, heq⟩
          exact ⟨y, hy, Same.symm heq⟩
      rw [List.map_cons, weighted_cons, Relay.sumThoughts, contentOf_of_valid hvalid.1, ih hvalid.2 hknown.2,
        hthoughts]
      by_cases hzero : occurrences Same ys x = 0
      · have hout : isIn (.obj x.content) (ys.map fun y => Json.obj y.content) = false :=
          Bool.eq_false_iff.2 (mt hin.1 (not_not.2 hzero))
        simp [hout, hzero, bind, Except.bind, pure, Except.pure]
      · simp [hin.2 hzero, thoughtTokens_of_known hu, hcandidates, hvalue, hcontent, hcount, bind, Except.bind,
          pure, Except.pure]

/-- **What the relay reserves for a request with the messages of the exchanges `ys`**, when those
of `xs` have gone before them. -/
theorem reservedThoughts_of_exchanges {inputs : Inputs} {opening : Dict}
    (hcontents : inputs.contents = opening :: ys.flatMap Exchange.messages) (hopening : Unsigned opening)
    (hvalid : ∀ x ∈ xs ++ ys, x.Valid) (hrole : ∀ y ∈ ys, Agent.hasRole "model" y.content = true)
    (hknown : ∀ x ∈ xs ++ ys, ∃ u, Agent.priorThoughts x.response = .ok u) :
    Relay.reservedThoughts ((xs ++ ys).map Exchange.response) (argumentsOf inputs) =
      .ok (weighted Same thoughts ys (xs ++ ys) : ℕ) := by
  have hprior : ((xs ++ ys).map Exchange.response).mapM Relay.contentOf =
      .ok ((xs ++ ys).map fun x => .obj x.content) := by
    rw [mapM_eq_ok, List.map_map, List.map_map]
    exact List.map_congr_left fun x hx => contentOf_of_valid (hvalid x hx)
  have hsubmitted : Relay.submitted (inputs.contents.map .obj) = .ok (ys.map fun y => .obj y.content) := by
    rw [hcontents, List.map_cons, Relay.submitted, isModel_obj, hopening.role, submitted_messages hrole]
    rfl
  have hsigned : Relay.checkSignatures (inputs.contents.map .obj) = .ok () := by
    rw [hcontents, List.map_cons, checkSignatures_cons (.inr hopening), checkSignatures_messages hrole]
  have hrecognized : ((ys.map fun y => Json.obj y.content).any fun c =>
      !isIn c ((xs ++ ys).map fun x => .obj x.content)) = false := by
    rw [List.any_eq_false]
    intro c hc
    obtain ⟨y, hy, rfl⟩ := List.mem_map.1 hc
    rw [Bool.not_eq_true, Bool.not_eq_false', isIn, List.any_eq_true]
    exact ⟨_, List.mem_map_of_mem (List.mem_append_right xs hy), decide_eq_true (PyEq.refl _)⟩
  unfold Relay.reservedThoughts
  rw [hprior, contents_argumentsOf]
  simp only [bind, Except.bind, iterate, hsubmitted, hsigned, hrecognized]
  exact sumThoughts_eq hvalid hknown

end AutonomyLab.Relayed
