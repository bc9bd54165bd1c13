import AutonomyLab.Agent.Program

/-!
# The transcript of an investigation

The messages of an agent are its first message and then, for each response, the content of
the model and the results of its calls.  The context of a request is taken from them.

* `Exchange` — a response, its content, and its calls with their results.
* `Transcript` — the messages of a state are those of some exchanges.
* `requestContext_of_transcript` — the compacted context of such a state.
-/

namespace AutonomyLab.Agent

open Json

/-! ## Exchanges -/

/-- The part of a message that reports a result. -/
def reported (call : Call) (result : Dict) : Json :=
  let members : Dict := [("name", .str call.name), ("response", .obj result)]
  .obj [("functionResponse", .obj (match call.id? with
    | some id => members ++ [("id", id)]
    | none => members))]

theorem functionResponse_eq_ok {pending : Pending} {part : Json}
    (h : functionResponse pending = .ok part) :
    ∃ result, pending.progress = .completed result ∧ part = reported pending.call result := by
  obtain ⟨result, hresult, hpart⟩ := bind_eq_ok.1 h
  cases hpart
  refine ⟨result, ?_, rfl⟩
  unfold Pending.result at hresult
  split at hresult
  · rename_i hprogress
    cases hresult
    exact hprogress
  · cases hresult

/-- A response of the model, its content, and its calls with their results. -/
structure Exchange where
  response : Json
  content : Dict
  calls : List (Call × Dict)

/-- The message with the results of the calls. -/
def Exchange.results (x : Exchange) : Dict :=
  [("role", .str "user"), ("parts", .arr (x.calls.map fun call => reported call.1 call.2))]

def Exchange.messages (x : Exchange) : List Dict := [x.content, x.results]

/-- What a ledger says of a call. -/
def ledgerLine (call : Call × Dict) : Json :=
  .obj [("name", .str call.1.name), ("args", .obj call.1.args), ("result", .obj call.2)]

def Exchange.ledger (x : Exchange) : List Json := x.calls.map ledgerLine

/-- The content of a response, and the calls in it. -/
def CallsOf (response : Json) (content : Dict) (calls : List Call) : Prop :=
  ∃ candidate parts tools, candidate? response = some candidate ∧
    content? candidate = some (content, parts) ∧ checkCalls tools parts = .ok calls ∧ calls ≠ []

/-- The exchange is that of its response. -/
def Exchange.Valid (x : Exchange) : Prop := CallsOf x.response x.content (x.calls.map Prod.fst)

/-- The messages and the responses of a state are those of some exchanges. -/
structure Transcript (s : AgentState) (xs : List Exchange) : Prop where
  valid : ∀ x ∈ xs, x.Valid
  responses : s.modelResponses = xs.map Exchange.response
  contents : s.contents = firstContent :: xs.flatMap Exchange.messages

/-! ## One exchange -/

theorem call_of_checked {tools : Dict} {value : Json} {call : Call} (h : call? tools value = .ok call) :
    value = .obj call.members := by
  unfold call? at h
  split at h
  · split at h
    · split at h
      · cases h
      · split at h
        · split at h
          · cases h
            rfl
          · cases h
        · cases h
    · cases h
    · cases h
    · cases h
  · cases h

/-- A part that has been checked, with the call in it. -/
theorem functionCall_of_checked {tools : Dict} {part : Json} {call : Option Call}
    (h : checkCall tools part = .ok call) : ∃ fs, part = .obj fs ∧
      fs.lookup "functionCall" = call.map fun call => .obj call.members := by
  unfold checkCall at h
  cases part with
  | obj fs =>
      refine ⟨fs, rfl, ?_⟩
      simp only [isDict, if_true, field?_obj] at h
      cases hvalue : fs.lookup "functionCall" with
      | none =>
          simp only [hvalue] at h
          cases h
          rfl
      | some value =>
          simp only [hvalue] at h
          obtain ⟨call', hcall, h⟩ := bind_eq_ok.1 h
          obtain ⟨-, -, h⟩ := bind_eq_ok.1 h
          have hsome : call = some call' := by
            split at h
            · split at h
              · split at h
                · cases h
                · cases h
                  rfl
              · cases h
            · cases h
              rfl
          rw [hsome, call_of_checked hcall]
          rfl
  | _ => cases h

/-- The calls among parts that have been checked. -/
theorem functionCalls_of_checked {tools : Dict} {parts : List Json} {calls : List (Option Call)}
    (h : parts.map (checkCall tools) = calls.map .ok) :
    functionCalls parts = .ok (calls.reduceOption.map fun call => .obj call.members) := by
  induction parts generalizing calls with
  | nil =>
      cases calls with
      | nil => rfl
      | cons call calls => cases h
  | cons part parts ih =>
      cases calls with
      | nil => cases h
      | cons call calls =>
          obtain ⟨hcall, hcalls⟩ := List.cons.inj h
          obtain ⟨fs, rfl, hlookup⟩ := functionCall_of_checked hcall
          have ih := ih hcalls
          cases call with
          | none =>
              simp only [functionCalls, contains, hlookup, ih, List.reduceOption_cons_of_none]
              rfl
          | some call =>
              simp only [functionCalls, contains, subscript, hlookup, ih,
                List.reduceOption_cons_of_some]
              rfl

theorem functionCalls_of_checkCalls {tools : Dict} {parts : List Json} {calls : List Call}
    (h : checkCalls tools parts = .ok calls) :
    functionCalls parts = .ok (calls.map fun call => .obj call.members) := by
  unfold checkCalls at h
  obtain ⟨checked, hchecked, h⟩ := bind_eq_ok.1 h
  have hcalls : calls = checked.reduceOption := by
    dsimp only at h
    split at h
    · cases h
    · split at h
      · cases h
        rfl
      · cases h
  rw [hcalls]
  exact functionCalls_of_checked (mapM_eq_ok.1 hchecked)

/-- A result with the name and the identifier of a call matches it. -/
theorem matchedResult_of_same {call part result name id : Json}
    (hpart : subscript "functionResponse" part = .ok result) (hname : subscript "name" call = .ok name)
    (hname' : Json.get "name" result = .ok name) (hid : Json.get "id" call = .ok id)
    (hid' : Json.get "id" result = .ok id) : matchedResult call part = .ok result := by
  unfold matchedResult
  simp [hpart, hname, hname', hid, hid', PyEq.refl, bind, Except.bind, pure, Except.pure]

/-- A result matches the call it was reported for. -/
theorem matchedResult_reported (call : Call) (result : Dict) : ∃ members : Dict,
    matchedResult (.obj call.members) (reported call result) = .ok (.obj members) ∧
      members.lookup "response" = some (.obj result) := by
  have hname : subscript "name" (.obj call.members) = .ok (.str call.name) :=
    subscript_obj.2 call.has_name
  have hget : Json.get "id" (.obj call.members) = .ok (call.id?.getD .null) := rfl
  unfold reported
  cases hid : call.id? with
  | none =>
      rw [hid] at hget
      exact ⟨_, matchedResult_of_same rfl hname rfl hget rfl, rfl⟩
  | some id =>
      rw [hid] at hget
      exact ⟨_, matchedResult_of_same rfl hname rfl hget rfl, rfl⟩

theorem isFunctionResponse_reported (call : Call) (result : Dict) :
    isFunctionResponse (reported call result) = .ok true := by
  unfold reported isFunctionResponse
  rfl

theorem ledgerEntry_eq (call : Call) {members result : Dict}
    (hresponse : members.lookup "response" = some (.obj result)) :
    ledgerEntry (.obj call.members) (.obj members) = .ok (ledgerLine (call, result)) := by
  unfold ledgerEntry
  rw [subscript_obj.2 call.has_name, subscript_obj.2 call.has_args, subscript_obj.2 hresponse]
  rfl

theorem candidates_of_candidate {response : Json} {candidate : Dict}
    (h : candidate? response = some candidate) :
    subscript "candidates" response = .ok (.arr [.obj candidate]) := by
  unfold candidate? at h
  split at h
  · rename_i candidate' hfield
    cases h
    cases response with
    | obj fs => exact subscript_obj.2 hfield
    | _ => cases hfield
  · cases h

theorem content_of_content {candidate content : Dict} {parts : List Json}
    (h : content? candidate = some (content, parts)) :
    candidate.lookup "content" = some (.obj content) ∧ content.lookup "parts" = some (.arr parts) := by
  unfold content? at h
  split at h
  · rename_i content' _ hcontent
    split at h
    · rename_i parts' hparts
      cases h
      exact ⟨hcontent, hparts⟩
    · cases h
  · cases h

/-- The loop over the calls of an exchange. -/
theorem lines_of_calls (old : Bool) (calls : List (Call × Dict)) :
    (((calls.map fun call => Json.obj call.1.members).zip
      (calls.map fun call => reported call.1 call.2)).mapM fun p => do
        let result ← matchedResult p.1 p.2
        if old then (ledgerEntry p.1 result).map some else pure none) =
      .ok (calls.map fun call => if old then some (ledgerLine call) else none) := by
  rw [mapM_eq_ok, List.zip_map', List.map_map, List.map_map]
  refine List.map_congr_left fun call _ => ?_
  obtain ⟨members, hmatched, hresponse⟩ := matchedResult_reported call.1 call.2
  show (do
    let result ← matchedResult (.obj call.1.members) (reported call.1 call.2)
    if old then (ledgerEntry (.obj call.1.members) result).map some else pure none) = _
  rw [hmatched]
  cases old with
  | true =>
      show (ledgerEntry (.obj call.1.members) (.obj members)).map some = _
      rw [ledgerEntry_eq call.1 hresponse]
      rfl
  | false => rfl

theorem reduceOption_lines (old : Bool) (calls : List (Call × Dict)) :
    (calls.map fun call => if old then some (ledgerLine call) else none).reduceOption =
      if old then calls.map ledgerLine else [] := by
  cases old with
  | true =>
      simp only [if_true]
      induction calls with
      | nil => rfl
      | cons call calls ih => rw [List.map_cons, List.reduceOption_cons_of_some, ih, List.map_cons]
  | false =>
      simp only [Bool.false_eq_true, if_false]
      induction calls with
      | nil => rfl
      | cons call calls ih => rw [List.map_cons, List.reduceOption_cons_of_none, ih]

/-- An exchange whose content has the role of the model gives the lines of its calls. -/
theorem exchangeEntries_of_valid {x : Exchange} (h : x.Valid) (hrole : hasRole "model" x.content = true)
    (old : Bool) :
    exchangeEntries old x.content x.results x.response = .ok (if old then x.ledger else []) := by
  obtain ⟨candidate, parts, tools, hcandidate, hcontent, hchecked, hne⟩ := h
  obtain ⟨hcontent, hparts⟩ := content_of_content hcontent
  have hcandidates := candidates_of_candidate hcandidate
  have hcalls := functionCalls_of_checkCalls hchecked
  have hresponses : allTrue ((x.calls.map fun call => reported call.1 call.2).map isFunctionResponse) =
      .ok true := by
    rw [allTrue_eq_true]
    intro c hc
    obtain ⟨part, hpart, rfl⟩ := List.mem_map.1 hc
    obtain ⟨call, -, rfl⟩ := List.mem_map.1 hpart
    exact isFunctionResponse_reported call.1 call.2
  have htruthy : (Json.arr (x.calls.map fun call => reported call.1 call.2)).truthy = true := by
    cases hx : x.calls with
    | nil => exact absurd (by rw [hx]; rfl) hne
    | cons call calls => rfl
  have hlines := lines_of_calls old x.calls
  have hmap : (x.calls.map Prod.fst).map (fun call => Json.obj call.members) =
      x.calls.map fun call => Json.obj call.1.members := by
    rw [List.map_map]
    rfl
  rw [hmap] at hcalls
  have hsame : (!decide (PyEq (.obj x.content) (.obj x.content)) || !hasRole "model" x.content ||
      !hasRole "user" x.results) = false := by
    rw [hrole]
    simp [PyEq.refl, Exchange.results, hasRole]
  have hreported : (x.results.lookup "parts").getD .null =
      .arr (x.calls.map fun call => reported call.1 call.2) := rfl
  have hlength : ¬(x.calls.map fun call => Json.obj call.1.members).length ≠
      (x.calls.map fun call => reported call.1 call.2).length := by
    rw [List.length_map, List.length_map]
    exact not_not.2 rfl
  unfold exchangeEntries
  rw [hcandidates]
  simp only [bind, Except.bind] at hlines
  simp only [bind, Except.bind, first, subscript_obj.2 hcontent, subscript_obj.2 hparts, hsame,
    hreported, htruthy, iterate, hresponses, hcalls, if_neg hlength, hlines, Bool.false_eq_true,
    Bool.not_true, if_false, if_true]
  exact congrArg Except.ok (reduceOption_lines old x.calls)

/-! ## All exchanges -/

theorem length_messages (xs : List Exchange) : (xs.flatMap Exchange.messages).length = xs.length * 2 := by
  induction xs with
  | nil => rfl
  | cons x xs ih =>
      rw [List.flatMap_cons, List.length_append, ih, List.length_cons]
      show 2 + xs.length * 2 = _
      omega

/-- The two messages of an exchange, in their place. -/
theorem messages_at {xs : List Exchange} {x : Exchange} {i : ℕ} (h : xs[i]? = some x) :
    ((xs.flatMap Exchange.messages).drop (i * 2)).take 2 = x.messages := by
  induction xs generalizing i with
  | nil => cases h
  | cons y xs ih =>
      rw [List.flatMap_cons]
      cases i with
      | zero =>
          cases h
          rfl
      | succ i =>
          rw [Nat.succ_mul, Nat.add_comm, ← List.drop_drop]
          exact ih h

/-- The entries below an index, in a loop with indices. -/
theorem flatten_zipIdx (f : Exchange → List Json) (xs : List Exchange) (n k : ℕ) :
    ((xs.zipIdx k).map fun p => if p.2 < n then f p.1 else []).flatten = (xs.take (n - k)).flatMap f := by
  induction xs generalizing k with
  | nil => simp
  | cons x xs ih =>
      rw [List.zipIdx_cons, List.map_cons, List.flatten_cons, ih]
      by_cases hk : k < n
      · obtain ⟨m, hm⟩ : ∃ m, n - k = m + 1 := ⟨n - k - 1, by omega⟩
        rw [if_pos hk, hm, List.take_succ_cons, List.flatMap_cons, show n - (k + 1) = m by omega]
      · rw [if_neg hk, show n - k = 0 by omega, show n - (k + 1) = 0 by omega]
        rfl

/-- The ledger of all exchanges but the last two. -/
theorem ledger_of_valid {xs : List Exchange} (hvalid : ∀ x ∈ xs, x.Valid)
    (hrole : ∀ x ∈ xs, hasRole "model" x.content = true) :
    ledger (firstContent :: xs.flatMap Exchange.messages) (xs.map Exchange.response) =
      .ok ((xs.take (xs.length - 2)).flatMap Exchange.ledger) := by
  unfold ledger
  refine bind_eq_ok.2 ⟨xs.zipIdx.map fun p => if p.2 < xs.length - 2 then p.1.ledger else [],
    mapM_eq_ok.2 ?_, congrArg Except.ok (flatten_zipIdx Exchange.ledger xs (xs.length - 2) 0)⟩
  rw [List.zipIdx_map, List.map_map, List.map_map]
  refine List.map_congr_left fun p hp => ?_
  obtain ⟨x, i⟩ := p
  have hx : xs[i]? = some x := List.mem_zipIdx_iff_getElem?.1 hp
  have hmem := List.mem_of_getElem? hx
  have hmessages : ((firstContent :: xs.flatMap Exchange.messages).drop (1 + i * 2)).take 2 =
      [x.content, x.results] := by
    rw [Nat.add_comm, List.drop_succ_cons]
    exact messages_at hx
  simp only [Function.comp_apply, Prod.map_apply, id_eq, hmessages]
  show exchangeEntries _ x.content x.results x.response = _
  rw [exchangeEntries_of_valid (hvalid x hmem) (hrole x hmem), List.length_map]
  have hiff : i + 2 < xs.length ↔ i < xs.length - 2 := by omega
  simp only [decide_eq_true_eq, hiff]

/-- The parts of the first message. -/
def firstParts : List Json :=
  match firstContent.lookup "parts" with
  | some (.arr parts) => parts
  | _ => []

section
variable (reprFloat : ℚ → String)

/-- The message that stands for the first one and the earlier exchanges. -/
def opening (xs : List Exchange) : Dict :=
  [("role", .str "user"), ("parts", .arr (firstParts ++
    [.obj [("text", .str (ledgerText reprFloat (xs.flatMap Exchange.ledger)))]]))]

/-- The context of a request, and the responses that are still in it. -/
def compacted (xs : List Exchange) : List Dict × List ℕ :=
  if xs.length ≤ 2 then (firstContent :: xs.flatMap Exchange.messages, List.range xs.length)
  else (opening reprFloat (xs.take (xs.length - 2)) ::
    (xs.drop (xs.length - 2)).flatMap Exchange.messages, List.range' (xs.length - 2) 2)

end

theorem last_messages {xs : List Exchange} (h : ¬xs.length ≤ 2) :
    (firstContent :: xs.flatMap Exchange.messages).drop
      ((firstContent :: xs.flatMap Exchange.messages).length - 4) =
      (xs.drop (xs.length - 2)).flatMap Exchange.messages := by
  have hsplit : xs.flatMap Exchange.messages =
      (xs.take (xs.length - 2)).flatMap Exchange.messages ++
        (xs.drop (xs.length - 2)).flatMap Exchange.messages := by
    rw [← List.flatMap_append, List.take_append_drop]
  have hlength : ((xs.take (xs.length - 2)).flatMap Exchange.messages).length = (xs.length - 2) * 2 := by
    rw [length_messages, List.length_take, Nat.min_eq_left (Nat.sub_le _ _)]
  have hindex : (firstContent :: xs.flatMap Exchange.messages).length - 4 = (xs.length - 2) * 2 + 1 := by
    rw [List.length_cons, length_messages]
    omega
  rw [hindex, List.drop_succ_cons, hsplit, List.drop_left' hlength]

/-- **Compaction loses nothing.**  The context of a state whose messages are those of some
exchanges is all of them, or the ledger of all but the last two and the messages of these. -/
theorem requestContext_of_transcript {reprFloat : ℚ → String} {s : AgentState} {xs : List Exchange}
    (h : Transcript s xs) (hrole : ∀ x ∈ xs, hasRole "model" x.content = true) :
    requestContext reprFloat s .recentExchanges = .ok (compacted reprFloat xs) := by
  have hcount : s.modelResponses.length = xs.length := by rw [h.responses, List.length_map]
  unfold requestContext compacted
  by_cases hshort : xs.length ≤ 2
  · simp only [hcount, h.contents, if_pos hshort]
    rfl
  · have hcontents : ¬s.contents.length ≠ 1 + xs.length * 2 := by
      rw [h.contents, List.length_cons, length_messages]
      omega
    simp only [hcount, if_neg hshort, if_neg hcontents]
    rw [h.contents, h.responses, ledger_of_valid h.valid hrole, last_messages hshort]
    rfl

end AutonomyLab.Agent
