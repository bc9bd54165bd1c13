import AutonomyLab.Toolbox.Recovery

/-!
# Calls keep the log and the memory together

A call appends one line in sequence or none, and leaves the tools with what the lines say
(`keeps_call`), whatever is called and whatever it is answered.  So every view of the
processes on a directory satisfies the invariant (`inv_of_reachable`).
-/

namespace AutonomyLab.Toolbox

open Json Process Sequential Store.Lines

variable {P : Platform} {run : String} {t : ℕ} {o : Options} {v : Seen} {tools : ObservationTools}

/-! ## Appending a line -/

/-- The directory after `bytes` were appended to the log. -/
def Directory.appended (d : Directory) (bytes : Bytes) : Directory :=
  { d with log := some (d.bytes ++ bytes) }

@[simp] theorem Directory.bytes_appended (d : Directory) (bytes : Bytes) :
    (d.appended bytes).bytes = d.bytes ++ bytes := rfl

theorem Directory.appended_appended (d : Directory) (bytes bytes' : Bytes) :
    (d.appended bytes).appended bytes' = d.appended (bytes ++ bytes') := by
  simp [Directory.appended, Directory.bytes]

theorem Directory.lines_appended (d : Directory) {bytes : Bytes} (h : newline ∉ bytes) :
    (d.appended bytes).lines = d.lines := entries_append h

theorem keeps_appendAll {bytes : Bytes} (hnl : newline ∉ bytes) (h : Inv P run v)
    (hopen : v.world = v.world.appended []) :
    keeps (logic P run) t o (appendAll bytes tools) (fun r u => r = .ok ((), tools) ∧
      u.world = v.world.appended bytes ∧ committed u.hist = committed v.hist ∧ Inv P run u) v := by
  induction bytes generalizing v with
  | nil => exact ⟨rfl, hopen, rfl, h⟩
  | cons b bytes ih =>
      rw [List.mem_cons, not_or] at hnl
      have hb : newline ∉ [b] := by simpa using hnl.1
      rintro ⟨⟩ _ ⟨⟩
      have hinv : Inv P run (v.log t o (.append b) (v.world.appended [b])) :=
        h.quiet rfl (v.world.lines_appended hb) (List.Subset.refl _) h.torn
      refine ⟨hinv.point, keeps_mono (ih hnl.2 hinv ?_) ?_⟩
      · exact (Directory.appended_appended v.world [b] []).symm
      · rintro r u ⟨hr, hw, hc, hu⟩
        change u.world = (v.world.appended [b]).appended bytes at hw
        rw [Directory.appended_appended] at hw
        exact ⟨hr, hw, hc, hu⟩

/-- **An appended line is one more line in sequence.** -/
theorem keeps_appendLine (hP : P.Documented) {record : Json} {id : String} (h : Inv P run v)
    (ht : tail newline v.world.bytes = []) (hd : Distinct record)
    (hv : Valid P run (recordsOf P v.world.lines) (readBack record) id) (hid : id ∈ v.world.drawn) :
    keeps (logic P run) t o (appendLine P record tools) (fun r u => r = .ok ((), tools) ∧
      recordsOf P u.world.lines = recordsOf P v.world.lines ++ [readBack record] ∧
      tail newline u.world.bytes = [] ∧ Inv P run u) v := by
  have hparse := parseLine_lineOf hP hd
  have hnl := newline_not_mem_lineOf hP record
  rintro ⟨⟩ _ ⟨⟩
  have hopen : v.world.bytes = (v.world.appended []).bytes := by
    rw [Directory.bytes_appended, List.append_nil]
  have hinv : Inv P run (v.log t o .openLog (v.world.appended [])) :=
    h.quiet rfl (v.world.lines_appended List.not_mem_nil) (List.Subset.refl _) h.torn
  change Point _ (v.log t o .openLog { v.world with log := some v.world.bytes }) ∧
    keeps _ t o ((appendAll (lineOf P record) >>= fun _ => Prog.perform (.commit record) fun _ d =>
      some ((), { d with log := some (d.log.getD [] ++ [newline]) }) : Program Unit) tools) _
      (v.log t o .openLog { v.world with log := some v.world.bytes })
  have hworld : ({ v.world with log := some v.world.bytes } : Directory) = v.world.appended [] := by
    rw [Directory.appended, List.append_nil]
  rw [hworld]
  refine ⟨hinv.point, keeps_andThen (keeps_mono (keeps_appendAll hnl hinv ?_) ?_)⟩
  · exact (Directory.appended_appended v.world [] []).symm
  rintro _ u ⟨rfl, hu, hcommitted, hinv'⟩ ⟨⟩ _ ⟨⟩
  rw [View.log_world, Directory.appended_appended, List.nil_append] at hu
  have hlines : (u.world.appended [newline]).lines = v.world.lines ++ [lineOf P record] := by
    rw [Directory.lines, Directory.bytes_appended, hu, Directory.bytes_appended, entries_concat,
      entries_append hnl, tail_append hnl, ht, List.nil_append]
    rfl
  have hrecords : recordsOf P (u.world.appended [newline]).lines =
      recordsOf P v.world.lines ++ [readBack record] := by
    rw [hlines, recordsOf_concat hparse]
  have hdrawn : u.world.drawn = v.world.drawn := by
    rw [hu]
    rfl
  have hdone : Inv P run (u.log t o (.commit record) (u.world.appended [newline])) := by
    refine ⟨?_, ?_, ?_, hinv'.torn, by rintro _ ⟨⟩⟩
    · rw [View.log_world, hlines]
      exact inSequence_concat.2 ⟨h.lines, readBack record, id, hparse, hv⟩
    · rw [View.log_world, hlines, h.committed]
      change _ = (committed u.hist ++ [record]).map _
      rw [hcommitted, List.map_append]
      rfl
    · rw [View.log_world, hrecords]
      intro r hr i hi
      change i ∈ u.world.drawn
      rw [hdrawn]
      rcases List.mem_append.1 hr with hr | hr
      · exact h.drawn r hr i hi
      · rw [List.mem_singleton.1 hr, hv.identified] at hi
        cases hi
        exact hid
  exact ⟨hdone.point, rfl, hrecords, tail_concat _, hdone⟩

/-! ## Payloads -/

/-- A payload that is an error is no claim. -/
theorem recordable_of_error {source : String} {payload : List (String × Json)}
    (hd : Distinct (.obj payload)) (hk : payload.lookup "kind" = some (.str "error")) :
    Recordable source payload := by
  refine ⟨hd, fun _ hclaim => ?_⟩
  rw [hk, Option.getD_some, pyEq_str_iff] at hclaim
  exact absurd hclaim (by decide)

/-- Without a terminal claim to make, any dictionary may be recorded. -/
theorem recordable_of_source {source : String} (hs : source ≠ "finish")
    {payload : List (String × Json)} (hd : Distinct (.obj payload)) : Recordable source payload :=
  ⟨hd, fun h => absurd h hs⟩

theorem distinct_errorPayload (error : String) : Distinct (.obj (errorPayload error)) :=
  ⟨by unfold errorPayload; simp, trivial, trivial, trivial⟩

theorem distinct_tooLarge (record : Json) : Distinct (.obj (tooLarge P record)) :=
  ⟨by unfold tooLarge; simp, trivial, trivial, trivial, trivial, trivial, trivial⟩

theorem distinct_strs (xs : List String) : Distinct (.arr (xs.map .str)) := by
  refine distinctItems_iff.2 fun x hx => ?_
  obtain ⟨s, -, rfl⟩ := List.mem_map.1 hx
  trivial

theorem distinct_invalidArguments (tool : Tool) (args : Json) :
    Distinct (.obj (invalidArguments P tool args)) := by
  refine ⟨by simp [invalidArguments, errorPayload], trivial, trivial, ?_, trivial⟩
  have h := distinct_strs (((P.errorFields tool args).take 10).map fun loc =>
    String.ofList (loc.toList.take 80))
  rwa [List.map_map] at h

theorem distinct_dumped (f : FinishArguments) :
    Distinct (.obj (("kind", .str "claim") :: f.dumped)) := by
  refine ⟨by simp [FinishArguments.dumped], trivial, trivial, trivial, ?_, trivial⟩
  have h := distinct_strs (f.evidenceIds.1.map fun s => s.1)
  rwa [List.map_map] at h

theorem recordable_claim (source : String) (f : FinishArguments) :
    Recordable source (("kind", .str "claim") :: f.dumped) :=
  ⟨distinct_dumped f, fun _ _ => ⟨f, rfl⟩⟩

/-- The outcome of a tool is a payload that may be recorded. -/
theorem recordable_outcome {source : String} {outcome : Except Refusal (List (String × Json))}
    (h : ∀ payload, outcome = .ok payload → Recordable source payload) :
    Recordable source (outcomePayload outcome) := by
  cases outcome with
  | ok payload => exact h payload rfl
  | error refusal =>
      cases refusal with
      | operationConflict => exact recordable_of_error (distinct_errorPayload _) rfl
      | other name =>
          refine recordable_of_error ?_ rfl
          exact ⟨by simp [outcomePayload, errorPayload], trivial, trivial, trivial, trivial⟩

theorem recordable_boundedPayload {id timestamp source : String} {payload : List (String × Json)}
    (h : Recordable source payload) :
    Recordable source (boundedPayload P o id timestamp source payload) := by
  unfold boundedPayload
  dsimp only
  split
  · exact recordable_of_error (distinct_tooLarge _) rfl
  · exact h

/-- What is recorded for an error is an error. -/
theorem lookup_boundedPayload {id timestamp source : String} {payload : List (String × Json)}
    (h : payload.lookup "kind" = some (.str "error")) :
    (boundedPayload P o id timestamp source payload).lookup "kind" = some (.str "error") := by
  unfold boundedPayload
  dsimp only
  split
  · rfl
  · exact h

/-! ## Recording an observation -/

/-- An observation from `source` with the given payload was recorded and answered. -/
structure Recorded (P : Platform) (run : String) (v u : Seen) (source : String)
    (payload : List (String × Json)) (id : String) (answer : Json) : Prop where
  inv : Inv P run u
  complete : tail newline u.world.bytes = []
  records : recordsOf P u.world.lines = recordsOf P v.world.lines ++ [answer]
  identified : answer.member "observation_id" = .str id
  source : answer.member "source" = .str source
  /-- The payload, or the error that took its place. -/
  payload : ∃ fs, answer.subscript "payload" = .ok (.obj fs) ∧ Distinct (.obj fs) ∧
    (payload.lookup "kind" = some (.str "error") → fs.lookup "kind" = some (.str "error"))

/-- What was just written reads back. -/
theorem keeps_parse {text : String} {value : Json} (h : loads P.parseFloat text.toList = some value)
    {Q : Except (Failure × ObservationTools) (Json × ObservationTools) → Seen → Prop}
    (hQ : Q (.ok (value, tools)) v) : keeps (logic P run) t o (parse P text tools) Q v := by
  unfold parse
  rw [h]
  exact hQ

theorem keeps_record (hP : P.Documented) (hrun : o.runId = run) (h : Inv P run v)
    (ht : tail newline v.world.bytes = []) {source : String} {payload : List (String × Json)}
    (hpayload : Recordable source payload) :
    keeps (logic P run) t o (record P o source payload tools) (fun r u => ∃ id answer,
      r = .ok (answer, { tools with issuedIds := insert id tools.issuedIds }) ∧
      Recorded P run v u source payload id answer) v := by
  subst hrun
  refine keeps_andThen (keeps_mono (keeps_uuid4 h) ?_)
  rintro _ u₁ ⟨id, rfl, hid, hnew, hw, hinv, -⟩
  refine keeps_ask fun timestamp => ?_
  have hbounded : Recordable source (boundedPayload P o id timestamp.1 source payload) :=
    recordable_boundedPayload hpayload
  have hlines : u₁.world.lines = v.world.lines := by
    rw [hw]
    rfl
  have hv : Valid P o.runId (recordsOf P u₁.world.lines)
      (readBack (recordOf P o id timestamp.1 source payload)) id :=
    valid_readBack timestamp hbounded hid (fun r hr hri => hnew (h.drawn r (hlines ▸ hr) id hri))
  have hdist : Distinct (recordOf P o id timestamp.1 source payload) :=
    distinct_envelope hbounded.distinct
  have hdrawn : id ∈ u₁.world.drawn := by
    rw [hw]
    exact List.mem_cons_self
  have ht₁ : tail newline u₁.world.bytes = [] := by
    rw [hw]
    exact ht
  refine keeps_then (keeps_appendLine hP hinv ht₁ hdist hv hdrawn) ?_
  rintro u₂ ⟨hrec, htail, hinv₂⟩
  refine keeps_modify ?_
  rw [hlines] at hrec
  obtain ⟨ms, hms, hobs, -, -, hsource, hload⟩ := lookup_readBack o.runId id timestamp.1
    source (boundedPayload P o id timestamp.1 source payload)
  obtain ⟨gs, hgs, -, hlookup⟩ := lookup_ordered (L := lineLayout) hbounded.distinct.1
  have hrecorded : Recorded P o.runId v u₂ source payload id
      (readBack (recordOf P o id timestamp.1 source payload)) := by
    refine ⟨hinv₂, htail, hrec, hv.identified, ?_, gs, ?_, ?_, ?_⟩
    · rw [recordOf, hms, member_obj, hsource, Option.getD_some]
    · rw [recordOf, hms, subscript_obj, hload, ← hgs]
      rfl
    · rw [← hgs]
      exact distinct_ordered hbounded.distinct
    · intro hk
      rw [hlookup, lookup_boundedPayload hk]
      rfl
  exact keeps_parse (loads_serialized hP hdist) ⟨id, _, rfl, hrecorded⟩

/-! ## Calls -/

/-- The tools are not at work: the log is complete, and they hold what its lines say. -/
structure Ready (P : Platform) (run : String) (tools : ObservationTools) (v : Seen) : Prop where
  inv : Inv P run v
  complete : tail newline v.world.bytes = []
  holds : Holds tools (recordsOf P v.world.lines)

/-- The memory of tools that have begun a call. -/
def ObservationTools.begun (tools : ObservationTools) : ObservationTools :=
  { tools with callCount := tools.callCount + 1 }

/-- The claim of an answer, by its source and the kind of its payload. -/
theorem claimOf_answer {answer : Json} {source : String} {fs : List (String × Json)}
    (hs : answer.member "source" = .str source) (hp : answer.subscript "payload" = .ok (.obj fs)) :
    claimOf answer = if isClaim source fs then some (.obj fs) else none := by
  rw [claimOf, hs, ← subscript_eq_member hp]

/-- After an observation without a claim the tools are ready again. -/
theorem Recorded.ready {u : Seen} {source : String} {payload : List (String × Json)} {id : String}
    {answer : Json} (h : Recorded P run v u source payload id answer)
    (hholds : Holds tools (recordsOf P v.world.lines)) (terminal : Option Json)
    (hclaim : terminal = (claimOf answer).or tools.terminal) :
    Ready P run { tools.begun with
      issuedIds := insert id tools.issuedIds, terminal := terminal } u := by
  refine ⟨h.inv, h.complete, ?_⟩
  have hafter : { tools.begun with
      issuedIds := insert id tools.issuedIds, terminal := terminal } = tools.after answer id := by
    rw [hclaim]
    rfl
  rw [h.records, hafter]
  exact hholds.after h.identified

/-- A recorded error leaves the tools ready. -/
theorem keeps_recordError (hP : P.Documented) (hrun : o.runId = run) (h : Ready P run tools v)
    {source : String} {payload : List (String × Json)} (hd : Distinct (.obj payload))
    (hk : payload.lookup "kind" = some (.str "error")) :
    keeps (logic P run) t o (record P o source payload tools.begun) (fun r u => ∃ answer tools',
      r = .ok (answer, tools') ∧ Ready P run tools' u) v := by
  refine keeps_mono (keeps_record hP hrun h.inv h.complete (recordable_of_error hd hk)) ?_
  rintro _ u ⟨id, answer, rfl, hrec⟩
  obtain ⟨fs, hfs, -, herror⟩ := hrec.payload
  have hnone : claimOf answer = none := by
    have hkind : ¬PyEq ((fs.lookup "kind").getD .null) (.str "claim") := by
      rw [herror hk, Option.getD_some, pyEq_str_iff]
      decide
    rw [claimOf_answer hrec.source hfs, isClaim, if_neg]
    simpa using fun _ => hkind
  refine ⟨answer, _, rfl, hrec.ready h.holds tools.terminal ?_⟩
  rw [hnone]
  rfl

theorem keeps_execute (tool : Tool) {arguments : Arguments} {args : Json}
    (ha : tool.validate args = some arguments) :
    keeps (logic P run) t o (execute arguments tools) (fun r u => ∃ outcome,
      r = .ok (outcome, tools) ∧ Recordable tool.name (outcomePayload outcome) ∧ u = v) v := by
  have hother : tool ≠ .finish → ∀ outcome : Except Refusal
      { payload : List (String × Json) // Distinct (.obj payload) },
      Recordable tool.name (outcomePayload (outcome.map fun payload => payload.1)) := by
    intro hne outcome
    have hname : tool.name ≠ "finish" := by
      cases tool <;> first | decide | exact absurd rfl hne
    refine recordable_outcome fun payload hp => ?_
    obtain ⟨payload', -, rfl⟩ := map_eq_ok.1 hp
    exact recordable_of_source hname payload'.2
  cases arguments with
  | finish f => exact ⟨_, rfl, recordable_outcome fun payload hp => by
      cases hp
      exact recordable_claim _ f, rfl⟩
  | nothing | operation _ | proposal _ =>
      have hne : tool ≠ .finish := by
        rintro rfl
        simp [Tool.validate] at ha
      exact fun outcome => ⟨_, rfl, hother hne outcome, rfl⟩

/-- The payload that is kept of a terminal claim. -/
theorem loads_terminal (hP : P.Documented) {payload : Json} (hd : Distinct payload) :
    loads P.parseFloat (dumps P.reprFloat {} payload).toList = some payload := by
  rw [loads_dumps hP.float (Layout.valid_spaced false) hd, ordered_of_unsorted rfl]

theorem isClaim_name {tool : Tool} {fs : List (String × Json)} : isClaim tool.name fs = true ↔
    tool = .finish ∧ PyEq ((fs.lookup "kind").getD .null) (.str "claim") := by
  have hname : tool.name = "finish" ↔ tool = .finish := by cases tool <;> decide
  rw [isClaim, decide_eq_true_eq, hname]

theorem keeps_callTool (hP : P.Documented) (hrun : o.runId = run) (h : Ready P run tools v)
    {tool : Tool} {arguments : Arguments} {args : Json}
    (ha : tool.validate args = some arguments) :
    keeps (logic P run) t o (callTool P o tool arguments tools.begun) (fun r u => ∃ answer tools',
      r = .ok (answer, tools') ∧ Ready P run tools' u) v := by
  refine keeps_andThen (keeps_mono (keeps_execute tool ha) ?_)
  rintro _ u ⟨outcome, rfl, hout, rfl⟩
  refine keeps_andThen (keeps_mono (keeps_record hP hrun h.inv h.complete hout) ?_)
  rintro _ u ⟨id, answer, rfl, hrec⟩
  obtain ⟨fs, hfs, hd, -⟩ := hrec.payload
  have hkind : (answer.subscript "payload").bind (get "kind") =
      .ok ((fs.lookup "kind").getD .null) := by
    rw [hfs]
    rfl
  have hclaim := claimOf_answer hrec.source hfs
  dsimp only
  rw [hkind]
  refine keeps_ofExcept ?_
  by_cases hc : tool = .finish ∧ PyEq ((fs.lookup "kind").getD .null) (.str "claim")
  · rw [if_pos (isClaim_name.2 hc)] at hclaim
    rw [if_pos hc, ← subscript_eq_member hfs]
    refine keeps_andThen (keeps_parse (loads_terminal hP hd) ?_)
    refine keeps_modify ⟨answer, _, rfl, hrec.ready h.holds (some (.obj fs)) ?_⟩
    rw [hclaim]
    rfl
  · rw [if_neg (isClaim_name.not.2 hc)] at hclaim
    rw [if_neg hc]
    refine ⟨answer, _, rfl, hrec.ready h.holds tools.terminal ?_⟩
    rw [hclaim]
    rfl

/-- **A call leaves the tools with what the lines say**, whatever is called and answered. -/
theorem keeps_call (hP : P.Documented) (hrun : o.runId = run) (h : Ready P run tools v)
    (name args : Json) :
    keeps (logic P run) t o (call P o name args tools) (fun r u => ∃ answer tools',
      r = .ok (answer, tools') ∧ Ready P run tools' u) v := by
  refine keeps_get ?_
  split
  · exact keeps_ask fun timestamp => ⟨_, tools, rfl, h⟩
  refine keeps_modify ?_
  cases tool? name with
  | none => exact keeps_recordError hP hrun h (distinct_errorPayload _) rfl
  | some tool =>
      dsimp only
      cases ha : tool.validate args with
      | none => exact keeps_recordError hP hrun h (distinct_invalidArguments tool args) rfl
      | some arguments =>
          dsimp only
          cases refusal? o tools arguments with
          | some error => exact keeps_recordError hP hrun h (distinct_errorPayload _) rfl
          | none => exact keeps_callTool hP hrun h ha

/-! ## Processes -/

/-- An answer of tools that are ready keeps the invariant. -/
theorem Ready.log (h : Ready P run tools v) {l : Act}
    (hl : l = .opened tools ∨ l = .answered tools) : Inv P run (v.log t o l v.world) := by
  rcases hl with rfl | rfl
  · refine ⟨h.inv.lines, h.inv.committed, h.inv.drawn, h.inv.torn, ?_⟩
    rintro _ ⟨⟩
    exact h.holds
  · refine ⟨h.inv.lines, h.inv.committed, h.inv.drawn, h.inv.torn, ?_⟩
    rintro _ ⟨⟩
    exact h.holds

theorem keeps_serve (hP : P.Documented) (hrun : o.runId = run) (h : Ready P run tools v)
    (requests : List (Json × Json)) :
    keeps (logic P run) t o (serve P o requests tools) (fun _ _ => True) v := by
  induction requests generalizing v tools with
  | nil => trivial
  | cons request requests ih =>
      refine keeps_andThen (keeps_attempt (keeps_mono (keeps_call hP hrun h request.1 request.2) ?_))
      rintro _ u ⟨answer, tools', rfl, hready⟩
      refine keeps_get ?_
      have hinv : Inv P run (u.log t o (.answered tools') u.world) := hready.log (.inr rfl)
      rintro ⟨⟩ _ ⟨⟩
      exact ⟨hinv.point, ih ⟨hinv, hready.complete, hready.holds⟩⟩

/-- A constructor leaves the tools ready. -/
theorem Reopened.ready {u : Seen} (h : Reopened P v.world u.world tools) (hinv : Inv P run u) :
    Ready P run tools u := by
  have hbytes : u.world.bytes = complete newline v.world.bytes := by
    unfold Directory.bytes
    rw [h.log]
    cases v.world.log <;> rfl
  have hlines : u.world.lines = v.world.lines := by
    rw [Directory.lines, hbytes, entries_complete, Directory.lines]
  refine ⟨hinv, ?_, ?_⟩
  · rw [hbytes, tail_complete]
  · rw [hlines]
    exact h.holds

theorem sound (hP : P.Documented) : Sound (logic P run) := by
  rintro t o p v hinv - - ⟨hrun, requests, rfl⟩
  cases hcheck : o.check with
  | error e =>
      have hfail : create P o .initial = .fail (.python e, .initial) := by
        unfold create
        rw [hcheck]
        rfl
      refine keeps_andThen ?_
      rw [hfail]
      trivial
  | ok _ =>
      refine keeps_andThen (keeps_mono (keeps_create hinv hrun hcheck) ?_)
      rintro _ u ⟨tools, rfl, hre, hu⟩
      refine keeps_get ?_
      have hready := hre.ready hu
      have hinv : Inv P run (u.log t o (.opened tools) u.world) := hready.log (.inl rfl)
      rintro ⟨⟩ _ ⟨⟩
      exact ⟨hinv.point, keeps_serve hP hrun ⟨hinv, hready.complete, hready.holds⟩ requests⟩

/-- The processes on one directory, which starts empty. -/
abbrev Sessions := Sequential.Conf Directory Act Options (Failure × ObservationTools)
  (Unit × ObservationTools)

/-- The system of the processes of a run. -/
abbrev sessions (P : Platform) (run : String) :
    Sequential.System Directory Act Options (Failure × ObservationTools) (Unit × ObservationTools) :=
  evidence P run fun d => d = ⟨none, [], []⟩

theorem inv_of_reachable (hP : P.Documented) {c : Sessions} (h : Reachable (sessions P run) c) :
    Inv P run c.view := h.inv (sound hP)

end AutonomyLab.Toolbox
