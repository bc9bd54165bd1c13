import AutonomyLab.Campaign.Alone
import AutonomyLab.Runbook.Safe

/-!
# An episode

What the tools of an episode do to the journal, and what the runbook therefore never does: it
makes a proposal only where every operation is settled.

* `Held` — the acts so far were careful, and if a proposal may still be made, everything is settled.
* `triple_call_other`, `triple_call_propose` — the calls.
* `MayPropose` — after an exchange with the tools, a proposal may still be made.
* `triple_episode` — the acts of an episode are careful.
-/

namespace AutonomyLab.Campaign

open Json Process Sequential Broker Store Runbook
open Toolbox (ObservationTools Options Tool Arguments tool? refusal? errorPayload outcomePayload recordOf
  readBack boundedPayload)

/-- The acts so far were careful, and everything is settled if `φ`. -/
structure Held (φ : Prop) (v : Seen) : Prop where
  careful : ∀ e ∈ v.hist, Careful e
  clear : φ → Clear v.world.journal

section
variable {P : Toolbox.Platform} {contract : Contract} {j₀ : Journal} {t : ℕ} {o id : String} {v : Seen} {φ : Prop}
  {options : Options}

theorem stable_held : Stable (logic P contract j₀) t o (Held φ) := by
  intro v l w h hcalm
  have hcareful : ∀ e ∈ (v.log t o l w).hist, Careful e := by
    intro e he
    rcases List.mem_cons.1 he with rfl | he
    · intro k hk
      cases hcalm.target.symm.trans hk
    · exact h.careful e he
  exact ⟨⟨hcareful, fun _ => trivial⟩, hcareful, fun hφ => hcalm.rests.clear (h.clear hφ)⟩

/-! ## Observations -/

/-- The observation holds the payload, as far as it was not too large. -/
def Holds (P : Toolbox.Platform) (options : Options) (payload : Dict) (observation : Json) : Prop :=
  ∃ id timestamp source, observation = readBack (recordOf P options id timestamp source payload)

theorem eq_str_of_ordered {x : Json} {s : String} (h : ordered Toolbox.lineLayout x = .str s) : x = .str s := by
  cases x with
  | str _ => exact h
  | _ => cases h

theorem keys_tooLarge (record : Json) : (Toolbox.tooLarge P record).map Prod.fst =
    ["kind", "error", "original_bytes", "content_sha256", "message"] := rfl

/-- A status that is read back was recorded. -/
theorem Holds.status {payload : Dict} {observation : Json} {s : String} (h : Holds P options payload observation)
    (hnodup : (payload.map Prod.fst).Nodup) (hs : member "status" (payloadOf observation) = .str s) :
    payload.lookup "status" = some (.str s) := by
  obtain ⟨id, timestamp, source, rfl⟩ := h
  have hbounded : boundedPayload P options id timestamp source payload = payload ∨
      (boundedPayload P options id timestamp source payload).lookup "status" = none ∧
        ((boundedPayload P options id timestamp source payload).map Prod.fst).Nodup := by
    unfold boundedPayload
    dsimp only
    split
    · exact .inr ⟨rfl, by rw [keys_tooLarge]; decide⟩
    · exact .inl rfl
  obtain ⟨gs, hgs, -, -, -, -, hload⟩ := Toolbox.lookup_readBack options.runId id timestamp source
    (boundedPayload P options id timestamp source payload)
  have hpayload : payloadOf (readBack (recordOf P options id timestamp source payload)) =
      readBack (.obj (boundedPayload P options id timestamp source payload)) := by
    rw [payloadOf, recordOf, hgs, member_obj, hload, Option.getD_some]
  rw [hpayload] at hs
  have hkeys : ((boundedPayload P options id timestamp source payload).map Prod.fst).Nodup := by
    rcases hbounded with h | ⟨-, h⟩
    · rw [h]
      exact hnodup
    · exact h
  obtain ⟨ms, hms, -, hlookup⟩ := lookup_ordered (L := Toolbox.lineLayout) hkeys
  rw [readBack, hms, member_obj, hlookup] at hs
  cases hstatus : (boundedPayload P options id timestamp source payload).lookup "status" with
  | none =>
      rw [hstatus] at hs
      cases hs
  | some x =>
      rw [hstatus] at hs
      rw [eq_str_of_ordered hs] at hstatus
      rcases hbounded with h | ⟨h, -⟩
      · rwa [h] at hstatus
      · cases h.symm.trans hstatus

variable {L : Logic (campaign P contract j₀)} {K : Seen → Prop}

theorem triple_record (hK : Stable L t o K) {source : String} {payload : Dict} :
    Triple L t o K (record P options source payload) fun r v =>
      K v ∧ Returns (fun observation _ => Holds P options payload observation) r v := by
  refine .ask fun id => .ask fun timestamp => ?_
  refine .bind (F := fun _ v => K v) triple_asked (fun _ => ?_) fun _ _ h => ⟨h, trivial⟩
  exact .bind (triple_setTools hK rfl) (fun _ => .done fun _ h => ⟨h, id, timestamp, source, rfl⟩)
    fun _ _ h => ⟨h, trivial⟩

theorem triple_operationOf {operation : Journal.Operation} :
    Triple L t o K (operationOf operation) fun r v => K v ∧
      Returns (fun payload _ => ∃ createdAt updatedAt, payload = operationPayload createdAt updatedAt operation) r v :=
  .ask fun createdAt => .ask fun updatedAt => .done fun _ h => ⟨h, createdAt, updatedAt, rfl⟩

/-! ## Calls -/

section
variable (hK : Stable L t o K)
include hK

/-- What is asked of a tool other than a proposal settles nothing and sends nothing. -/
theorem triple_execute {arguments : Arguments} (ha : ∀ p, arguments ≠ .proposal p) :
    Triple L t o K (execute P (broker contract o) options arguments) fun _ v => K v := by
  cases arguments with
  | proposal p => exact absurd rfl (ha p)
  | nothing => exact triple_asked
  | finish f => exact .bind triple_asked (fun _ => .done fun _ h => h) fun _ _ h => h
  | operation id =>
      refine .bind (F := fun _ v => K v) (.attempt ((triple_lookup (b := broker contract o) hK).mono (fun _ h => h)
        fun _ _ h => h.1)) (fun result => ?_) fun _ _ h => h
      split
      · exact .done fun _ h => h
      · exact .fail fun _ h => h
      · unfold showOperation
        split
        · exact .done fun _ h => h
        split
        · refine .bind (F := fun _ v => K v) ((triple_reconcile (b := broker contract o) hK
            fun _ _ => triple_asked).mono (fun _ h => h) fun _ _ h => h.1) (fun operation => ?_) fun _ _ h => h
          exact triple_operationOf.mono (fun _ h => h) fun _ _ h => h.1
        · exact triple_operationOf.mono (fun _ h => h) fun _ _ h => h.1

end

/-- A call of a tool leaves what is known of the payload, and answers with it. -/
theorem triple_callTool {A : Seen → Prop} {K : Dict → Seen → Prop} (hK : ∀ payload, Stable L t o (K payload))
    {tool : Tool} {arguments : Arguments}
    (hexecute : Triple L t o A (execute P (broker contract o) options arguments) fun r v =>
      K (outcomePayload (r.mapError refusalOf)) v) :
    Triple L t o A (callTool P (broker contract o) options tool arguments) fun r v =>
      ∃ payload, K payload v ∧ Returns (fun observation _ => Holds P options payload observation) r v := by
  refine .bind (F := fun r v => ∃ outcome, r = .ok outcome ∧ K (outcomePayload (outcome.mapError refusalOf)) v)
    (.attempt (hexecute.mono (fun _ h => h) fun r v h => ⟨r, rfl, h⟩)) (fun outcome => ?_) ?_
  · refine .mono (A := K (outcomePayload (outcome.mapError refusalOf))) ?_ ?_ fun _ _ h => h
    · refine .bind (triple_record (hK _)) (fun observation => ?_) fun e v h => ⟨_, h.1, trivial⟩
      refine .bind (F := fun _ v => ∃ payload, K payload v ∧ Holds P options payload observation)
        (.ofExcept fun v h => ⟨_, h⟩) (fun claimed => ?_) ?_
      · split
        · refine .bind (F := fun _ v => ∃ payload, K payload v ∧ Holds P options payload observation) ?_
            (fun _ => .done fun _ h => h) ?_
          · rintro v ⟨payload, hk, hholds⟩
            exact keeps_mono (triple_setTools (hK payload) rfl v hk) fun _ _ h => ⟨payload, h, hholds⟩
          · rintro e v ⟨payload, hk, -⟩
            exact ⟨payload, hk, trivial⟩
        · exact .done fun _ h => h
      · rintro e v ⟨payload, hk, -⟩
        exact ⟨payload, hk, trivial⟩
    · rintro v ⟨_, ⟨⟩, hk⟩
      exact hk
  · rintro e v ⟨_, ⟨⟩, -⟩

/-- A call that is not given to a tool settles nothing and sends nothing. -/
theorem triple_call (hK : Stable L t o K) {name : String} {args : Dict} {F : Except BrokerError Json → Seen → Prop}
    (hF : ∀ r v, K v → F r v)
    (htool : ∀ tool arguments, tool? (.str name) = some tool → tool.validate (.obj args) = some arguments →
      Triple L t o K (callTool P (broker contract o) options tool arguments) F) :
    Triple L t o K (call P (broker contract o) options name args) F := by
  have hrecord : ∀ {source payload}, Triple L t o K (record P options source payload) F :=
    (triple_record hK).mono (fun _ h => h) fun r v h => hF r v h.1
  refine .bind (F := fun _ v => K v) ((triple_read hK rfl).mono (fun _ h => h) fun _ _ h => h.1) (fun tools => ?_)
    fun _ _ h => hF _ _ h
  split
  · exact .ask fun _ => .done fun _ h => hF _ _ h
  refine .bind (triple_setTools hK rfl) (fun _ => ?_) fun _ _ h => hF _ _ h
  unfold openCall
  cases hname : tool? (.str name) with
  | none => exact hrecord
  | some tool =>
      dsimp only
      cases harguments : tool.validate (.obj args) with
      | none => exact hrecord
      | some arguments =>
          dsimp only
          cases refusal? options tools arguments with
          | some error => exact hrecord
          | none => exact htool tool arguments hname harguments

theorem triple_call_other (hK : Stable L t o K) {name : String} {args : Dict} (hname : name ≠ "propose_repair") :
    Triple L t o K (call P (broker contract o) options name args) fun _ v => K v := by
  refine triple_call hK (fun _ _ h => h) fun tool arguments htool harguments => ?_
  have hother : ∀ p, arguments ≠ .proposal p := by
    rintro p rfl
    have hfound := List.find?_some (p := fun tool : Tool => decide (tool.name = name)) htool
    have heq : tool.name = name := of_decide_eq_true hfound
    cases tool with
    | proposeRepair => exact hname heq.symm
    | getOperation | finish => simp [Tool.validate] at harguments
    | _ => simp [Tool.validate] at harguments
  refine (triple_callTool (K := fun _ => K) (fun _ => hK) (triple_execute hK hother)).mono (fun _ h => h) ?_
  rintro r v ⟨payload, h, -⟩
  exact h

/-! ## Proposals -/

/-- The observation says that an operation is rejected. -/
def Rejects (observation : Json) : Prop := member "status" (payloadOf observation) = .str "rejected"

theorem nodup_operationPayload {createdAt updatedAt : String} {operation : Journal.Operation} :
    ((operationPayload createdAt updatedAt operation).map Prod.fst).Nodup := by
  unfold operationPayload
  cases operation.journalStatus with
  | none => simp
  | some s => simp

theorem nodup_outcomePayload {outcome : Except Toolbox.Refusal Dict}
    (h : ∀ payload, outcome = .ok payload → (payload.map Prod.fst).Nodup) :
    ((outcomePayload outcome).map Prod.fst).Nodup := by
  cases outcome with
  | ok payload => exact h payload rfl
  | error refusal =>
      cases refusal with
      | operationConflict => simp [outcomePayload, errorPayload]
      | other name => simp [outcomePayload, errorPayload]

/-- An operation whose payload says that it is rejected is shown as rejected. -/
theorem status_of_payload {createdAt updatedAt : String} {operation : Journal.Operation}
    (h : (operationPayload createdAt updatedAt operation).lookup "status" = some (.str "rejected")) :
    operation.status = .rejected := by
  have htext : some (Json.str operation.status.text) = some (.str "rejected") := h
  revert htext
  cases operation.status with
  | rejected => exact fun _ => rfl
  | _ => exact fun h => absurd (Json.str.inj (Option.some.inj h)) (by decide)

/-- A payload that says that an operation is rejected is no error. -/
theorem exists_of_outcomePayload {outcome : Except BrokerError Dict}
    (h : (outcomePayload (outcome.mapError refusalOf)).lookup "status" = some (.str "rejected")) :
    ∃ payload, outcome = .ok payload := by
  cases outcome with
  | ok payload => exact ⟨payload, rfl⟩
  | error e => cases e <;> cases h

/-- **After a proposal that was made where everything was settled, everything is settled again if
the answer says that it was rejected.** -/
theorem triple_call_propose {args : Dict} :
    Triple (logic P contract j₀) t o (Held True) (call P (broker contract o) options "propose_repair" args)
      fun r v => Held False v ∧ Returns (fun observation v => Rejects observation → Clear v.world.journal) r v := by
  refine triple_call stable_held (fun r v h => ⟨⟨h.careful, by rintro ⟨⟩⟩, ?_⟩) fun tool arguments htool harguments => ?_
  · cases r with
    | ok _ => exact fun _ => h.clear trivial
    | error _ => trivial
  obtain rfl : Tool.proposeRepair = tool := Option.some.inj htool
  obtain ⟨p, -, rfl⟩ := Option.map_eq_some_iff.1 harguments
  refine .mono (triple_callTool (A := Held True) (K := fun payload v => Held (payload.lookup "status" = some (.str "rejected")) v ∧
    (payload.map Prod.fst).Nodup) ?_ ?_) (fun _ h => h) ?_
  · rintro payload v l w ⟨h, hnodup⟩ hcalm
    obtain ⟨hpoint, h⟩ := stable_held v l w h hcalm
    exact ⟨hpoint, h, hnodup⟩
  · refine .mono (A := Alone p.operationId.1) (F := fun r v => Alone p.operationId.1 v ∧
      Returns (fun payload v => ∃ createdAt updatedAt operation,
        payload = operationPayload createdAt updatedAt operation ∧ Shows p.operationId.1 operation v) r v) ?_ ?_ ?_
    · refine .bind triple_propose (fun operation => ?_) fun _ _ h => ⟨h.1, trivial⟩
      refine (triple_operationOf (L := logic P contract j₀)).mono (fun _ h => h) fun r v h => ⟨h.1.1, ?_⟩
      cases r with
      | error _ => trivial
      | ok payload =>
          obtain ⟨createdAt, updatedAt, hpayload⟩ := h.2
          exact ⟨createdAt, updatedAt, operation, hpayload, h.1.2⟩
    · exact fun v h => ⟨h.careful, fun k _ => h.clear trivial k⟩
    · rintro r v ⟨h, hr⟩
      refine ⟨⟨h.careful, fun hrejected => ?_⟩, nodup_outcomePayload fun payload hpayload => ?_⟩
      · obtain ⟨payload, rfl⟩ := exists_of_outcomePayload hrejected
        obtain ⟨createdAt, updatedAt, operation, rfl, hshows⟩ := hr
        exact h.clear.clear (resolved_of_rejected (hshows (status_of_payload hrejected)))
      · cases r with
        | error _ => cases hpayload
        | ok _ =>
            obtain ⟨createdAt, updatedAt, operation, rfl, -⟩ := hr
            cases hpayload
            exact nodup_operationPayload
  · rintro r v ⟨payload, ⟨h, hnodup⟩, hr⟩
    refine ⟨⟨h.careful, by rintro ⟨⟩⟩, ?_⟩
    cases r with
    | error _ => trivial
    | ok observation => exact fun hrejects => h.clear (hr.status hnodup hrejects)

end

/-! ## The runbook -/

/-- After `log`, a proposal may still be made. -/
def MayPropose (log : Log) : Prop :=
  proposals log = 0 ∨ proposals log = 1 ∧
    ∃ args observation, ⟨.call "propose_repair" args, observation⟩ ∈ log ∧ Rejects observation

section
variable {decisions : Runbook.Decisions} {log : Log} {args : Dict}

/-- The runbook makes a proposal only where it may. -/
theorem mayPropose_of_permitted (h : Permitted decisions log (.call "propose_repair" args)) : MayPropose log := by
  generalize hq : Query.call "propose_repair" args = q at h
  cases h with
  | first hfirst => exact .inl (proposals_of_first hfirst)
  | second hsecond =>
      refine .inr ⟨proposals_of_second hsecond, ?_⟩
      obtain ⟨original, operation, observed, backend, application, scope, b, operationId, earlier, rfl, -, -,
        hrejection, -⟩ := hsecond
      exact ⟨original, operation, by simp, hrejection.status⟩
  | look hname =>
      cases hq
      exact absurd hname (by decide)
  | terminal | callCount | uuid4 => cases hq
  | lookup _ _ | escalated _ | healthy _ _ | resolved _ _ => exact absurd (Query.call.inj hq).1 (by decide)

theorem mayPropose_of_cons {q : Query} {a : q.Answer} (hq : q.isProposal = false)
    (h : MayPropose (⟨q, a⟩ :: log)) : MayPropose log := by
  unfold MayPropose at h ⊢
  rw [proposals_cons] at h
  simp only [hq, Bool.false_eq_true, if_false, Nat.add_zero] at h
  refine h.imp_right ?_
  rintro ⟨hone, args, observation, hmem, hrejects⟩
  refine ⟨hone, args, observation, ?_, hrejects⟩
  rcases List.mem_cons.1 hmem with heq | hmem
  · cases heq
    cases hq
  · exact hmem

/-- After a proposal, another may be made only if the answer says that it was rejected. -/
theorem rejects_of_mayPropose {observation : Json}
    (h : MayPropose (⟨.call "propose_repair" args, observation⟩ :: log)) : Rejects observation := by
  have hcount : proposals (⟨.call "propose_repair" args, observation⟩ :: log) = proposals log + 1 := proposals_cons _ _
  unfold MayPropose at h
  rw [hcount] at h
  obtain h | ⟨hone, args', observation', hmem, hrejects⟩ := h
  · exact absurd h (Nat.succ_ne_zero _)
  rcases List.mem_cons.1 hmem with heq | hmem
  · cases heq
    exact hrejects
  · have hpos : 0 < proposals log := List.countP_pos_iff.2 ⟨_, hmem, rfl⟩
    omega

end

section
variable {P : Toolbox.Platform} {contract : Contract} {j₀ : Journal} {t : ℕ} {o : String} {v : Seen}
  {options : Options} {decisions : Runbook.Decisions}

/-- What is known once the question `q` is answered. -/
def Answered (log : Log) (q : Query) : Except BrokerError q.Answer → Seen → Prop
  | .ok a, v => Held (MayPropose (⟨q, a⟩ :: log)) v
  | .error _, v => Held False v

theorem Held.weaken {φ : Prop} (h : Held φ v) : Held False v := ⟨h.careful, by rintro ⟨⟩⟩

/-- An answer of the tools leaves everything settled where a proposal may still be made. -/
theorem keeps_answer {log : Log} {q : Query} (hq : Allowed decisions log q) (h : Held (MayPropose log) v) :
    keeps (logic P contract j₀) t o (answer P (broker contract o) options q) (Answered log q) v := by
  have hother : ∀ {p : Program q.Answer}, q.isProposal = false →
      Triple (logic P contract j₀) t o (Held (MayPropose log)) p (fun _ u => Held (MayPropose log) u) →
      keeps (logic P contract j₀) t o p (Answered log q) v := by
    intro p hq hp
    refine keeps_mono (hp v h) ?_
    rintro (e | a) u hu
    · exact hu.weaken
    · exact ⟨hu.careful, fun hmay => hu.clear (mayPropose_of_cons hq hmay)⟩
  cases q with
  | terminal | callCount => exact hother rfl ((triple_read stable_held rfl).mono (fun _ h => h) fun _ _ h => h.1)
  | uuid4 => exact hother rfl (.choose fun _ => .done fun _ h => h)
  | call name args =>
      by_cases hname : name = "propose_repair"
      · subst hname
        have hclear := h.clear (mayPropose_of_permitted hq.1)
        refine keeps_mono (triple_call_propose v ⟨h.careful, fun _ => hclear⟩) ?_
        rintro (e | observation) u ⟨hu, hr⟩
        · exact hu
        · exact ⟨hu.careful, fun hmay => hr (rejects_of_mayPropose hmay)⟩
      · exact hother (decide_eq_false hname) (triple_call_other stable_held hname)

theorem exists_decisions (contract : Contract) : ∃ decisions, runbook contract = Runbook.execute decisions := by
  unfold runbook Runbook.run
  cases contract.procedureProgram with
  | some decisions => exact ⟨decisions, rfl⟩
  | none => exact ⟨_, rfl⟩

theorem triple_checkFresh : Triple (logic P contract j₀) t o (Held True) checkFresh fun _ v => Held True v := by
  refine .bind triple_asked (fun _ => ?_) fun _ _ h => h
  refine .bind (F := fun _ v => Held True v) ((triple_read stable_held rfl).mono (fun _ h => h) fun _ _ h => h.1)
    (fun tools => ?_) fun _ _ h => h
  split
  · exact .fail fun _ h => h
  · exact .done fun _ h => h

/-- **The acts of an episode are careful**, if everything is settled when it begins. -/
theorem triple_episode :
    Triple (logic P contract j₀) t o (Held True) (episode P contract o) fun _ v => Held False v := by
  obtain ⟨decisions, hrunbook⟩ := exists_decisions contract
  have hrun : Triple (logic P contract j₀) t o (Held True) (Dialogue.perform (answer P (broker contract o)
      (Campaign.options contract)) .python (runbook contract [])) fun _ v => Held False v := by
    intro v h
    rw [hrunbook]
    refine keeps_perform (I := fun log u => Held (MayPropose log) u) goes_execute ⟨h.careful, fun _ => h.clear trivial⟩
      (fun log q u hq hu => ?_) (fun _ _ u _ hu => hu.weaken) (fun _ _ u _ hu => hu.weaken)
    refine keeps_mono (keeps_answer hq hu) ?_
    rintro (e | a) w hw
    · exact hw
    · exact hw
  have hafter : Triple (logic P contract j₀) t o (Held True) ((Dialogue.perform (answer P (broker contract o)
      (Campaign.options contract)) .python (runbook contract [])).bind fun outcome => .done outcome.1)
      fun _ v => Held False v := .bind hrun (fun _ => .done fun _ h => h) fun _ _ h => h
  unfold episode
  split
  · exact .bind triple_checkFresh (fun _ => hafter) fun _ _ h => h.weaken
  · exact hafter

end

end AutonomyLab.Campaign
