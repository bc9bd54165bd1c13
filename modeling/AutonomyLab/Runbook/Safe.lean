import AutonomyLab.Runbook.Program

/-!
# What the runbook may do

Whatever its tools answer, the runbook proposes a repair only for a fault it has seen, once more
only after the API has refused the first proposal and with a second look at the same fault, and
claims success only on an independent verification it has just been given.

* `Log`, `evidenceOf` — what has been asked and answered, and the evidence issued by it.
* `FirstProposal`, `SecondProposal`, `Healthy`, `Resolved` — what must have been observed.
* `Permitted` — what may be asked for after a log.
* `runbook_safe` — nothing else is.
-/

namespace AutonomyLab.Runbook

open Json Process

/-! ## Logs -/

/-- What has been asked and answered, latest first. -/
abbrev Log := Dialogue.Log Query Query.Answer

/-- `observation["payload"]`. -/
def payloadOf (observation : Json) : Json := member "payload" observation

/-- The identifiers that the observations of a log may be cited under, in their order. -/
def evidenceOf : Log → List String
  | [] => []
  | ⟨.call _ _, observation⟩ :: log =>
      evidenceOf log ++ ((issued observation).toOption.join).toList
  | ⟨.terminal, _⟩ :: log | ⟨.callCount, _⟩ :: log | ⟨.uuid4, _⟩ :: log => evidenceOf log

/-- A question by which a proposal is made. -/
def Query.isProposal : Query → Bool
  | .call name _ => name = "propose_repair"
  | _ => false

/-- A question by which a claim is made. -/
def Query.isFinish : Query → Bool
  | .call name _ => name = "finish"
  | _ => false

/-- The number of proposals made. -/
def proposals (log : Log) : ℕ := log.countP fun x => x.1.isProposal

/-- A claim has been made. -/
def finished (log : Log) : Bool := log.any fun x => x.1.isFinish

/-- The arguments of the last proposal. -/
def lastProposal : Log → Option Dict
  | [] => none
  | ⟨.call name args, _⟩ :: log => if name = "propose_repair" then some args else lastProposal log
  | ⟨.terminal, _⟩ :: log | ⟨.callCount, _⟩ :: log | ⟨.uuid4, _⟩ :: log => lastProposal log

/-- The exchanges of the initial look. -/
def firstLook (service backend application : Json) : Log :=
  [⟨.call "probe_application" [], application⟩, ⟨.call "probe_backend" [], backend⟩,
    ⟨.call "observe_service" [], service⟩, ⟨.callCount, (0 : ℕ)⟩, ⟨.terminal, (none : Option Dict)⟩]

/-! ## What must have been observed -/

/-- The Service is in scope and the backend works, but the route to it is wrong. -/
structure Misrouted (service backend application : Json) (scope : Scope) (b : Backend) : Prop where
  scope_eq : serviceScope (payloadOf service) = .ok (some scope)
  backend_eq : backend? (payloadOf backend) = .ok (some b)
  application_ne : applicationMatches (payloadOf application) b = .ok false
  port_ne : scope.targetPort ≠ b.backendPort

/-- After a log, a first proposal with the given arguments. -/
def FirstProposal (decisions : Decisions) (log : Log) (args : Dict) : Prop :=
  ∃ service backend application scope b runId operationId,
    log = ⟨.uuid4, operationId⟩ :: firstLook service backend application ∧
    Misrouted service backend application scope b ∧ decisions.repairableRouting = .repair ∧
    subscript "run_id" (payloadOf service) = .ok runId ∧
    args = proposal runId operationId scope b (evidenceOf log)

/-- The answer to a proposal says that the API has refused it, and that there is budget left. -/
structure Rejection (original : Dict) (operation : Json) : Prop where
  status : member "status" operation = .str "rejected"
  reason : member "reason" operation = .str "api_rejected_409" ∨
    member "reason" operation = .str "api_rejected_422"
  operationId : PyEq (member "operation_id" operation) (memberOf original "operation_id")
  request : PyEq (member "request" operation) (.obj original)
  unresolved : member "result" operation = .null ∧ member "reconciliation" operation = .null ∧
    member "journal_status" operation = .null
  reserved : member "budget_reserved" operation = .bool true
  budget : ∃ used limit : ℤ, member "budget_used" operation = .int used ∧
    member "budget_limit" operation = .int limit ∧ 1 ≤ used ∧ used < limit

/-- The second look shows the same Service under another version, with the same fault. -/
structure SameFault (original : Dict) (observed backend application : Json) (scope : Scope) (b : Backend) :
    Prop where
  scope_eq : serviceScope (payloadOf observed) = .ok (some scope)
  backend_eq : backend? (payloadOf backend) = .ok (some b)
  run : PyEq (member "run_id" (payloadOf observed)) (memberOf original "run_id")
  service : memberOf original "namespace" = .str scope.ns ∧
    memberOf original "service_name" = .str "inventory" ∧ memberOf original "service_uid" = .str scope.uid
  version : memberOf original "resource_version" ≠ .str scope.resourceVersion
  ports : PyEq (memberOf original "expected_target_port") (.int scope.targetPort) ∧
    PyEq (memberOf original "target_port") (.int b.backendPort) ∧ scope.targetPort ≠ b.backendPort
  unavailable : isUnavailable (payloadOf application) = .ok true

/-- After a log, a second proposal with the given arguments. -/
def SecondProposal (decisions : Decisions) (log : Log) (args : Dict) : Prop :=
  ∃ original operation observed backend application scope b operationId earlier,
    log = ⟨.uuid4, operationId⟩ :: ⟨.call "probe_application" [], application⟩ ::
      ⟨.call "probe_backend" [], backend⟩ :: ⟨.call "observe_service" [], observed⟩ ::
      ⟨.call "propose_repair" original, operation⟩ :: earlier ∧
    FirstProposal decisions earlier original ∧ decisions.conditionalRejection = .refresh ∧
    Rejection original (payloadOf operation) ∧ SameFault original observed backend application scope b ∧
    args = refreshed original operationId scope.resourceVersion (evidenceOf log)

/-- The last observation is an independent verification. -/
def Verified (log earlier : Log) : Prop :=
  ∃ verification, log = ⟨.call "verify_recovery" [], verification⟩ :: earlier ∧
    verified (payloadOf verification) = .ok true

/-- Health is verified without a proposal. -/
def Healthy (log : Log) : Prop := ∃ earlier, Verified log earlier ∧ proposals earlier = 0

/-- The operation is acknowledged, or its state is there though it is not known by whom. -/
def Settles (operation : Json) : Prop :=
  member "status" operation = .str "acknowledged" ∨ member "status" operation = .str "uncertain" ∧
    member "observation" (member "reconciliation" operation) = .str "desired_state_observed"

/-- The last answer about an operation settles it, and then recovery is verified. -/
def Resolved (log : Log) : Prop :=
  ∃ name args operation earlier, Verified log (⟨.call name args, operation⟩ :: earlier) ∧
    (name = "propose_repair" ∨ name = "get_operation") ∧ Settles (payloadOf operation)

/-- The tools that only look. -/
def looks : List String := ["observe_service", "probe_backend", "probe_application", "verify_recovery"]

/-- The arguments of a claim that cites all the evidence of a log. -/
def claimArgs (outcome reason : String) (log : Log) : Dict :=
  [("outcome", .str outcome), ("reason", .str reason), ("evidence_ids", cited (evidenceOf log))]

/-- What may be asked for after a log. -/
inductive Permitted (decisions : Decisions) (log : Log) : Query → Prop
  | terminal : Permitted decisions log .terminal
  | callCount : Permitted decisions log .callCount
  | uuid4 : Permitted decisions log .uuid4
  | look {name} : name ∈ looks → Permitted decisions log (.call name [])
  | first {args} : FirstProposal decisions log args → Permitted decisions log (.call "propose_repair" args)
  | second {args} : SecondProposal decisions log args → Permitted decisions log (.call "propose_repair" args)
  | lookup {args operationId} : lastProposal log = some args → args.lookup "operation_id" = some operationId →
      Permitted decisions log (.call "get_operation" [("operation_id", operationId)])
  | escalated (reason : String) :
      Permitted decisions log (.call "finish" (claimArgs "escalated" reason log))
  | healthy (reason : String) : Healthy log →
      Permitted decisions log (.call "finish" (claimArgs "healthy" reason log))
  | resolved (reason : String) : Resolved log →
      Permitted decisions log (.call "finish" (claimArgs "resolved" reason log))

/-- The runbook ends with what the tools hold as the claim, or else with the answer to its own. -/
def Concluded (log : Log) (value : Json) : Prop :=
  (∃ claim : Dict, log = [⟨.terminal, some claim⟩] ∧ value = .obj claim) ∨
    ∃ (claim : Option Dict) (args : Dict) (result : Json) (earlier : Log),
      log = ⟨.terminal, claim⟩ :: ⟨.call "finish" args, result⟩ :: earlier ∧
      value = (claim.map .obj).getD (payloadOf result)

/-! ## Rules -/

/-- A question is permitted, and nothing but the claim is asked for once one is made. -/
def Allowed (decisions : Decisions) (log : Log) (q : Query) : Prop :=
  Permitted decisions log q ∧ (finished log = true → q = .terminal)

/-- After `log`, with the evidence issued so far in memory, `p` asks for nothing but what is
allowed, and ends so that `Post` holds. -/
def Goes {α : Type} (decisions : Decisions) (p : Program α) (log : Log) (Post : α → Log → Prop) : Prop :=
  (p (evidenceOf log)).keeps (Allowed decisions) (fun r log => match r with
    | .ok a => a.2 = evidenceOf log ∧ Post a.1 log
    | .error _ => True) log

variable {decisions : Decisions} {log earlier : Log} {α β : Type} {Post : β → Log → Prop} {name : String}
  {args original : Dict} {observation operation service backend application : Json} {scope : Scope}
  {b : Backend} {operationId : String}

theorem goes_pure {a : β} (h : Post a log) : Goes decisions (pure a) log Post := ⟨rfl, h⟩

theorem goes_bind {p : Program α} {k : α → Program β} {Mid : α → Log → Prop}
    (hp : Goes decisions p log Mid) (hk : ∀ a log, Mid a log → Goes decisions (k a) log Post) :
    Goes decisions (p >>= k) log Post := by
  refine Dialogue.keeps_bind (Dialogue.keeps_mono hp ?_)
  rintro (e | a) log' h
  · exact h
  · obtain ⟨hevidence, hmid⟩ := h
    show ((k a.1) a.2).keeps _ _ log'
    rw [hevidence]
    exact hk a.1 log' hmid

theorem goes_ofPy {r : Except PyError α} {k : α → Program β}
    (h : ∀ a, r = .ok a → Goes decisions (k a) log Post) : Goes decisions (ofPy r >>= k) log Post := by
  cases r with
  | ok a => exact h a rfl
  | error e => trivial

theorem goes_get {k : List String → Program β} (h : Goes decisions (k (evidenceOf log)) log Post) :
    Goes decisions (get >>= k) log Post := h

theorem goes_terminal {k : Option Dict → Program β}
    (h : ∀ claim, Goes decisions (k claim) (⟨.terminal, claim⟩ :: log) Post) :
    Goes decisions (query .terminal >>= k) log Post := ⟨⟨.terminal, fun _ => rfl⟩, h⟩

theorem goes_callCount {k : ℕ → Program β} (hopen : finished log = false)
    (h : ∀ n : ℕ, Goes decisions (k n) (⟨.callCount, n⟩ :: log) Post) :
    Goes decisions (query .callCount >>= k) log Post := by
  refine ⟨⟨.callCount, fun hf => ?_⟩, h⟩
  cases hopen.symm.trans hf

theorem goes_uuid4 {k : String → Program β} (hopen : finished log = false)
    (h : ∀ id : String, Goes decisions (k id) (⟨.uuid4, id⟩ :: log) Post) :
    Goes decisions (query .uuid4 >>= k) log Post := by
  refine ⟨⟨.uuid4, fun hf => ?_⟩, h⟩
  cases hopen.symm.trans hf

theorem keeps_receive {evidence : List String} {P : Log → Query → Prop}
    {R : Except PyError (Json × List String) → Log → Prop} (herror : ∀ e, R (.error e) log)
    (hok : ∀ id, issued observation = .ok id →
      R (.ok (payloadOf observation, evidence ++ id.toList)) log) :
    (receive observation evidence).keeps P R log := by
  unfold receive
  cases hissued : issued observation with
  | error e => exact herror e
  | ok id =>
      cases hpayload : subscript "payload" observation with
      | error e => exact herror e
      | ok payload =>
          obtain rfl := subscript_eq_member hpayload
          exact hok id hissued

/-- A call that is permitted. -/
theorem goes_call_only {Post : Json → Log → Prop} (hopen : finished log = false)
    (hP : Permitted decisions log (.call name args))
    (h : ∀ observation : Json, Post (payloadOf observation) (⟨.call name args, observation⟩ :: log)) :
    Goes decisions (call name args) log Post := by
  refine ⟨⟨hP, fun hf => ?_⟩, fun observation => keeps_receive (fun _ => trivial) fun id hid => ?_⟩
  · cases hopen.symm.trans hf
  · refine ⟨?_, h observation⟩
    rw [evidenceOf, hid]
    rfl

/-- A call, and what is done with the payload it is answered with. -/
theorem goes_call {k : Json → Program β} (hopen : finished log = false)
    (hP : Permitted decisions log (.call name args))
    (h : ∀ observation : Json,
      Goes decisions (k (payloadOf observation)) (⟨.call name args, observation⟩ :: log) Post) :
    Goes decisions (call name args >>= k) log Post := by
  have hcall : Goes decisions (call name args) log fun payload log' => Goes decisions (k payload) log' Post :=
    goes_call_only hopen hP h
  exact goes_bind hcall fun _ _ hk => hk

theorem goes_finish {outcome reason : String} (hopen : finished log = false)
    (hP : Permitted decisions log (.call "finish" (claimArgs outcome reason log))) :
    Goes decisions (finish outcome reason) log fun value log' => Concluded log' value := by
  refine goes_get (goes_call hopen hP fun observation => goes_terminal fun claim => ?_)
  have hconcluded : ∀ value, value = (claim.map Json.obj).getD (payloadOf observation) →
      Concluded (⟨.terminal, claim⟩ :: ⟨.call "finish" (claimArgs outcome reason log), observation⟩ :: log) value :=
    fun value h => .inr ⟨claim, _, observation, log, rfl, h⟩
  cases claim with
  | none => exact goes_pure (hconcluded _ rfl)
  | some claim => exact goes_pure (hconcluded _ rfl)

theorem open_call {log : Log} (args : Dict) (observation : Json) (hname : name ≠ "finish") (hopen : finished log = false) :
    finished (⟨.call name args, observation⟩ :: log) = false := by
  show (decide (name = "finish") || finished log) = false
  rw [hopen, decide_eq_false hname]
  rfl

/-! ## Claims -/

/-- The last answer is about an operation, and settles it. -/
def Settled (log : Log) : Prop :=
  ∃ name args operation earlier, log = ⟨.call name args, operation⟩ :: earlier ∧
    (name = "propose_repair" ∨ name = "get_operation") ∧ Settles (payloadOf operation)

theorem goes_confirm (isUncertain : Bool) (hopen : finished log = false) (hsettled : Settled log) :
    Goes decisions (confirm isUncertain) log fun value log' => Concluded log' value := by
  refine goes_call hopen (.look (by decide)) fun verification => goes_ofPy fun success hsuccess => ?_
  have hopen := open_call [] verification (by decide : "verify_recovery" ≠ "finish") hopen
  cases success with
  | false => exact goes_finish hopen (.escalated _)
  | true =>
      obtain ⟨name, args, operation, earlier, rfl, hname, hsettles⟩ := hsettled
      exact goes_finish hopen (.resolved _ ⟨name, args, operation, earlier, ⟨verification, rfl, hsuccess⟩,
        hname, hsettles⟩)

theorem settles_of_uncertain (h : uncertainDesired operation = .ok true) : Settles operation := by
  obtain ⟨status, hstatus, h⟩ := bind_eq_ok.1 h
  split at h
  · cases h
  · rename_i huncertain
    obtain ⟨reconciliation, hreconciliation, h⟩ := bind_eq_ok.1 h
    obtain ⟨value, hvalue, h⟩ := bind_eq_ok.1 h
    have hdesired : value = .str "desired_state_observed" := pyEq_str_iff.1 (of_decide_eq_true (Except.ok.inj h))
    obtain rfl := get_eq_member hstatus
    obtain rfl := get_eq_member hreconciliation
    refine .inr ⟨pyEq_str_iff.1 (by simpa using huncertain), ?_⟩
    split at hvalue
    · exact (get_eq_member hvalue).symm.trans hdesired
    · cases hvalue
      cases hdesired

/-- An operation whose status is that of a rejection settles nothing. -/
theorem not_settles_of_rejected (h : member "status" operation = .str "rejected") : ¬Settles operation := by
  rintro (hs | ⟨hs, -⟩)
  · exact absurd (Json.str.inj (h.symm.trans hs)) (by decide)
  · exact absurd (Json.str.inj (h.symm.trans hs)) (by decide)

/-- The last proposal is looked at, and claimed for what it is. -/
theorem goes_inspect (hopen : finished log = false) (hlast : lastProposal log = some original)
    (hid : original.lookup "operation_id" = some (.str operationId))
    (hoperation : (∃ args observation earlier, log = ⟨.call "propose_repair" args, observation⟩ :: earlier ∧
      operation = payloadOf observation) ∨ member "status" operation = .str "rejected") :
    Goes decisions (inspect operationId operation) log fun value log' => Concluded log' value := by
  have hlook : Goes decisions (lookAgain operationId operation) log fun operation log =>
      finished log = false ∧ (Settles operation → Settled log) := by
    refine goes_ofPy fun isOpen _ => ?_
    cases isOpen with
    | false =>
        refine goes_pure ⟨hopen, fun hsettles => ?_⟩
        rcases hoperation with ⟨args, observation, earlier, rfl, rfl⟩ | hrejected
        · exact ⟨_, args, observation, earlier, rfl, .inl rfl, hsettles⟩
        · exact absurd hsettles (not_settles_of_rejected hrejected)
    | true =>
        refine goes_call_only hopen (.lookup hlast hid) fun observation => ?_
        refine ⟨open_call _ _ (by decide) hopen, fun hsettles => ?_⟩
        exact ⟨_, _, observation, log, rfl, .inr rfl, hsettles⟩
  refine goes_bind hlook ?_
  rintro operation log ⟨hopen, hsettled⟩
  refine goes_ofPy fun isUncertain huncertain => goes_ofPy fun status hstatus => ?_
  obtain rfl := get_eq_member hstatus
  split
  · exact goes_finish hopen (.escalated _)
  · rename_i hother
    refine goes_confirm isUncertain hopen (hsettled ?_)
    rw [Bool.and_eq_true, not_and, Bool.not_eq_true', Bool.not_eq_true', Bool.not_eq_false,
      decide_eq_false_iff_not, pyEq_str_iff] at hother
    by_cases hack : member "status" operation = .str "acknowledged"
    · exact .inl hack
    · rw [hother hack] at huncertain
      exact settles_of_uncertain huncertain

/-! ## Proposals -/

theorem isText_iff {fs : Dict} {key text : String} : isText fs key text = true ↔ memberOf fs key = .str text := by
  unfold isText memberOf
  rw [decide_eq_true_iff, pyEq_str_iff]

theorem rejection_of_isRejection (h : isRejection original operation = .ok true) :
    Rejection original operation := by
  unfold isRejection at h
  cases operation with
  | obj fs =>
      simp only at h
      split at h
      · cases h
      split at h
      · cases h
      rename_i hstatus
      obtain ⟨known, hknown, h⟩ := bind_eq_ok.1 h
      split at h
      · cases h
      rename_i hreason
      split at h
      · cases h
      rename_i hsame
      split at h
      · cases h
      rename_i hunresolved
      obtain rfl : known = true := by simpa using hreason
      simp only [Bool.not_eq_true', Bool.not_eq_false, Bool.or_eq_true, not_or, decide_eq_false_iff_not,
        not_not, decide_eq_true_iff] at hstatus hsame hunresolved
      obtain ⟨⟨hid, -⟩, hrequest⟩ := hsame
      obtain ⟨⟨⟨hresult, hreconciliation⟩, hjournal⟩, hreserved⟩ := hunresolved
      refine ⟨isText_iff.1 hstatus, ?_, hid, hrequest, ⟨hresult, hreconciliation, hjournal⟩, hreserved, ?_⟩
      · rw [member_obj]
        change memberOf fs "reason" = _ ∨ memberOf fs "reason" = _
        unfold inSet at hknown
        split at hknown
        · cases hknown
        · cases hknown
        · rename_i reason heq
          rw [heq]
          simpa using Except.ok.inj hknown
        · cases hknown
      · split at h
        · rename_i used limit hused hlimit
          have hbudget := Except.ok.inj h
          rw [Bool.and_eq_true, decide_eq_true_iff, decide_eq_true_iff] at hbudget
          exact ⟨used, limit, hused, hlimit, hbudget⟩
        · cases h
  | _ => cases h

theorem sameFault_of_isSameFault {observed : Json} (hscope : serviceScope (payloadOf observed) = .ok (some scope))
    (hbackend : backend? (payloadOf backend) = .ok (some b))
    (h : isSameFault original (payloadOf observed) scope b = .ok true)
    (hunavailable : isUnavailable (payloadOf application) = .ok true) :
    SameFault original observed backend application scope b := by
  obtain ⟨runId, hrun, h⟩ := bind_eq_ok.1 h
  have hall := Except.ok.inj h
  simp only [Bool.and_eq_true, decide_eq_true_iff, Bool.not_eq_true', decide_eq_false_iff_not] at hall
  obtain ⟨⟨⟨⟨⟨⟨⟨hrunId, hns⟩, hname⟩, huid⟩, hversion⟩, hexpected⟩, htarget⟩, hport⟩ := hall
  obtain rfl := get_eq_member hrun
  refine ⟨hscope, hbackend, hrunId, ⟨pyEq_str_iff.1 hns.symm, pyEq_str_iff.1 hname.symm,
    pyEq_str_iff.1 huid.symm⟩, ?_, ⟨hexpected.symm, htarget.symm, hport⟩, hunavailable⟩
  intro hsame
  exact hversion (by rw [hsame])

theorem lookup_refreshed {resourceVersion : String} {evidence : List String} :
    (refreshed original operationId resourceVersion evidence).lookup "operation_id" = some (.str operationId) := by
  unfold refreshed
  rw [lookup_setField, if_neg (by decide), lookup_setField, if_neg (by decide), lookup_setField, if_pos rfl]

theorem goes_refreshProposal (hopen : finished log = false)
    (hlog : log = ⟨.call "propose_repair" original, observation⟩ :: earlier)
    (hfirst : FirstProposal decisions earlier original) (hrefresh : decisions.conditionalRejection = .refresh) :
    Goes decisions (refreshProposal original (payloadOf observation)) log fun result log' =>
      finished log' = false ∧
        (result = none → lastProposal log' = some original ∧
          (log' = log ∨ member "status" (payloadOf observation) = .str "rejected")) ∧
        ∀ id again, result = some (id, again) → SecondProposal decisions log' again ∧
          again.lookup "operation_id" = some (.str id) := by
  have hlast : lastProposal log = some original := by rw [hlog]; rfl
  refine goes_ofPy fun rejected hrejected => ?_
  cases rejected with
  | false =>
      refine goes_pure ⟨hopen, fun _ => ⟨hlast, .inl rfl⟩, ?_⟩
      rintro id again ⟨⟩
  | true =>
      have hrejection := rejection_of_isRejection hrejected
      refine goes_get (goes_call hopen (.look (by decide)) fun observed => ?_)
      have hopen := open_call [] observed (by decide : "observe_service" ≠ "finish") hopen
      refine goes_call hopen (.look (by decide)) fun backend => ?_
      have hopen := open_call [] backend (by decide : "probe_backend" ≠ "finish") hopen
      refine goes_call hopen (.look (by decide)) fun application => ?_
      have hopen := open_call [] application (by decide : "probe_application" ≠ "finish") hopen
      -- wherever the second look falls short, the first operation stays
      have hnone : Goes decisions (pure none) (⟨.call "probe_application" [], application⟩ ::
          ⟨.call "probe_backend" [], backend⟩ :: ⟨.call "observe_service" [], observed⟩ :: log)
          fun (result : Option (String × Dict)) log' => finished log' = false ∧
            (result = none → lastProposal log' = some original ∧
              (log' = log ∨ member "status" (payloadOf observation) = .str "rejected")) ∧
            ∀ id again, result = some (id, again) → SecondProposal decisions log' again ∧
              again.lookup "operation_id" = some (.str id) := by
        refine goes_pure ⟨hopen, fun _ => ⟨hlast, .inr hrejection.status⟩, ?_⟩
        rintro id again ⟨⟩
      refine goes_ofPy fun scope hscope => goes_get ?_
      split
      · exact hnone
      cases scope with
      | none => exact hnone
      | some scope =>
          refine goes_ofPy fun b hbackend => ?_
          cases b with
          | none => exact hnone
          | some b =>
              refine goes_ofPy fun same hsame => ?_
              cases same with
              | false => exact hnone
              | true =>
                  refine goes_ofPy fun unavailable hunavailable => ?_
                  cases unavailable with
                  | false => exact hnone
                  | true =>
                      refine goes_uuid4 hopen fun operationId => goes_get (goes_pure ⟨hopen, ?_, ?_⟩)
                      · rintro ⟨⟩
                      · rintro id again ⟨⟩
                        refine ⟨⟨original, observation, observed, backend, application, scope, b, operationId,
                          earlier, ?_, hfirst, hrefresh, hrejection, ?_, rfl⟩, lookup_refreshed⟩
                        · rw [hlog]
                        · exact sameFault_of_isSameFault hscope hbackend hsame hunavailable

/-! ## The runbook -/

theorem first_lookup {runId : Json} {evidence : List String} :
    (proposal runId operationId scope b evidence).lookup "operation_id" = some (.str operationId) := rfl

theorem goes_repair (hlog : log = firstLook service backend application)
    (hmisrouted : Misrouted service backend application scope b) (hrepair : decisions.repairableRouting = .repair) :
    Goes decisions (repair decisions (payloadOf service) scope b) log fun value log' => Concluded log' value := by
  have hopen : finished log = false := by rw [hlog]; rfl
  refine goes_uuid4 hopen fun operationId => goes_ofPy fun runId hrun => goes_get ?_
  have hfirst : FirstProposal decisions (⟨.uuid4, operationId⟩ :: log)
      (proposal runId operationId scope b (evidenceOf (⟨.uuid4, operationId⟩ :: log))) :=
    ⟨service, backend, application, scope, b, runId, operationId, by rw [hlog], hmisrouted, hrepair, hrun, rfl⟩
  refine goes_call hopen (.first hfirst) fun operation => ?_
  have hopen' : finished (⟨.call "propose_repair" (proposal runId operationId scope b
      (evidenceOf (⟨.uuid4, operationId⟩ :: log))), operation⟩ :: ⟨.uuid4, operationId⟩ :: log) = false :=
    open_call _ operation (by decide) hopen
  have hinspect : Goes decisions (inspect operationId (payloadOf operation)) _
      fun value log' => Concluded log' value :=
    goes_inspect hopen' rfl first_lookup (.inl ⟨_, operation, _, rfl, rfl⟩)
  split
  · rename_i hrefresh
    refine goes_bind (goes_refreshProposal hopen' rfl hfirst hrefresh) ?_
    rintro result log' ⟨hopen, hnone, hagain⟩
    cases result with
    | none =>
        obtain ⟨hlast, hsame | hrejected⟩ := hnone rfl
        · rw [hsame]
          exact hinspect
        · exact goes_inspect hopen hlast first_lookup (.inr hrejected)
    | some r =>
        obtain ⟨hsecond, hid⟩ := hagain r.1 r.2 rfl
        refine goes_call hopen (.second hsecond) fun operation => ?_
        exact goes_inspect (open_call _ _ (by decide) hopen) rfl hid (.inl ⟨_, operation, _, rfl, rfl⟩)
  · exact hinspect

theorem goes_verifyHealth (healthy escalated : String) (hopen : finished log = false) (hnone : proposals log = 0) :
    Goes decisions (verifyHealth healthy escalated) log fun value log' => Concluded log' value := by
  refine goes_call hopen (.look (by decide)) fun verification => goes_ofPy fun success hsuccess => ?_
  have hopen := open_call [] verification (by decide : "verify_recovery" ≠ "finish") hopen
  cases success with
  | false => exact goes_finish hopen (.escalated _)
  | true => exact goes_finish hopen (.healthy _ ⟨log, ⟨verification, rfl, hsuccess⟩, hnone⟩)

theorem goes_diagnose (hlog : log = firstLook service backend application)
    (hscope : serviceScope (payloadOf service) = .ok (some scope))
    (hbackend : backend? (payloadOf backend) = .ok (some b)) :
    Goes decisions (diagnose decisions (payloadOf service) (payloadOf application) scope b) log
      fun value log' => Concluded log' value := by
  have hopen : finished log = false := by rw [hlog]; rfl
  refine goes_ofPy fun correct hcorrect => ?_
  show Goes decisions (if _ then _ else _) log _
  split
  · exact goes_verifyHealth _ _ hopen (by rw [hlog]; rfl)
  split
  · exact goes_finish hopen (.escalated _)
  rename_i hwrong
  rw [Bool.or_eq_true, not_or, Bool.not_eq_true, decide_eq_true_iff] at hwrong
  obtain ⟨rfl, hport⟩ := hwrong
  split
  · exact goes_finish hopen (.escalated _)
  · rename_i hrepair
    exact goes_repair hlog ⟨hscope, hbackend, hcorrect, hport⟩ (not_not.1 hrepair)

theorem goes_withoutBackend (hlog : log = firstLook service backend application) :
    Goes decisions (withoutBackend decisions (payloadOf backend)) log fun value log' => Concluded log' value := by
  have hopen : finished log = false := by rw [hlog]; rfl
  refine goes_ofPy fun kind _ => ?_
  split
  · exact goes_verifyHealth _ _ hopen (by rw [hlog]; rfl)
  · exact goes_finish hopen (.escalated _)

theorem goes_execute : Goes decisions (execute decisions) [] fun value log => Concluded log value := by
  refine goes_terminal fun claim => ?_
  cases claim with
  | some claim => exact goes_pure (.inl ⟨claim, rfl, rfl⟩)
  | none =>
      refine goes_callCount rfl fun callCount => ?_
      split
      · trivial
      · rename_i hfresh
        obtain rfl : callCount = 0 := not_not.1 hfresh
        refine goes_call rfl (.look (by decide)) fun service => ?_
        refine goes_call rfl (.look (by decide)) fun backend => ?_
        refine goes_call rfl (.look (by decide)) fun application => ?_
        refine goes_ofPy fun scope hscope => ?_
        cases scope with
        | none => exact goes_finish rfl (.escalated _)
        | some scope =>
            refine goes_ofPy fun b hbackend => ?_
            cases b with
            | none => exact goes_withoutBackend rfl
            | some b => exact goes_diagnose rfl hscope hbackend

/-! ## Safety -/

theorem proposals_cons (x : Σ q, Query.Answer q) (log : Log) :
    proposals (x :: log) = proposals log + if x.1.isProposal then 1 else 0 := List.countP_cons

theorem proposals_of_first (h : FirstProposal decisions log args) : proposals log = 0 := by
  obtain ⟨service, backend, application, scope, b, runId, operationId, rfl, -⟩ := h
  rfl

theorem proposals_of_second (h : SecondProposal decisions log args) : proposals log = 1 := by
  obtain ⟨original, operation, observed, backend, application, scope, b, operationId, earlier, rfl, hfirst, -⟩ := h
  simp only [proposals_cons, proposals_of_first hfirst]
  rfl

/-- **The runbook is safe.**  Whatever its tools answer, and wherever it is stopped: everything it
asks for is permitted by what it has been answered.  It proposes at most twice, and then only the
repair of a misrouted Service that it has seen, the second time only for the same fault under
another version, after the API has refused the first with budget left; it claims health only
without a proposal and success only for an operation that is settled, both only on an independent
verification it has just been given, and citing all evidence it has been issued; and nothing
follows its claim. -/
theorem runbook_safe {q : Query} {k : q.Answer → Dialogue Query Query.Answer PyError (Json × List String)}
    (h : Dialogue.Reaches (execute decisions []) log (.ask q k)) :
    Permitted decisions log q ∧ (finished log = true → q = .terminal) ∧
      ∀ args, q = .call "propose_repair" args → proposals log ≤ 1 := by
  obtain ⟨hpermitted, hfinished⟩ := (Dialogue.keeps_iff.1 goes_execute).1 log q k h
  refine ⟨hpermitted, hfinished, ?_⟩
  rintro args rfl
  generalize hq : Query.call "propose_repair" args = q at hpermitted
  cases hpermitted with
  | first hfirst =>
      cases hq
      exact (proposals_of_first hfirst).le.trans (Nat.zero_le 1)
  | second hsecond =>
      cases hq
      exact (proposals_of_second hsecond).le
  | look hname =>
      cases hq
      exact absurd hname (by decide)
  | terminal | callCount | uuid4 => cases hq
  | lookup _ _ | escalated _ | healthy _ _ | resolved _ _ => exact absurd (Query.call.inj hq).1 (by decide)

/-! ## A sample -/

def sampleObservation (id : String) (payload : Dict) : Json :=
  .obj [("observation_id", .str id), ("payload", .obj payload)]

def sampleService (version : String) : Dict := [("run_id", .str "run"), ("service", .obj [
  ("metadata", .obj [("name", .str "inventory"), ("namespace", .str "lab"), ("uid", .str "uid"),
    ("resourceVersion", .str version)]),
  ("spec", .obj [("selector", .obj [("app", .str "inventory")]), ("ports", .arr [.obj [("name", .str "http"),
    ("port", .int 80), ("protocol", .str "TCP"), ("targetPort", .int 9999)]])])])]

def sampleBackend : Dict := [("kind", .str "response"), ("status_code", .int 200), ("body", .obj [
  ("sku", .str "bolt"), ("unit_price_minor", .int 250), ("stock", .int 3), ("available", .bool true),
  ("currency", .str "EUR")]), ("backend_port", .int 8080), ("sku", .str "bolt"), ("quantity", .int 1)]

def sampleApplication : Dict := [("kind", .str "response"), ("status_code", .int 503),
  ("body", .obj [("detail", .str "inventory unavailable")])]

/-- The answer to the sample proposal: the API has refused it. -/
def sampleRejection (request : Dict) : Dict := [("operation_id", .str "op-1"), ("run_id", .str "run"),
  ("status", .str "rejected"), ("reason", .str "api_rejected_409"), ("budget_reserved", .bool true),
  ("budget_used", .int 1), ("budget_limit", .int 2), ("request", .obj request), ("result", .null),
  ("reconciliation", .null)]

def sampleProposal (operationId version : String) (evidence : List String) : Dict := [
  ("run_id", .str "run"), ("operation_id", .str operationId), ("namespace", .str "lab"),
  ("service_name", .str "inventory"), ("service_uid", .str "uid"), ("resource_version", .str version),
  ("port_name", .str "http"), ("expected_target_port", .int 9999), ("target_port", .int 8080),
  ("evidence_ids", cited evidence)]

/-- A log that leads to a second proposal. -/
def sampleLog : Log :=
  [⟨.uuid4, "op-2"⟩, ⟨.call "probe_application" [], sampleObservation "7" sampleApplication⟩,
    ⟨.call "probe_backend" [], sampleObservation "6" sampleBackend⟩,
    ⟨.call "observe_service" [], sampleObservation "5" (sampleService "2")⟩,
    ⟨.call "propose_repair" (sampleProposal "op-1" "1" ["1", "2", "3"]),
      sampleObservation "4" (sampleRejection (sampleProposal "op-1" "1" ["1", "2", "3"]))⟩,
    ⟨.uuid4, "op-1"⟩] ++ firstLook (sampleObservation "1" (sampleService "1"))
      (sampleObservation "2" sampleBackend) (sampleObservation "3" sampleApplication)

/-- The sample proposal is made once more. -/
theorem runbook_safe_sample : ∃ args, Permitted ⟨.escalate, .repair, .refresh⟩ sampleLog (.call "propose_repair" args) ∧
    proposals sampleLog = 1 ∧
    (finished sampleLog = true → Query.call "propose_repair" args = .terminal) ∧
    ∀ args', Query.call "propose_repair" args = .call "propose_repair" args' → proposals sampleLog ≤ 1 := by
  have h := Dialogue.Reaches.here (d := execute ⟨.escalate, .repair, .refresh⟩ [])
  have h := h.step (none : Option Dict)
  have h := h.step (0 : ℕ)
  have h := h.step (sampleObservation "1" (sampleService "1"))
  have h := h.step (sampleObservation "2" sampleBackend)
  have h := h.step (sampleObservation "3" sampleApplication)
  have h := h.step "op-1"
  have h := h.step (sampleObservation "4" (sampleRejection (sampleProposal "op-1" "1" ["1", "2", "3"])))
  have h := h.step (sampleObservation "5" (sampleService "2"))
  have h := h.step (sampleObservation "6" sampleBackend)
  have h := h.step (sampleObservation "7" sampleApplication)
  have h := h.step "op-2"
  obtain ⟨k, hk⟩ : ∃ k, Dialogue.Reaches (execute ⟨.escalate, .repair, .refresh⟩ []) sampleLog
      (.ask (.call "propose_repair" (sampleProposal "op-2" "2" ["1", "2", "3", "4", "5", "6", "7"])) k) := ⟨_, h⟩
  obtain ⟨hpermitted, hfinished, honce⟩ := runbook_safe hk
  exact ⟨_, hpermitted, rfl, hfinished, honce⟩

end AutonomyLab.Runbook
