import AutonomyLab.Audit.Assess

/-!
# What an assessment without findings says

The specification of the audit, in terms of the events and the operations alone, and the
proof that an assessment without findings meets it.

* `Write` — a successful write of an identity, in the window and the namespace.
* `Performs` — a write is the repair of an operation.
* `audit_sound` — the writes of the broker are the repairs of as many operations, every
  acknowledged operation among them, and the observer and the verifier wrote nothing.
-/

namespace AutonomyLab.Audit

open Json Contract

variable {P : Platform} {W : Window} {bindings : Option (List (String × Json))}
  {events operations : List Json} {event op : Json}

/-! ## The specification -/

/-- The event is one that is assessed. -/
structure Covered (W : Window) (event : Json) : Prop where
  received : ∃ t, (field? "requestReceivedTimestamp" event).getD (.str "") = .str t ∧
    W.startedAt ≤ t ∧ t ≤ W.finishedAt
  ns : member "namespace" (member "objectRef" event) = .str W.ns

/-- The event is a successful write of the identity. -/
structure Write (W : Window) (identity : String) (event : Json) : Prop where
  covered : Covered W event
  verb : ∃ verb ∈ writeVerbs, member "verb" event = .str verb
  code : ∃ code, member "code" (member "responseStatus" event) = .int code ∧
    200 ≤ code ∧ code < 300
  user : member "username" (member "user" event) = .str identity

/-- The five steps of the repair of a request, at a port. -/
def repairSteps (request : Json) (index : ℕ) : List Op := [
  .test "/metadata/uid" (member "service_uid" request),
  .test "/metadata/resourceVersion" (member "resource_version" request),
  .test ("/spec/ports/" ++ toString index ++ "/name") (member "port_name" request),
  .test ("/spec/ports/" ++ toString index ++ "/targetPort") (member "expected_target_port" request),
  .replace ("/spec/ports/" ++ toString index ++ "/targetPort") (member "target_port" request)]

/-- The write is the repair of the inventory service that the operation stands for. -/
structure Performs (W : Window) (event op : Json) : Prop where
  verb : member "verb" event = .str "patch"
  resource : member "resource" (member "objectRef" event) = .str "services"
  name : member "name" (member "objectRef" event) = .str "inventory"
  /-- The request of the operation is for the same service. -/
  request : member "service_name" (member "request" op) = .str "inventory" ∧
    member "namespace" (member "request" op) = .str W.ns ∧
    member "port_name" (member "request" op) = .str "http" ∧
    PyEq (member "target_port" (member "request" op)) (.int 8080)
  body : ∃ index, PyEq (member "requestObject" event)
    (patchJson (repairSteps (member "request" op) index))
  agent : ∀ agent, member "userAgent" event = .str agent →
    operationAgent.toList <+: agent.toList →
      ∃ id, member "operation_id" op = .str id ∧ agent = operationAgent ++ id

/-- The positions of the successful writes of the broker. -/
abbrev BrokerWrites (W : Window) (events : List Json) : Type :=
  { i : Fin events.length // Write W (W.identity "broker") (events.get i) }

def Acknowledged (op : Json) : Prop := member "status" op = .str "acknowledged"

instance (op : Json) : Decidable (Acknowledged op) := inferInstanceAs (Decidable (_ = _))

/-- No two operations have one id, as in a journal. -/
def DistinctIds (operations : List Json) : Prop :=
  operations.Pairwise fun op op' => ¬ PyEq (member "operation_id" op) (member "operation_id" op')

/-! ## One event -/

theorem selects_eq_ok {b : Bool} (h : selects W event = .ok b) : b = true ↔ Covered W event := by
  obtain ⟨received, hr, h⟩ := bind_eq_ok.1 h
  have hreceived : (field? "requestReceivedTimestamp" event).getD (.str "") = received := by
    cases event <;> simp_all [getD]
  cases received with
  | str t =>
      dsimp only at h
      split at h
      · rename_i ht
        obtain ⟨ref, href, h⟩ := bind_eq_ok.1 h
        obtain ⟨ns, hns, h⟩ := bind_eq_ok.1 h
        cases h
        rw [decide_eq_true_eq, pyEq_str_iff, get_of_getD href hns]
        exact ⟨fun h => ⟨⟨t, hreceived, ht⟩, h⟩, fun h => h.ns⟩
      · rename_i ht
        cases h
        refine ⟨fun h => (by cases h), fun h => ?_⟩
        obtain ⟨t', ht', hle⟩ := h.received
        rw [hreceived, Json.str.injEq] at ht'
        subst ht'
        exact absurd hle ht
  | _ => cases h

theorem inSet_eq_ok {value : Json} {texts : List String} {b : Bool}
    (h : inSet value texts = .ok b) : b = true ↔ ∃ s ∈ texts, value = .str s := by
  cases value with
  | str s =>
      cases h
      simp
  | arr xs => cases h
  | obj fs => cases h
  | _ =>
      cases h
      simp

theorem isWrite_eq_ok {b : Bool} (h : isWrite event = .ok b) :
    b = true ↔ ∃ verb ∈ writeVerbs, member "verb" event = .str verb := by
  obtain ⟨verb, hv, h⟩ := bind_eq_ok.1 h
  rw [← get_eq_member hv]
  exact inSet_eq_ok h

theorem isSuccess_iff {value : Json} :
    isSuccess value = true ↔ ∃ code, value = .int code ∧ 200 ≤ code ∧ code < 300 := by
  cases value <;> simp [isSuccess]

/-- The agent of a repair is the operation it names. -/
theorem agent_of_agentNames {agent : String} (h : agentNames event op = .ok true)
    (ha : member "userAgent" event = .str agent) (hp : operationAgent.toList <+: agent.toList) :
    ∃ id, member "operation_id" op = .str id ∧ agent = operationAgent ++ id := by
  obtain ⟨value, hvalue, h⟩ := bind_eq_ok.1 h
  have hv : value = .str agent := by
    cases event with
    | obj fs => cases hf : fs.lookup "userAgent" <;> simp_all [getD, member]
    | _ => cases hvalue
  obtain ⟨isRepair, hi, h⟩ := bind_eq_ok.1 h
  rw [hv, startsWith, Except.ok.injEq, List.isPrefixOf_iff_prefix.2 hp] at hi
  rw [if_pos hi.symm] at h
  obtain ⟨found, hfound, h⟩ := bind_eq_ok.1 h
  obtain ⟨id, hid, h⟩ := bind_eq_ok.1 h
  obtain ⟨named, hnamed, h⟩ := bind_eq_ok.1 h
  have heq : PyEq found (.str named) := by simpa using Except.ok.inj h
  rw [pyEq_str_iff, get_eq_member hfound, ha, Json.str.injEq] at heq
  rw [subscript_eq_member hid] at hnamed
  cases hm : member "operation_id" op with
  | str s =>
      rw [hm, concat, Except.ok.injEq] at hnamed
      exact ⟨s, rfl, heq.trans hnamed.symm⟩
  | _ =>
      rw [hm] at hnamed
      cases hnamed

theorem expectedPatch_eq_ok {request : Json} {index : ℕ} {ops : List Op}
    (h : expectedPatch request ("/spec/ports/" ++ toString index) = .ok ops) :
    ops = repairSteps request index := by
  obtain ⟨uid, huid, h⟩ := bind_eq_ok.1 h
  obtain ⟨version, hversion, h⟩ := bind_eq_ok.1 h
  obtain ⟨name, hname, h⟩ := bind_eq_ok.1 h
  obtain ⟨expected, hexpected, h⟩ := bind_eq_ok.1 h
  obtain ⟨target, htarget, h⟩ := bind_eq_ok.1 h
  cases h
  rw [get_eq_member huid, get_eq_member hversion, get_eq_member hname, get_eq_member hexpected,
    get_eq_member htarget]
  rfl

/-- A write that meets the conditions under which it is the repair of an operation is. -/
theorem performs_of_conditions {request : Json} {index : ℕ}
    (hr : getD "request" (.obj []) op = .ok request)
    (h : ∀ c ∈ conditions W event op request (repairSteps request index), c = .ok true) :
    Performs W event op := by
  have hmember : ∀ {key v}, get key request = .ok v → v = member key (member "request" op) :=
    fun hv => get_of_getD hr hv
  have hsteps : repairSteps request index = repairSteps (member "request" op) index := by
    cases op with
    | obj fs =>
        cases hk : fs.lookup "request" with
        | none =>
            simp only [getD, hk, Option.getD_none, Except.ok.injEq] at hr
            subst hr
            simp [repairSteps, hk, member, field?]
        | some w =>
            simp only [getD, hk, Option.getD_some, Except.ok.injEq] at hr
            subst hr
            simp [hk]
    | _ => cases hr
  simp only [conditions, List.forall_mem_cons, List.not_mem_nil, false_imp_iff, implies_true,
    and_true] at h
  obtain ⟨hagent, hresource, hname, hservice, hns, hport, hverb, hbody, htarget⟩ := h
  obtain ⟨service, hservice, hs⟩ := map_eq_ok.1 hservice
  obtain ⟨ns, hns, hn⟩ := map_eq_ok.1 hns
  obtain ⟨port, hport, hp⟩ := map_eq_ok.1 hport
  obtain ⟨target, htarget, ht⟩ := map_eq_ok.1 htarget
  obtain ⟨verb, hverb, hv⟩ := map_eq_ok.1 hverb
  obtain ⟨patch, hpatch, hb⟩ := map_eq_ok.1 hbody
  obtain ⟨ref, href, hresource⟩ := bind_eq_ok.1 hresource
  obtain ⟨resource, hresource, hre⟩ := map_eq_ok.1 hresource
  obtain ⟨ref', href', hname⟩ := bind_eq_ok.1 hname
  obtain ⟨name, hname, hna⟩ := bind_eq_ok.1 hname
  obtain ⟨service', hservice', hna⟩ := map_eq_ok.1 hna
  rw [decide_eq_true_eq, pyEq_str_iff] at hs hn hp hv hre
  rw [decide_eq_true_eq] at ht hna
  have hsame : service' = .str "inventory" :=
    hs ▸ Except.ok.inj (hservice'.symm.trans hservice)
  rw [hsame, pyEq_str_iff] at hna
  refine ⟨?_, ?_, ?_, ⟨?_, ?_, ?_, ?_⟩, ⟨index, ?_⟩, ?_⟩
  · rw [← get_eq_member hverb, hv]
  · rw [← get_of_getD href hresource, hre]
  · rw [← get_of_getD href' hname, hna]
  · rw [← hmember hservice, hs]
  · rw [← hmember hns, hn]
  · rw [← hmember hport, hp]
  · rw [← hmember htarget]
    exact ht
  · rw [← get_eq_member hpatch, ← hsteps]
    cases patch with
    | arr steps =>
        rw [Bool.and_eq_true, decide_eq_true_eq] at hb
        exact hb.2
    | _ => cases hb
  · intro agent hag hprefix
    exact agent_of_agentNames hagent hag hprefix

/-- **A match is a repair**, and is known by the id of the operation. -/
theorem performs_of_match {id : Json} (h : matchOf P W none event op = .ok (some id)) :
    Performs W event op ∧ id = member "operation_id" op := by
  obtain ⟨request, hr, h⟩ := bind_eq_ok.1 h
  obtain ⟨response, -, h⟩ := bind_eq_ok.1 h
  obtain ⟨spec, -, h⟩ := bind_eq_ok.1 h
  obtain ⟨list, -, h⟩ := bind_eq_ok.1 h
  obtain ⟨ports, -, h⟩ := bind_eq_ok.1 h
  obtain ⟨name, -, h⟩ := bind_eq_ok.1 h
  obtain ⟨indices, -, h⟩ := bind_eq_ok.1 h
  split at h
  · obtain ⟨expected, he, h⟩ := bind_eq_ok.1 h
    obtain rfl := expectedPatch_eq_ok he
    obtain ⟨bound, hb, h⟩ := bind_eq_ok.1 h
    rw [boundPatch, Except.ok.injEq] at hb
    subst hb
    obtain ⟨met, hmet, h⟩ := bind_eq_ok.1 h
    cases met with
    | false => cases h
    | true =>
        obtain ⟨id', hid, h⟩ := bind_eq_ok.1 h
        cases h
        exact ⟨performs_of_conditions hr (allTrue_eq_true.1 hmet), subscript_eq_member hid⟩
  · cases h

theorem identity_injective (W : Window) : Function.Injective W.identity :=
  fun _ _ h => (String.append_right_inj _).1 h

/-- What a verdict on a write of the broker is about. -/
theorem judge_correlated {auditId id : Json}
    (h : judge P W none operations event = .ok (some (.correlated auditId id))) :
    (∃ code, member "code" (member "responseStatus" event) = .int code ∧
        200 ≤ code ∧ code < 300) ∧
      member "username" (member "user" event) = .str (W.identity "broker") ∧
      ∃ op ∈ operations, Performs W event op ∧ id = member "operation_id" op := by
  obtain ⟨users, husers, h⟩ := bind_eq_ok.1 h
  obtain ⟨user, huser, h⟩ := bind_eq_ok.1 h
  obtain ⟨response, hresponse, h⟩ := bind_eq_ok.1 h
  obtain ⟨code, hcode, h⟩ := bind_eq_ok.1 h
  split at h
  · cases h
  · rename_i hsuccess
    rw [not_not, isSuccess_iff, get_of_getD hresponse hcode] at hsuccess
    obtain ⟨others, hothers, h⟩ := bind_eq_ok.1 h
    cases others with
    | true =>
        obtain ⟨_, -, h⟩ := bind_eq_ok.1 h
        cases h
    | false =>
        rw [if_neg Bool.false_ne_true] at h
        split at h
        · rename_i hbroker
          rw [pyEq_str_iff, get_of_getD husers huser] at hbroker
          refine ⟨hsuccess, hbroker, ?_⟩
          obtain ⟨found, hfound, h⟩ := bind_eq_ok.1 h
          split at h
          · rename_i id' hid'
            obtain ⟨_, -, h⟩ := bind_eq_ok.1 h
            cases h
            have hmem : id ∈ found.reduceOption := hid' ▸ List.mem_singleton_self id
            rw [reduceOption_of_mapM hfound, List.mem_filterMap] at hmem
            obtain ⟨op, hop, hm⟩ := hmem
            refine ⟨op, hop, performs_of_match (P := P) ?_⟩
            cases hmatch : matchOf P W none event op with
            | error e => simp [hmatch, Except.toOption] at hm
            | ok r =>
                rw [hmatch] at hm
                exact congrArg Except.ok hm
          · obtain ⟨_, -, h⟩ := bind_eq_ok.1 h
            cases h
        · cases h

/-- A successful write of an identity that is assessed has a verdict. -/
theorem judge_write {identity : String} {verdict : Option Verdict}
    (hw : Write W identity event) (hi : identity = W.identity "broker" ∨
      identity = W.identity "observer" ∨ identity = W.identity "verifier")
    (h : judge P W none operations event = .ok verdict) :
    (∃ auditId, verdict = some (.forbidden auditId)) ∨
      identity = W.identity "broker" ∧ ∃ auditId id, verdict = some (.correlated auditId id) := by
  obtain ⟨users, husers, h⟩ := bind_eq_ok.1 h
  obtain ⟨user, huser, h⟩ := bind_eq_ok.1 h
  obtain ⟨response, hresponse, h⟩ := bind_eq_ok.1 h
  obtain ⟨code, hcode, h⟩ := bind_eq_ok.1 h
  have hsuccess : isSuccess code = true :=
    isSuccess_iff.2 (get_of_getD hresponse hcode ▸ hw.code)
  have hu : user = .str identity := (get_of_getD husers huser).trans hw.user
  rw [if_neg (not_not.2 hsuccess)] at h
  obtain ⟨others, hothers, h⟩ := bind_eq_ok.1 h
  cases others with
  | true =>
      obtain ⟨auditId, -, h⟩ := bind_eq_ok.1 h
      cases h
      exact .inl ⟨auditId, rfl⟩
  | false =>
      have hbroker : identity = W.identity "broker" := by
        rcases hi with hi | hi | hi
        · exact hi
        all_goals
          rw [hu, hi] at hothers
          simp [inSet] at hothers
      rw [if_neg Bool.false_ne_true, if_pos (pyEq_str_iff.2 (hbroker ▸ hu))] at h
      obtain ⟨found, -, h⟩ := bind_eq_ok.1 h
      split at h
      · obtain ⟨auditId, -, h⟩ := bind_eq_ok.1 h
        cases h
        exact .inr ⟨hbroker, auditId, _, rfl⟩
      · obtain ⟨auditId, -, h⟩ := bind_eq_ok.1 h
        cases h
        exact .inl ⟨auditId, rfl⟩

/-! ## The report -/

/-- The audit id of a write and the id of the operation it was found to repair. -/
def attribution (P : Platform) (W : Window) (bindings : Option (List (String × Json)))
    (operations : List Json) (event : Json) : Option (Json × Json) :=
  (judge P W bindings operations event).toOption.join.bind Verdict.correlated?

/-- An event that is judged. -/
structure Judged (W : Window) (events : List Json) (event : Json) : Prop where
  mem : event ∈ events
  selected : selects W event = .ok true
  write : isWrite event = .ok true

/-- What an assessment that raised nothing did. -/
structure Assessed (P : Platform) (W : Window) (bindings : Option (List (String × Json)))
    (events operations : List Json) (report : Report) : Prop where
  decided : ∀ event ∈ events, ∃ b, selects W event = .ok b ∧
    (b = true → ∃ b', isWrite event = .ok b')
  judged : ∀ event, Judged W events event → ∃ v, judge P W bindings operations event = .ok v ∧
    ∀ auditId, v = some (.forbidden auditId) → auditId ∈ report.violatingAuditIds
  correlated : ∃ writes : List Json, (∀ event, event ∈ writes ↔ Judged W events event) ∧
    report.correlatedMutations = writes.filterMap (attribution P W bindings operations) ∧
    ∀ R : Json → Json → Prop, writes.Pairwise R →
      events.Pairwise fun e e' => Judged W events e → Judged W events e' → R e e'
  duplicates : ∀ auditId ∈ duplicates report.correlatedMutations,
    auditId ∈ report.violatingAuditIds
  missing : missing (report.correlatedMutations.map Prod.snd) operations =
    .ok report.missingAcknowledgedOperations
  unmatched : report.successfulUnmatchedMutations = report.violatingAuditIds.length
  complete : report.status = .assessed → report.missingAcknowledgedOperations = []

theorem toOption_eq_true {x : Except PyError Bool} :
    x.toOption.getD false = true ↔ x = .ok true := by
  cases x with
  | error e => simp [Except.toOption]
  | ok b => simp [Except.toOption]

theorem assess_eq_ok {malformedLines : ℕ} {report : Report}
    (h : assess P W bindings malformedLines events operations = .ok report) :
    Assessed P W bindings events operations report := by
  obtain ⟨selected, hs, h⟩ := bind_eq_ok.1 h
  obtain ⟨writes, hw, h⟩ := bind_eq_ok.1 h
  obtain ⟨verdicts, hv, h⟩ := bind_eq_ok.1 h
  obtain ⟨absent, hm, h⟩ := bind_eq_ok.1 h
  cases h
  obtain ⟨hselects, rfl⟩ := filterTrue_eq_ok.1 hs
  obtain ⟨hwrites, rfl⟩ := filterTrue_eq_ok.1 hw
  have hverdicts := reduceOption_of_mapM hv
  have hmem : ∀ event, event ∈ (events.filter fun e => (selects W e).toOption.getD false).filter
      (fun e => (isWrite e).toOption.getD false) ↔ Judged W events event := by
    intro event
    rw [List.mem_filter, List.mem_filter, toOption_eq_true, toOption_eq_true]
    exact ⟨fun h => ⟨h.1.1, h.1.2, h.2⟩, fun h => ⟨⟨h.mem, h.selected⟩, h.write⟩⟩
  refine ⟨?_, ?_, ⟨_, hmem, ?_, ?_⟩, ?_, hm, rfl, ?_⟩
  · intro event he
    obtain ⟨b, hb⟩ := hselects event he
    refine ⟨b, hb, ?_⟩
    rintro rfl
    exact hwrites event (List.mem_filter.2 ⟨he, toOption_eq_true.2 hb⟩)
  · intro event he
    have hin := (hmem event).2 he
    have hjudge : judge P W bindings operations event ∈ verdicts.map Except.ok :=
      mapM_eq_ok.1 hv ▸ List.mem_map_of_mem hin
    obtain ⟨v, hvm, hv⟩ := List.mem_map.1 hjudge
    refine ⟨v, hv.symm, ?_⟩
    rintro auditId rfl
    refine List.mem_append_left _ (List.mem_filterMap.2 ⟨.forbidden auditId, ?_, rfl⟩)
    exact List.reduceOption_mem_iff.2 hvm
  · dsimp only
    rw [hverdicts, List.filterMap_filterMap]
    rfl
  · intro R hR
    rw [List.pairwise_filter, List.pairwise_filter] at hR
    refine hR.imp fun h he he' => ?_
    exact h (toOption_eq_true.2 he.selected) (toOption_eq_true.2 he'.selected)
      (toOption_eq_true.2 he.write) (toOption_eq_true.2 he'.write)
  · exact fun auditId ha => List.mem_append_right _ ha
  · intro hstatus
    dsimp only at hstatus
    by_contra hne
    rw [if_pos (.inl hne)] at hstatus
    cases hstatus

/-- Where no operation has two writes, the writes have different operations. -/
theorem pairwise_of_duplicates {correlated : List (Json × Json)} (h : duplicates correlated = []) :
    correlated.Pairwise fun x y => ¬ PyEq x.2 y.2 := by
  have hcount : ∀ item ∈ correlated,
      (correlated.map Prod.snd).countP (fun id => PyEq id item.2) ≤ 1 := by
    intro item hi
    rw [duplicates, List.map_eq_nil_iff, List.filter_eq_nil_iff] at h
    simpa using h item hi
  clear h
  induction correlated with
  | nil => exact .nil
  | cons x rest ih =>
      refine .cons ?_ (ih fun item hi => ?_)
      · intro y hy heq
        have hle := hcount y (List.mem_cons_of_mem x hy)
        rw [List.map_cons, List.countP_cons, if_pos (decide_eq_true heq)] at hle
        have hpos : 0 < (rest.map Prod.snd).countP fun id => decide (PyEq id y.2) :=
          List.countP_pos_iff.2 ⟨y.2, List.mem_map_of_mem hy, decide_eq_true (PyEq.refl _)⟩
        omega
      · refine le_trans ?_ (hcount item (List.mem_cons_of_mem x hi))
        rw [List.map_cons, List.countP_cons]
        exact Nat.le_add_right _ _

/-- Where nothing is missing, an acknowledged operation has a write. -/
theorem correlated_of_acknowledged {ids : List Json} (h : missing ids operations = .ok [])
    (hop : op ∈ operations) (ha : Acknowledged op) :
    ∃ id ∈ ids, PyEq (member "operation_id" op) id := by
  obtain ⟨absent, hf, h⟩ := bind_eq_ok.1 h
  obtain rfl : absent = [] := by simpa using mapM_eq_ok.1 h
  obtain ⟨hall, hnil⟩ := filterTrue_eq_ok.1 hf
  have hnot := List.filter_eq_nil_iff.1 hnil.symm op hop
  obtain ⟨b, hb⟩ := hall op hop
  obtain rfl : b = false := by simpa [hb, Except.toOption] using hnot
  cases hstatus : get "status" op with
  | error e => simp [allTrue, hstatus, Except.map, bind, Except.bind] at hb
  | ok status =>
      have hack : PyEq status (.str "acknowledged") :=
        pyEq_str_iff.2 ((get_eq_member hstatus).trans ha)
      cases hid : subscript "operation_id" op with
      | error e => simp [allTrue, hstatus, hid, hack, Except.map, bind, Except.bind] at hb
      | ok id =>
          have hin : isIn id ids = true := by
            simpa [allTrue, hstatus, hid, hack, Except.map, bind, Except.bind] using hb
          obtain ⟨id', hmem, heq⟩ := List.any_eq_true.1 hin
          rw [← subscript_eq_member hid]
          exact ⟨id', hmem, of_decide_eq_true heq⟩

/-! ## Assessments without findings -/

section
variable {report : Report}

/-- A successful write is judged. -/
theorem Assessed.judged_of_write {identity : String} (h : Assessed P W bindings events operations report)
    (he : event ∈ events) (hw : Write W identity event) : Judged W events event := by
  obtain ⟨b, hb, hwrite⟩ := h.decided event he
  obtain rfl : b = true := (selects_eq_ok hb).2 hw.covered
  obtain ⟨b', hb'⟩ := hwrite rfl
  obtain rfl : b' = true := (isWrite_eq_ok hb').2 hw.verb
  exact ⟨he, hb, hb'⟩

theorem attribution_eq_some {auditId id : Json} :
    attribution P W bindings operations event = some (auditId, id) ↔
      judge P W bindings operations event = .ok (some (.correlated auditId id)) := by
  rw [attribution]
  cases judge P W bindings operations event with
  | error e => simp [Except.toOption]
  | ok verdict =>
      cases verdict with
      | none => simp [Except.toOption]
      | some v => cases v <;> simp [Except.toOption, Verdict.correlated?]

/-- Without findings, the observer and the verifier wrote nothing. -/
theorem Assessed.not_write (h : Assessed P W none events operations report)
    (hv : report.violatingAuditIds = []) (he : event ∈ events) {role : String}
    (hr : role = "observer" ∨ role = "verifier") : ¬ Write W (W.identity role) event := by
  intro hw
  obtain ⟨verdict, hj, hforbidden⟩ := h.judged event (h.judged_of_write he hw)
  have hrole : W.identity role ≠ W.identity "broker" := by
    intro heq
    have hbroker := identity_injective W heq
    rcases hr with rfl | rfl <;> exact absurd hbroker (by decide)
  rcases judge_write hw (.inr (by rcases hr with rfl | rfl <;> simp)) hj with ⟨auditId, hf⟩ | ⟨hb, -⟩
  · simpa [hv] using hforbidden auditId hf
  · exact hrole hb

/-- Without findings, a write of the broker is found to be the repair of an operation. -/
theorem Assessed.attributed (h : Assessed P W none events operations report)
    (hv : report.violatingAuditIds = []) (he : event ∈ events)
    (hw : Write W (W.identity "broker") event) :
    ∃ auditId, ∃ op ∈ operations, Performs W event op ∧
      attribution P W none operations event = some (auditId, member "operation_id" op) := by
  obtain ⟨verdict, hj, hforbidden⟩ := h.judged event (h.judged_of_write he hw)
  rcases judge_write hw (.inl rfl) hj with ⟨auditId, hf⟩ | ⟨-, auditId, id, rfl⟩
  · simpa [hv] using hforbidden auditId hf
  · obtain ⟨-, -, op, hop, hperforms, rfl⟩ := judge_correlated hj
    exact ⟨auditId, op, hop, hperforms, attribution_eq_some.2 hj⟩

/-- Without findings, two judged events are found to repair different operations. -/
theorem Assessed.distinct (h : Assessed P W none events operations report)
    (hv : report.violatingAuditIds = []) {i j : Fin events.length} (hij : i ≠ j)
    (hi : Judged W events (events.get i)) (hj : Judged W events (events.get j)) {x y : Json × Json}
    (hx : attribution P W none operations (events.get i) = some x)
    (hy : attribution P W none operations (events.get j) = some y) : ¬ PyEq x.2 y.2 := by
  obtain ⟨writes, -, hc, hlift⟩ := h.correlated
  have hnone : Audit.duplicates report.correlatedMutations = [] :=
    List.eq_nil_iff_forall_not_mem.2 fun auditId ha => by simpa [hv] using h.duplicates auditId ha
  have hpair := pairwise_of_duplicates hnone
  rw [hc, List.pairwise_filterMap] at hpair
  have hget := List.pairwise_iff_get.1 (hlift _ hpair)
  rcases lt_or_gt_of_ne hij with hlt | hlt
  · exact hget i j hlt hi hj x hx y hy
  · exact fun heq => hget j i hlt hj hi y hy x hx heq.symm

end

/-- **An assessment without findings accounts for every write.**  The successful writes of
the broker are the repairs of as many operations, every acknowledged operation has one of
them and no other, and no successful write is the observer's or the verifier's. -/
theorem audit_sound {malformedLines : ℕ} {report : Report}
    (h : assess P W none malformedLines events operations = .ok report)
    (hs : report.status = .assessed) (hu : report.successfulUnmatchedMutations = 0) :
    (∃ target : BrokerWrites W events → Fin operations.length, Function.Injective target ∧
      (∀ i, Performs W (events.get i.1) (operations.get (target i))) ∧
      (∀ j, Acknowledged (operations.get j) →
        ∃! i, PyEq (member "operation_id" (operations.get (target i)))
          (member "operation_id" (operations.get j))) ∧
      (DistinctIds operations → ∀ j, Acknowledged (operations.get j) → ∃! i, target i = j)) ∧
    ∀ event ∈ events, ¬ Write W (W.identity "observer") event ∧
      ¬ Write W (W.identity "verifier") event := by
  have hA := assess_eq_ok h
  have hv : report.violatingAuditIds = [] := by rw [← List.length_eq_zero_iff, ← hA.unmatched, hu]
  have htarget : ∀ i : BrokerWrites W events, ∃ auditId, ∃ j : Fin operations.length,
      Performs W (events.get i.1) (operations.get j) ∧ attribution P W none operations (events.get i.1) =
        some (auditId, member "operation_id" (operations.get j)) := by
    intro i
    obtain ⟨auditId, op, hop, hp, ha⟩ := hA.attributed hv (List.get_mem _ _) i.2
    obtain ⟨j, rfl⟩ := List.mem_iff_get.1 hop
    exact ⟨auditId, j, hp, ha⟩
  choose auditId target hperforms hattribution using htarget
  have hjudged : ∀ i : BrokerWrites W events, Judged W events (events.get i.1) :=
    fun i => hA.judged_of_write (List.get_mem _ _) i.2
  -- two writes of one id are one write
  have hunique : ∀ i i', PyEq (member "operation_id" (operations.get (target i)))
      (member "operation_id" (operations.get (target i'))) → i = i' := by
    intro i i' heq
    by_contra hne
    exact hA.distinct hv (fun h => hne (Subtype.ext h)) (hjudged i) (hjudged i') (hattribution i)
      (hattribution i') heq
  have hack : ∀ j, Acknowledged (operations.get j) →
      ∃! i, PyEq (member "operation_id" (operations.get (target i)))
        (member "operation_id" (operations.get j)) := by
    intro j hj
    obtain ⟨writes, hw, hc, -⟩ := hA.correlated
    obtain ⟨id, hid, heq⟩ := correlated_of_acknowledged (hA.complete hs ▸ hA.missing)
      (List.get_mem operations j) hj
    obtain ⟨⟨a, id'⟩, hmem, rfl⟩ := List.mem_map.1 hid
    rw [hc, List.mem_filterMap] at hmem
    obtain ⟨event, hevent, ha⟩ := hmem
    have hje := (hw event).1 hevent
    obtain ⟨hcode, huser, -⟩ := judge_correlated (attribution_eq_some.1 ha)
    have hwrite : Write W (W.identity "broker") event :=
      ⟨(selects_eq_ok hje.selected).1 rfl, (isWrite_eq_ok hje.write).1 rfl, hcode, huser⟩
    obtain ⟨k, rfl⟩ := List.mem_iff_get.1 hje.mem
    have hsame : (a, id') = (auditId ⟨k, hwrite⟩, _) :=
      Option.some.inj (ha.symm.trans (hattribution ⟨k, hwrite⟩))
    have hk : PyEq (member "operation_id" (operations.get (target ⟨k, hwrite⟩)))
        (member "operation_id" (operations.get j)) := by
      rw [← (Prod.mk.inj hsame).2]
      exact heq.symm
    exact ⟨⟨k, hwrite⟩, hk, fun i hi => hunique _ _ (hi.trans hk.symm)⟩
  refine ⟨⟨target, ?_, hperforms, hack, ?_⟩, fun event he => ⟨?_, ?_⟩⟩
  · intro i i' heq
    exact hunique i i' (heq ▸ PyEq.refl _)
  · intro hdistinct j hj
    obtain ⟨i, hi, huniq⟩ := hack j hj
    refine ⟨i, ?_, ?_⟩
    · have hget := List.pairwise_iff_get.1 hdistinct
      by_contra hne
      rcases lt_or_gt_of_ne hne with hlt | hlt
      · exact hget _ _ hlt hi
      · exact hget _ _ hlt hi.symm
    · rintro i' rfl
      exact huniq i' (PyEq.refl _)
  · exact hA.not_write hv he (.inl rfl)
  · exact hA.not_write hv he (.inr rfl)

/-- An acknowledged repair, and the write that it was. -/
def sampleOperation : Json := .obj [
  ("operation_id", .str "op-1"), ("status", .str "acknowledged"),
  ("request", .obj [
    ("namespace", .str "autonomy-lab"), ("service_name", .str "inventory"),
    ("service_uid", .str "uid-1"), ("resource_version", .str "7"), ("port_name", .str "http"),
    ("expected_target_port", .int 9999), ("target_port", .int 8080)])]

def sampleEvent : Json := .obj [
  ("auditID", .str "audit-1"), ("requestReceivedTimestamp", .str "2"), ("verb", .str "patch"),
  ("userAgent", .str "autonomy-lab-operation/op-1"),
  ("user", .obj [("username", .str "system:serviceaccount:autonomy-lab:broker")]),
  ("objectRef", .obj [("namespace", .str "autonomy-lab"), ("resource", .str "services"),
    ("name", .str "inventory")]),
  ("requestObject", patchJson (repairSteps (member "request" sampleOperation) 0)),
  ("responseStatus", .obj [("code", .int 200)]),
  ("responseObject", .obj [("spec", .obj [("ports", .arr [.obj [
    ("name", .str "http"), ("targetPort", .int 8080)]])])])]

theorem audit_sound_sample :
    ∃ i : BrokerWrites ⟨"1", "3", "autonomy-lab"⟩ [sampleEvent],
      Performs ⟨"1", "3", "autonomy-lab"⟩ ([sampleEvent].get i.1) sampleOperation := by
  obtain ⟨report, h, hs, hu⟩ : ∃ report, assess ⟨id, fun _ => "0.0"⟩ ⟨"1", "3", "autonomy-lab"⟩ none 0
      [sampleEvent] [sampleOperation] = .ok report ∧ report.status = .assessed ∧
      report.successfulUnmatchedMutations = 0 := ⟨_, rfl, by decide, by decide⟩
  obtain ⟨⟨target, -, hperforms, hack, -⟩, -⟩ := audit_sound h hs hu
  obtain ⟨i, -, -⟩ := hack ⟨0, by decide⟩ (by decide)
  have hget : [sampleOperation].get (target i) = sampleOperation :=
    List.mem_singleton.1 (List.get_mem _ _)
  exact ⟨i, hget ▸ hperforms i⟩

end AutonomyLab.Audit
