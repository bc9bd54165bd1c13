import Mathlib.Data.Set.List
import AutonomyLab.Scoring.Score
import AutonomyLab.Store.Table

/-!
# How fresh the verification behind a claim is

* `Fresh` — between the last verification and the claim, in the order of the log, nothing
  can have been sent, and the verification is a success that the claim cites.
* `Credited` — what the score asks for, which goes by the log and by the timestamps.
* `Overlooked` — a record that the timestamps hide from the score.
* `credit_fresh_iff` — credit is given for fresh verifications only, unless a record
  was overlooked.
-/

namespace AutonomyLab.Scoring

open Json

/-! ## Where a record is in the log -/

namespace Trial

variable {t : Trial} {o o' : Observation} {pre post : List Observation}

theorem eq_of_id (ho : o ∈ t.observations) (ho' : o' ∈ t.observations)
    (h : o.observationId = o'.observationId) : o = o' :=
  List.inj_on_of_nodup_map t.nodup ho ho' h

theorem byId_eq_some {id : String} :
    t.byId id = some o ↔ o ∈ t.observations ∧ o.observationId = id := by
  constructor
  · intro h
    exact ⟨List.mem_of_find?_eq_some h, by simpa using List.find?_some h⟩
  · rintro ⟨ho, rfl⟩
    cases hb : t.byId o.observationId with
    | none =>
        have := List.find?_eq_none.1 hb o ho
        simp at this
    | some o' =>
        have hid : o'.observationId = o.observationId := by simpa using List.find?_some hb
        rw [eq_of_id (List.mem_of_find?_eq_some hb) ho hid]

/-- A record is found where it is in the log. -/
theorem position_eq (h : t.observations = pre ++ o :: post) :
    t.position o.observationId = pre.length := by
  have hnodup := t.nodup
  rw [h, List.map_append, List.map_cons, List.nodup_append] at hnodup
  have hpre : ∀ p ∈ pre, ¬ p.observationId = o.observationId := fun p hp heq =>
    hnodup.2.2 _ (List.mem_map_of_mem hp) _ List.mem_cons_self heq
  have hfirst : pre.findIdx (fun p => decide (p.observationId = o.observationId)) = pre.length := by
    refine List.findIdx_eq_length.2 fun p hp => ?_
    simpa using hpre p hp
  rw [position, h, List.findIdx_append, hfirst, if_neg (lt_irrefl _), List.findIdx_cons]
  simp

theorem position_lt_length (h : t.observations = pre ++ post) (ho : o ∈ pre) :
    t.position o.observationId < pre.length := by
  obtain ⟨as, bs, rfl⟩ := List.append_of_mem ho
  rw [List.append_assoc] at h
  rw [position_eq h, List.length_append, List.length_cons]
  omega

theorem length_le_position (h : t.observations = pre ++ post) (ho : o ∈ post) :
    pre.length ≤ t.position o.observationId := by
  obtain ⟨as, bs, rfl⟩ := List.append_of_mem ho
  rw [← List.append_assoc] at h
  rw [position_eq h, List.length_append]
  omega

/-- A record is before another one if it stands before it, and is not stamped later. -/
theorem before_right (h : t.observations = pre ++ o :: post) (ho' : o' ∈ t.observations) :
    t.before o' o = true ↔ o' ∈ pre ∧ o'.time ≤ o.time := by
  rw [before, decide_eq_true_iff, position_eq h]
  refine and_congr_left fun _ => ⟨fun hlt => ?_, fun hmem => position_lt_length h hmem⟩
  rw [h, List.mem_append] at ho'
  refine ho'.resolve_right fun hpost => ?_
  have := length_le_position h hpost
  omega

theorem before_left (h : t.observations = pre ++ o :: post) (ho' : o' ∈ t.observations) :
    t.before o o' = true ↔ o' ∈ post ∧ o.time ≤ o'.time := by
  rw [before, decide_eq_true_iff, position_eq h]
  have h' : t.observations = (pre ++ [o]) ++ post := by rw [h, List.append_assoc]; rfl
  refine and_congr_left fun _ => ⟨fun hlt => ?_, fun hmem => ?_⟩
  · rw [h', List.mem_append] at ho'
    refine ho'.resolve_left fun hpre => ?_
    have := position_lt_length h' hpre
    rw [List.length_append, List.length_singleton] at this
    omega
  · have := length_le_position h' hmem
    rw [List.length_append, List.length_singleton] at this
    omega

theorem lookup_foldl {id : String} {d : Dict} (os : List Observation)
    (acc : List (String × Dict) × List String) (h : acc.1.lookup id = some d) :
    (os.foldl addMissing acc).1.lookup id = some d := by
  induction os generalizing acc with
  | nil => exact h
  | cons o os ih =>
      refine ih _ ?_
      unfold addMissing
      split
      · split
        · rw [List.lookup_append, h, Option.some_or]
        · exact h
      · exact h

/-- A durable record is the one that is consulted. -/
theorem operationOf_eq {operation payload : Dict} (hop : operation ∈ t.operations)
    (hid : fetch "operation_id" payload = .str (operationId operation)) (default : Dict) :
    t.operationOf payload default = operation := by
  let rows := t.operations.map fun operation => (operationId operation, operation)
  have hnodup : (rows.map Prod.fst).Nodup := by
    rw [List.map_map]
    exact t.operationsNodup
  have hlookup : rows.lookup (operationId operation) = some operation :=
    Store.Table.find?_eq_some (t := ⟨rows, hnodup⟩).2 (List.mem_map.2 ⟨operation, hop, rfl⟩)
  rw [operationOf, hid]
  dsimp only
  rw [opById, lookup_foldl _ _ hlookup, Option.getD_some]

end Trial

/-! ## What credit is given for -/

/-- The proposal was or may have been dispatched, by its own account or by that of the
durable record it names. -/
def MayHaveBeenDispatched (t : Trial) (o : Observation) : Prop :=
  knownStatus o.payload = false ∨ dispatchPossible o.payload = true ∨
    ∃ operation ∈ t.operations, fetch "operation_id" o.payload = .str (operationId operation) ∧
      dispatchPossible operation = true

theorem MayHaveBeenDispatched.sent {t : Trial} {o : Observation} (h : MayHaveBeenDispatched t o) :
    t.mayHaveBeenSent o = true := by
  unfold Trial.mayHaveBeenSent
  rcases h with h | h | ⟨operation, hop, hid, h⟩
  · simp [h]
  · simp [h]
  · simp [Trial.operationOf_eq hop hid, h]

/-- The log around a successful verification that the claim cites, and the first record of
the claim. -/
structure Window (t : Trial) (claim : Claim) (pre mid post : List Observation)
    (check finish : Observation) : Prop where
  claimed : t.claim = some claim
  log : t.observations = pre ++ check :: (mid ++ finish :: post)
  recorded : claim.recordedBy finish = true
  first : ∀ o ∈ pre ++ check :: mid, claim.recordedBy o = false
  verification : check.source = "verify_recovery"
  success : fetch "verdict" check.payload = .str "verified_success"
  cited : check.observationId ∈ claim.evidenceIds

/-- The last verification before the claim, in the order of the log, is a success that the
claim cites, and no proposal between them may have been dispatched. -/
def Fresh (t : Trial) : Prop :=
  ∃ claim pre mid post check finish, Window t claim pre mid post check finish ∧
    (∀ o ∈ mid, o.source ≠ "verify_recovery") ∧
    ∀ o ∈ mid, o.source = "propose_repair" → ¬ MayHaveBeenDispatched t o

/-- What the score gives credit for: records stamped out of order are no verifications and
no proposals to it, and no evidence. -/
structure Credited (t : Trial) (claim : Claim) (pre mid post : List Observation)
    (check finish : Observation) : Prop extends Window t claim pre mid post check finish where
  timely : check.time ≤ finish.time
  latest : ∀ o ∈ mid, o.source = "verify_recovery" → finish.time < o.time
  evidence : ∀ id ∈ claim.evidenceIds, ∃ o ∈ pre ++ check :: mid,
    o.observationId = id ∧ o.time ≤ finish.time
  unsent : ∀ o ∈ mid, o.source = "propose_repair" → check.time ≤ o.time → o.time ≤ finish.time →
    t.mayHaveBeenSent o = false

/-- Credit is given although there is, between the verification and the claim, another
verification that is stamped later than the claim, or a proposal that may have been
dispatched and is stamped earlier than the verification or later than the claim. -/
def Overlooked (t : Trial) : Prop :=
  ∃ claim pre mid post check finish, Credited t claim pre mid post check finish ∧
    ∃ o ∈ mid, o.source = "verify_recovery" ∧ finish.time < o.time ∨
      o.source = "propose_repair" ∧ MayHaveBeenDispatched t o ∧
        (o.time < check.time ∨ finish.time < o.time)

/-! ## The credit, by the log -/

namespace Trial

variable {t : Trial} {claim : Claim} {A B : List Observation} {finish : Observation}

theorem boundary_eq_some : t.boundary = some finish ↔ ∃ claim A B, t.claim = some claim ∧
    t.observations = A ++ finish :: B ∧ claim.recordedBy finish = true ∧
    ∀ o ∈ A, claim.recordedBy o = false := by
  rw [boundary, Option.bind_eq_some_iff]
  constructor
  · rintro ⟨claim, hclaim, hfind⟩
    obtain ⟨hrec, A, B, hlog, hfirst⟩ := List.find?_eq_some_iff_append.1 hfind
    exact ⟨claim, A, B, hclaim, hlog, hrec, fun o ho => by simpa using hfirst o ho⟩
  · rintro ⟨claim, A, B, hclaim, hlog, hrec, hfirst⟩
    refine ⟨claim, hclaim, List.find?_eq_some_iff_append.2 ⟨hrec, A, B, hlog, fun o ho => ?_⟩⟩
    simp [hfirst o ho]

/-- The latest verification is sought before the claim. -/
theorem latestCheck_eq (hb : t.boundary = some finish) (hlog : t.observations = A ++ finish :: B) :
    t.latestCheck = (A.filter fun o => decide (o.source = "verify_recovery" ∧
      o.time ≤ finish.time)).getLast? := by
  have hmem : ∀ o, o ∈ A ∨ o ∈ finish :: B → o ∈ t.observations := fun o ho => by
    rw [hlog]
    exact List.mem_append.2 ho
  have hleft : A.filter (fun o => decide (o.source = "verify_recovery" ∧ t.before o finish = true)) =
      A.filter fun o => decide (o.source = "verify_recovery" ∧ o.time ≤ finish.time) := by
    refine List.filter_congr fun o ho => decide_eq_decide.2 (and_congr_right fun _ => ?_)
    exact (before_right hlog (hmem o (.inl ho))).trans (and_iff_right ho)
  have hright : (finish :: B).filter
      (fun o => decide (o.source = "verify_recovery" ∧ t.before o finish = true)) = [] := by
    refine List.filter_eq_nil_iff.2 fun o ho => ?_
    have hpos : A.length ≤ t.position o.observationId := length_le_position hlog ho
    have hnot : ¬ t.before o finish = true := by
      rw [before, decide_eq_true_iff, position_eq hlog]
      omega
    simp [hnot]
  rw [latestCheck, hb, Option.bind_some]
  rw [hlog, List.filter_append, hleft, hright, List.append_nil]

theorem latestCheck_eq_some {check : Observation} (hb : t.boundary = some finish)
    (hlog : t.observations = A ++ finish :: B) :
    t.latestCheck = some check ↔ ∃ pre mid, A = pre ++ check :: mid ∧
      check.source = "verify_recovery" ∧ check.time ≤ finish.time ∧
      ∀ o ∈ mid, o.source = "verify_recovery" → finish.time < o.time := by
  rw [latestCheck_eq hb hlog, List.getLast?_filter, List.find?_eq_some_iff_append]
  simp only [decide_eq_true_iff, Bool.not_eq_true', decide_eq_false_iff_not, not_and, not_le]
  constructor
  · rintro ⟨⟨hsource, htime⟩, as, bs, hrev, hlate⟩
    refine ⟨bs.reverse, as.reverse, ?_, hsource, htime, fun o ho => hlate o (List.mem_reverse.1 ho)⟩
    rw [← List.reverse_reverse A, hrev]
    simp
  · rintro ⟨pre, mid, rfl, hsource, htime, hlate⟩
    exact ⟨⟨hsource, htime⟩, mid.reverse, pre.reverse, by simp,
      fun o ho => hlate o (List.mem_reverse.1 ho)⟩

/-- The evidence of a claim is valid if every id it cites is that of a record before it. -/
theorem claimEvidenceValid_iff (hclaim : t.claim = some claim) (hb : t.boundary = some finish)
    (hlog : t.observations = A ++ finish :: B) :
    t.claimEvidenceValid = true ↔ claim.evidenceIds ≠ [] ∧ ∀ id ∈ claim.evidenceIds,
      ∃ o ∈ A, o.observationId = id ∧ o.time ≤ finish.time := by
  have hids : t.claimIds = claim.evidenceIds := by
    rw [claimIds, hclaim]
    rfl
  constructor
  · intro h
    obtain ⟨records, hrecords⟩ : ∃ records, t.citedRecords = some records := by
      cases hr : t.citedRecords with
      | none => rw [claimEvidenceValid, hr] at h; cases h
      | some records => exact ⟨records, rfl⟩
    rw [claimEvidenceValid, hrecords, hb] at h
    have hall := List.all_eq_true.1 h
    rw [citedRecords, hids] at hrecords
    split at hrecords
    · cases hrecords
    · rename_i hne
      refine ⟨by simpa using hne, fun id hid => ?_⟩
      have hmap := mapM_eq_some.1 hrecords
      have hmem : t.byId id ∈ records.map some := hmap ▸ List.mem_map_of_mem hid
      obtain ⟨o, ho, heq⟩ := List.mem_map.1 hmem
      obtain ⟨hobs, hoid⟩ := byId_eq_some.1 heq.symm
      obtain ⟨hA, htime⟩ := (before_right hlog hobs).1 (hall o ho)
      exact ⟨o, hA, hoid, htime⟩
  · rintro ⟨hne, hall⟩
    have hbefore : ∀ id ∈ claim.evidenceIds, ∃ o, t.byId id = some o ∧ t.before o finish = true := by
      intro id hid
      obtain ⟨o, hA, hoid, htime⟩ := hall id hid
      have hobs : o ∈ t.observations := by
        rw [hlog]
        exact List.mem_append_left _ hA
      exact ⟨o, byId_eq_some.2 ⟨hobs, hoid⟩, (before_right hlog hobs).2 ⟨hA, htime⟩⟩
    have hrange : claim.evidenceIds.map t.byId ∈ Set.range (List.map some) := by
      rw [Set.range_list_map]
      intro r hr
      obtain ⟨id, hid, rfl⟩ := List.mem_map.1 hr
      obtain ⟨o, ho, -⟩ := hbefore id hid
      exact ⟨o, ho.symm⟩
    obtain ⟨records, hrecords⟩ := hrange
    have hcited : t.citedRecords = some records := by
      rw [citedRecords, hids, if_neg (by simpa using hne)]
      exact mapM_eq_some.2 hrecords.symm
    rw [claimEvidenceValid, hcited, hb]
    refine List.all_eq_true.2 fun o ho => ?_
    have hmem : some o ∈ claim.evidenceIds.map t.byId := hrecords ▸ List.mem_map_of_mem ho
    obtain ⟨id, hid, heq⟩ := List.mem_map.1 hmem
    obtain ⟨o', ho', hbef⟩ := hbefore id hid
    rw [heq] at ho'
    cases ho'
    exact hbef

theorem mem_cited {o : Observation} (hclaim : t.claim = some claim)
    (hvalid : t.claimEvidenceValid = true) :
    o ∈ t.cited ↔ o ∈ t.observations ∧ o.observationId ∈ claim.evidenceIds := by
  have hids : t.claimIds = claim.evidenceIds := by
    rw [claimIds, hclaim]
    rfl
  rw [cited, if_pos hvalid]
  cases hr : t.citedRecords with
  | none => rw [claimEvidenceValid, hr] at hvalid; cases hvalid
  | some records =>
      rw [citedRecords, hids] at hr
      split at hr
      · cases hr
      · have hmap := mapM_eq_some.1 hr
        rw [Option.getD_some, ← List.mem_map_of_injective (Option.some_injective Observation), ← hmap,
          List.mem_map]
        constructor
        · rintro ⟨id, hid, heq⟩
          obtain ⟨hobs, rfl⟩ := byId_eq_some.1 heq
          exact ⟨hobs, hid⟩
        · rintro ⟨hobs, hid⟩
          exact ⟨_, hid, byId_eq_some.2 ⟨hobs, rfl⟩⟩

/-- **What credit is given for**, in terms of the log. -/
theorem citedVerification_iff : t.citedVerification = true ↔
    ∃ claim pre mid post check finish, Credited t claim pre mid post check finish := by
  constructor
  · intro h
    unfold citedVerification at h
    split at h
    · rename_i check finish hlatest hbound
      rw [Bool.and_eq_true, Bool.not_eq_true', List.any_eq_false, citesLatest, hlatest] at h
      obtain ⟨hcites, hunsent⟩ := h
      rw [Bool.and_eq_true, decide_eq_true_iff, decide_eq_true_iff] at hcites
      obtain ⟨hcited, hsuccess⟩ := hcites
      obtain ⟨claim, A, B, hclaim, hlog, hrec, hfirst⟩ := boundary_eq_some.1 hbound
      obtain ⟨pre, mid, rfl, hsource, htime, hlate⟩ := (latestCheck_eq_some hbound hlog).1 hlatest
      have hvalid : t.claimEvidenceValid = true := by
        by_contra hnot
        rw [cited, if_neg hnot] at hcited
        cases hcited
      have hlog' : t.observations = pre ++ check :: (mid ++ finish :: B) := by
        rw [hlog, List.append_assoc, List.cons_append]
      refine ⟨claim, pre, mid, B, check, finish, ⟨⟨hclaim, hlog', hrec, hfirst, hsource, hsuccess,
        ((mem_cited hclaim hvalid).1 hcited).2⟩, htime, hlate,
        ((claimEvidenceValid_iff hclaim hbound hlog).1 hvalid).2, ?_⟩⟩
      intro o ho hproposal hafter hbefore
      have hobs : o ∈ t.observations := by
        rw [hlog', List.mem_append, List.mem_cons, List.mem_append]
        exact .inr (.inr (.inl ho))
      have hmem : o ∈ t.proposals := List.mem_filter.2 ⟨hobs, decide_eq_true hproposal⟩
      have hleft : t.before check o = true :=
        (before_left hlog' hobs).2 ⟨List.mem_append_left _ ho, hafter⟩
      have hright : t.before o finish = true := (before_right hlog hobs).2
        ⟨List.mem_append_right _ (List.mem_cons_of_mem _ ho), hbefore⟩
      have hnot := hunsent o hmem
      rw [hleft, hright] at hnot
      simpa using hnot
    · cases h
  · rintro ⟨claim, pre, mid, post, check, finish, hc⟩
    have hlog : t.observations = (pre ++ check :: mid) ++ finish :: post := by
      rw [hc.log, List.append_assoc, List.cons_append]
    have hbound : t.boundary = some finish :=
      boundary_eq_some.2 ⟨claim, _, _, hc.claimed, hlog, hc.recorded, hc.first⟩
    have hlatest : t.latestCheck = some check :=
      (latestCheck_eq_some hbound hlog).2 ⟨pre, mid, rfl, hc.verification, hc.timely, hc.latest⟩
    have hvalid : t.claimEvidenceValid = true := (claimEvidenceValid_iff hc.claimed hbound hlog).2
      ⟨List.ne_nil_of_mem hc.cited, hc.evidence⟩
    have hcheck : check ∈ t.observations := by
      rw [hc.log]
      exact List.mem_append_right _ List.mem_cons_self
    have hcited : check ∈ t.cited := (mem_cited hc.claimed hvalid).2 ⟨hcheck, hc.cited⟩
    unfold citedVerification
    rw [hlatest, hbound]
    dsimp only
    rw [Bool.and_eq_true, Bool.not_eq_true', List.any_eq_false, citesLatest, hlatest]
    refine ⟨?_, fun o ho => ?_⟩
    · dsimp only
      rw [Bool.and_eq_true, decide_eq_true_iff, decide_eq_true_iff]
      exact ⟨hcited, hc.success⟩
    · obtain ⟨hobs, hproposal⟩ := List.mem_filter.1 ho
      rw [Bool.and_eq_true, Bool.and_eq_true, not_and]
      rintro ⟨hleft, hright⟩
      obtain ⟨hafter, hle⟩ := (before_left hc.log hobs).1 hleft
      obtain ⟨hA, hle'⟩ := (before_right hlog hobs).1 hright
      -- the record stands after the verification and before the claim
      have hmid : o ∈ mid := by
        have hlt := (of_decide_eq_true hleft).1
        rw [position_eq hc.log] at hlt
        rcases List.mem_append.1 hA with hpre | hrest
        · have := position_lt_length hc.log hpre
          omega
        · rcases List.mem_cons.1 hrest with rfl | hmid
          · rw [position_eq hc.log] at hlt
            omega
          · exact hmid
      rw [hc.unsent o hmid (of_decide_eq_true hproposal) hle hle']
      exact Bool.false_ne_true

end Trial

/-! ## Credit and freshness -/

/-- The log up to a verification and the claim, which comes after it. -/
theorem Window.split {t : Trial} {claim : Claim} {pre mid post : List Observation}
    {check finish : Observation} (h : Window t claim pre mid post check finish) :
    t.observations = (pre ++ check :: mid) ++ finish :: post := by
  rw [h.log, List.append_assoc, List.cons_append]

/-- There is one first record of the claim. -/
theorem Window.unique {t : Trial} {claim claim' : Claim} {pre mid post pre' mid' post' : List Observation}
    {check finish check' finish' : Observation} (h : Window t claim pre mid post check finish)
    (h' : Window t claim' pre' mid' post' check' finish') :
    claim' = claim ∧ finish' = finish ∧ pre' ++ check' :: mid' = pre ++ check :: mid := by
  have hclaim : claim' = claim := Option.some.inj (h'.claimed.symm.trans h.claimed)
  have hb := Trial.boundary_eq_some.2 ⟨claim, _, _, h.claimed, h.split, h.recorded, h.first⟩
  have hb' := Trial.boundary_eq_some.2 ⟨claim', _, _, h'.claimed, h'.split, h'.recorded, h'.first⟩
  have hfinish : finish' = finish := Option.some.inj (hb'.symm.trans hb)
  have hlength := Trial.position_eq h'.split
  rw [hfinish, Trial.position_eq h.split] at hlength
  exact ⟨hclaim, hfinish, (List.append_inj (h'.split.symm.trans h.split) hlength.symm).1⟩

/-- Where the last verification is fresh, it is the one that credit was given for. -/
theorem Credited.agrees {t : Trial} {claim : Claim} {pre mid post pre' mid' post' : List Observation}
    {check finish check' : Observation} (hc : Credited t claim pre mid post check finish)
    (hw : Window t claim pre' mid' post' check' finish)
    (hlast : ∀ o ∈ mid', o.source ≠ "verify_recovery") : check' = check ∧ mid' = mid := by
  obtain ⟨-, -, hlog⟩ := hc.toWindow.unique hw
  rcases List.append_eq_append_iff.1 hlog with ⟨as, -, heq⟩ | ⟨bs, -, heq⟩
  · cases as with
    | nil => exact List.cons.inj heq
    | cons a as =>
        -- the verification of `hc` would stand after the last one
        have hmem : check ∈ mid' := by
          rw [(List.cons.inj heq).2]
          exact List.mem_append_right _ List.mem_cons_self
        exact absurd hc.verification (hlast check hmem)
  · cases bs with
    | nil =>
        obtain ⟨hcheck, hmid⟩ := List.cons.inj heq
        exact ⟨hcheck.symm, hmid.symm⟩
    | cons b bs =>
        -- the last verification is stamped later than the claim, so it could not be cited
        have hmem : check' ∈ mid := by
          rw [(List.cons.inj heq).2]
          exact List.mem_append_right _ List.mem_cons_self
        have hlate := hc.latest check' hmem hw.verification
        obtain ⟨o, ho, hid, htime⟩ := hc.evidence _ hw.cited
        have hobs : o ∈ t.observations := by
          rw [hc.split]
          exact List.mem_append_left _ ho
        have hobs' : check' ∈ t.observations := by
          rw [hw.log]
          exact List.mem_append_right _ List.mem_cons_self
        rw [Trial.eq_of_id hobs hobs' hid] at htime
        omega

/-- Credit is given for a fresh verification, or a record was overlooked. -/
theorem credit_fresh_iff {t : Trial} :
    (t.citedVerification = true → Fresh t) ↔ ¬ Overlooked t := by
  constructor
  · rintro hfresh ⟨claim, pre, mid, post, check, finish, hc, o, ho, hhidden⟩
    obtain ⟨claim', pre', mid', post', check', finish', hw, hlast, hunsent⟩ :=
      hfresh (Trial.citedVerification_iff.2 ⟨_, _, _, _, _, _, hc⟩)
    obtain ⟨rfl, rfl, -⟩ := hc.toWindow.unique hw
    obtain ⟨rfl, rfl⟩ := hc.agrees hw hlast
    rcases hhidden with ⟨hsource, -⟩ | ⟨hsource, hsent, -⟩
    · exact hlast o ho hsource
    · exact hunsent o ho hsource hsent
  · intro hnone hcredit
    obtain ⟨claim, pre, mid, post, check, finish, hc⟩ := Trial.citedVerification_iff.1 hcredit
    refine ⟨claim, pre, mid, post, check, finish, hc.toWindow, fun o ho hsource => ?_,
      fun o ho hsource hsent => ?_⟩
    · exact hnone ⟨_, _, _, _, _, _, hc, o, ho, .inl ⟨hsource, hc.latest o ho hsource⟩⟩
    · by_cases hafter : check.time ≤ o.time
      · by_cases hbefore : o.time ≤ finish.time
        · have := hc.unsent o ho hsource hafter hbefore
          rw [hsent.sent] at this
          cases this
        · exact hnone ⟨_, _, _, _, _, _, hc, o, ho, .inr ⟨hsource, hsent, .inr (not_le.1 hbefore)⟩⟩
      · exact hnone ⟨_, _, _, _, _, _, hc, o, ho, .inr ⟨hsource, hsent, .inl (not_le.1 hafter)⟩⟩

/-- A trial in which no clock ran backwards overlooks nothing. -/
theorem not_overlooked_of_sorted {t : Trial}
    (h : (t.observations.map Observation.time).Pairwise (· ≤ ·)) : ¬ Overlooked t := by
  rintro ⟨claim, pre, mid, post, check, finish, hc, o, ho, hhidden⟩
  rw [hc.log, List.pairwise_map, List.pairwise_append] at h
  obtain ⟨-, hrest, -⟩ := h
  have hafter : check.time ≤ o.time :=
    (List.pairwise_cons.1 hrest).1 o (List.mem_append_left _ ho)
  have hbefore : o.time ≤ finish.time :=
    (List.pairwise_append.1 (List.pairwise_cons.1 hrest).2).2.2 o ho finish List.mem_cons_self
  rcases hhidden with ⟨-, hlt⟩ | ⟨-, -, hlt | hlt⟩
  · omega
  · omega
  · omega

/-- Success of a trial that is to end repaired or healthy takes the credit. -/
theorem citedVerification_of_success {t : Trial} {expectedBehavior : String}
    {uncertainty : List Reconciliation} (h : t.success expectedBehavior uncertainty = true)
    (he : expectedBehavior ∈ ["repair", "healthy", "reconcile"]) : t.citedVerification = true := by
  unfold Trial.success at h
  simp only [List.mem_cons, List.not_mem_nil, or_false] at he
  rcases he with rfl | rfl | rfl
  · simp only [if_true, Bool.and_eq_true] at h
    exact h.1.1.2
  · simp only [String.reduceEq, if_false, if_true, Bool.and_eq_true] at h
    exact h.1.2
  · simp only [String.reduceEq, if_false, if_true, Bool.and_eq_true] at h
    exact h.1.2

/-- **The scorer and the freshness of verifications.**  Of a trial that is scored, credit for
a cited verification, and success where it is needed, mean that the verification is fresh
in the log, exactly when the timestamps hide no record from the score. -/
theorem verification_freshness {fromisoformat : FromIsoFormat} {expectedBehavior variant : String}
    {claim verification operations observations : Json} {score : Score}
    (hok : scoreTrial fromisoformat expectedBehavior variant claim verification operations
      observations = .ok score) :
    ∃ t, validate fromisoformat expectedBehavior variant claim verification operations observations =
        .ok t ∧
      ((score.successfulVerificationCited = true ∨
          score.taskSuccess = some true ∧ expectedBehavior ∈ ["repair", "healthy", "reconcile"] →
        Fresh t) ↔ ¬ Overlooked t) := by
  obtain ⟨t, ht, hscore⟩ := bind_eq_ok.1 hok
  refine ⟨t, ht, ?_⟩
  have hs : t.score expectedBehavior variant = .ok score := by
    cases hs : t.score expectedBehavior variant with
    | error e => rw [hs] at hscore; cases hscore
    | ok score' => rw [hs] at hscore; cases hscore; rfl
  obtain ⟨uncertainty, -, hret⟩ := bind_eq_ok.1 hs
  have hcited : score.successfulVerificationCited = t.citedVerification := by
    cases hret
    rfl
  have hsuccess : score.taskSuccess = some true →
      t.success expectedBehavior uncertainty.reduceOption = true := by
    cases hret
    dsimp only
    intro h
    split at h
    · cases h
    · exact Option.some.inj h
  rw [← credit_fresh_iff, hcited]
  constructor
  · exact fun h hc => h (.inl hc)
  · rintro h (hc | ⟨htask, he⟩)
    · exact h hc
    · exact h (citedVerification_of_success (hsuccess htask) he)

/-! A trial of a healthy service, with a second verification that fails. -/

/-- The timestamps of the trial, as the platform reads them. -/
def trialClock : FromIsoFormat := fun s =>
  match [("2026-09-23T00:00:01+00:00", 1790121601000000), ("2026-09-23T00:00:02+00:00",
    1790121602000000), ("2026-09-23T00:00:09+00:00", 1790121609000000)].lookup s with
  | some μs => .ok (.aware μs)
  | none => .error (.valueError "Invalid isoformat string")

def trialClaim : Claim := ⟨"healthy", "Checked", ["observation-1"]⟩

def trialClaimFields : Dict := [("outcome", .str "healthy"), ("reason", .str "Checked"),
  ("evidence_ids", .arr [.str "observation-1"])]

/-- An entry of the log. -/
def trialEntry (id source stamp : String) (payload : Dict) : Json := .obj [
  ("observation_id", .str id), ("run_id", .str "run-test"), ("timestamp", .str stamp),
  ("source", .str source), ("payload", .obj payload)]

def trialSuccess : Json := trialEntry "observation-1" "verify_recovery" "2026-09-23T00:00:01+00:00"
  [("verdict", .str "verified_success")]

/-- The failed verification, stamped later than the claim that follows it in the log. -/
def trialFailure : Json := trialEntry "observation-2" "verify_recovery" "2026-09-23T00:00:09+00:00"
  [("verdict", .str "verified_failure")]

def trialFinish : Json := trialEntry "observation-3" "finish" "2026-09-23T00:00:02+00:00" trialClaimFields

/-- The score of the trial with the observations that are given. -/
def trialScore (observations : List Json) : Except Failure Score :=
  scoreTrial trialClock "healthy" "basic" (.obj trialClaimFields)
    (.obj [("verdict", .str "verified_success")]) (.arr []) (.arr observations)

def trialValidate (observations : List Json) : Except Failure Trial :=
  validate trialClock "healthy" "basic" (.obj trialClaimFields)
    (.obj [("verdict", .str "verified_success")]) (.arr []) (.arr observations)

theorem verification_freshness_trial :
    ∃ score t, trialScore [trialSuccess, trialFinish] = .ok score ∧
      trialValidate [trialSuccess, trialFinish] = .ok t ∧
      score.successfulVerificationCited = true ∧ Fresh t := by
  have hcredit : (trialScore [trialSuccess, trialFinish]).map Score.successfulVerificationCited =
      .ok true := by decide +kernel
  obtain ⟨score, hscore, hcited⟩ := map_eq_ok.1 hcredit
  obtain ⟨t, ht, hiff⟩ := verification_freshness hscore
  refine ⟨score, t, hscore, ht, hcited, hiff.2 (not_overlooked_of_sorted ?_) (.inl hcited)⟩
  have hsorted : (trialValidate [trialSuccess, trialFinish]).map
      (fun t => t.observations.map Observation.time) = .ok [1790121601000000, 1790121602000000] := by
    decide +kernel
  obtain ⟨t', ht', htimes⟩ := map_eq_ok.1 hsorted
  rw [show trialValidate [trialSuccess, trialFinish] = .ok t from ht] at ht'
  cases ht'
  rw [htimes]
  decide

def trialChecked : Observation :=
  ⟨"observation-1", "verify_recovery", [("verdict", .str "verified_success")], "run-test",
    1790121601000000⟩

def trialFailed : Observation :=
  ⟨"observation-2", "verify_recovery", [("verdict", .str "verified_failure")], "run-test",
    1790121609000000⟩

def trialFinished : Observation :=
  ⟨"observation-3", "finish", trialClaimFields, "run-test", 1790121602000000⟩

/-- The trial as it is validated, with all three records. -/
def trialHidden : Trial where
  claim := some trialClaim
  verdict := some "verified_success"
  operations := []
  observations := [trialChecked, trialFailed, trialFinished]
  operationsNodup := List.nodup_nil
  nodup := by decide

/-- The failed verification before the claim is hidden by its timestamp. -/
theorem verification_overlooked :
    ∃ score, trialScore [trialSuccess, trialFailure, trialFinish] = .ok score ∧
      trialValidate [trialSuccess, trialFailure, trialFinish] = .ok trialHidden ∧
      score.successfulVerificationCited = true ∧ score.taskSuccess = some true ∧
      ¬ Fresh trialHidden := by
  have hcredit : (trialScore [trialSuccess, trialFailure, trialFinish]).map
      (fun score => (score.successfulVerificationCited, score.taskSuccess)) =
      .ok (true, some true) := by decide +kernel
  obtain ⟨score, hscore, hpair⟩ := map_eq_ok.1 hcredit
  obtain ⟨hcited, htask⟩ := Prod.mk.inj hpair
  refine ⟨score, hscore, by decide +kernel, hcited, htask, fun hfresh => ?_⟩
  have hwindow : Window trialHidden trialClaim [] [trialFailed] [] trialChecked trialFinished :=
    ⟨rfl, rfl, by decide, by decide, rfl, rfl, by decide⟩
  have hcredited : Credited trialHidden trialClaim [] [trialFailed] [] trialChecked trialFinished :=
    ⟨hwindow, by decide, by decide, by decide, by decide⟩
  refine credit_fresh_iff.1 (fun _ => hfresh) ⟨_, _, _, _, _, _, hcredited, trialFailed,
    List.mem_singleton_self _, .inl ⟨rfl, by decide⟩⟩

end AutonomyLab.Scoring
