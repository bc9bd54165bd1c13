import Mathlib.Data.List.Perm.Basic
import AutonomyLab.Scoring.Score
import AutonomyLab.Store.Table

/-!
# The order of the operations

The operations of a trial come from a journal, in an order that means nothing.  Two
trials that differ in that order only are counted alike.

* `Reordered` — the relation between two such trials.
* `Reordered.opById` — their tables of operations have the same rows; from this, what
  every pass over the operations finds.
* `validate_perm` — operations that pass validation pass it in any order.
-/

namespace AutonomyLab.Scoring

open Json Store

/-! ## Loops over permuted lists -/

/-- A loop that raises nothing raises nothing in any order. -/
theorem mapM_perm {ε α β : Type} {f : α → Except ε β} {xs xs' : List α} {ys : List β}
    (h : xs.Perm xs') (hys : xs.mapM f = .ok ys) :
    ∃ ys', xs'.mapM f = .ok ys' ∧ ys.Perm ys' := by
  simp only [mapM_eq_ok] at hys ⊢
  induction h generalizing ys with
  | nil =>
      cases ys with
      | nil => exact ⟨[], rfl, .nil⟩
      | cons y ys => cases hys
  | cons x _ ih =>
      cases ys with
      | nil => cases hys
      | cons y ys =>
          obtain ⟨hy, hys⟩ := List.cons.inj hys
          obtain ⟨ys', hys', hperm⟩ := ih hys
          exact ⟨y :: ys', by rw [List.map_cons, List.map_cons, hy, hys'], hperm.cons y⟩
  | swap x x' _ =>
      cases ys with
      | nil => cases hys
      | cons y ys =>
          obtain ⟨hy, hys⟩ := List.cons.inj hys
          cases ys with
          | nil => cases hys
          | cons y' ys =>
              obtain ⟨hy', hys⟩ := List.cons.inj hys
              refine ⟨y' :: y :: ys, ?_, .swap y' y ys⟩
              rw [List.map_cons, List.map_cons, hy, hy', hys]
              rfl
  | trans _ _ ih ih' =>
      obtain ⟨ys', hys', hperm⟩ := ih hys
      obtain ⟨ys'', hys'', hperm'⟩ := ih' hys'
      exact ⟨ys'', hys'', hperm.trans hperm'⟩

/-- A lookup by a key that occurs once does not depend on the order. -/
theorem lookup_perm {rows rows' : List (String × Dict)} (h : rows.Perm rows')
    (hnodup : (rows.map Prod.fst).Nodup) (id : String) : rows.lookup id = rows'.lookup id := by
  have hnodup' : (rows'.map Prod.fst).Nodup := (h.map _).nodup_iff.1 hnodup
  refine Option.ext fun d => ?_
  have hleft := Table.find?_eq_some (k := id) (r := d) (t := ⟨rows, hnodup⟩)
  have hright := Table.find?_eq_some (k := id) (r := d) (t := ⟨rows', hnodup'⟩)
  exact hleft.trans ((h.mem_iff).trans hright.symm)

/-! ## Two trials -/

/-- The trials differ in the order of their operations. -/
structure Reordered (t t' : Trial) : Prop where
  claim : t'.claim = t.claim
  verdict : t'.verdict = t.verdict
  observations : t'.observations = t.observations
  operations : t.operations.Perm t'.operations

/-- Two tables of operations with the same rows. -/
structure SameRows (acc acc' : List (String × Dict) × List String) : Prop where
  rows : acc.1.Perm acc'.1
  missing : acc.2 = acc'.2
  nodup : (acc.1.map Prod.fst).Nodup

theorem SameRows.lookup {acc acc' : List (String × Dict) × List String} (h : SameRows acc acc')
    (id : String) : acc.1.lookup id = acc'.1.lookup id := lookup_perm h.rows h.nodup id

theorem SameRows.addMissing {acc acc' : List (String × Dict) × List String} (h : SameRows acc acc')
    (o : Observation) : SameRows (addMissing acc o) (Scoring.addMissing acc' o) := by
  unfold Scoring.addMissing
  split
  · rename_i id hid
    rw [← h.lookup id]
    split
    · rename_i hnew
      refine ⟨h.rows.append_right _, by rw [h.missing], ?_⟩
      rw [List.map_append, List.map_singleton, List.nodup_append]
      refine ⟨h.nodup, List.nodup_singleton _, ?_⟩
      intro a ha b hb hab
      rw [List.mem_singleton.1 hb] at hab
      subst hab
      have habsent := Table.find?_eq_none (k := a) (t := ⟨acc.1, h.nodup⟩)
      exact habsent.1 (Option.isNone_iff_eq_none.1 hnew.1) ha
    · exact h
  · exact h

namespace Reordered

variable {t t' : Trial} (h : Reordered t t')
include h

theorem proposals : t'.proposals = t.proposals := by
  rw [Trial.proposals, Trial.proposals, h.observations]

theorem opById : SameRows t.opById t'.opById := by
  have hfold : ∀ (os : List Observation) (acc acc' : List (String × Dict) × List String),
      SameRows acc acc' → SameRows (os.foldl addMissing acc) (os.foldl addMissing acc') := by
    intro os
    induction os with
    | nil => exact fun _ _ hacc => hacc
    | cons o os ih => exact fun _ _ hacc => ih _ _ (hacc.addMissing o)
  unfold Trial.opById
  rw [h.proposals]
  refine hfold _ _ _ ⟨h.operations.map _, rfl, ?_⟩
  rw [List.map_map]
  exact t.operationsNodup

theorem operationViews : t.operationViews.Perm t'.operationViews := h.opById.rows.map _

theorem operationOf (payload default : Dict) :
    t'.operationOf payload default = t.operationOf payload default := by
  unfold Trial.operationOf
  split
  · rw [h.opById.lookup]
  · rfl

theorem proposalIds : t'.proposalIds = t.proposalIds := by
  rw [Trial.proposalIds, Trial.proposalIds, h.proposals]

theorem reasons : t.reasons.Perm t'.reasons := by
  unfold Trial.reasons
  rw [h.proposals, h.proposalIds]
  simp only [h.operationOf]
  exact ((h.operationViews.filter _).map _).append_left _

theorem attemptsWith (reasons : List String) : t'.attemptsWith reasons = t.attemptsWith reasons :=
  (h.reasons.countP_eq _).symm

/-! What is read off the log does not see the operations. -/

theorem position : t'.position = t.position := by
  funext id
  rw [Trial.position, Trial.position, h.observations]

theorem before (o boundary : Observation) : t'.before o boundary = t.before o boundary :=
  decide_eq_decide.2 (by rw [h.position])

theorem byId : t'.byId = t.byId := by
  funext id
  rw [Trial.byId, Trial.byId, h.observations]

theorem boundary : t'.boundary = t.boundary := by
  simp only [Trial.boundary, h.claim, h.observations]

theorem citedRecords : t'.citedRecords = t.citedRecords := by
  have hids : t'.claimIds = t.claimIds := by rw [Trial.claimIds, Trial.claimIds, h.claim]
  rw [Trial.citedRecords, Trial.citedRecords, hids, h.byId]

theorem claimEvidenceValid : t'.claimEvidenceValid = t.claimEvidenceValid := by
  simp only [Trial.claimEvidenceValid, h.citedRecords, h.boundary, h.before]

theorem cited : t'.cited = t.cited := by
  simp only [Trial.cited, h.claimEvidenceValid, h.citedRecords]

theorem latestCheck : t'.latestCheck = t.latestCheck := by
  simp only [Trial.latestCheck, h.boundary, h.observations, h.before]

theorem citesLatest (verdict : String) : t'.citesLatest verdict = t.citesLatest verdict := by
  simp only [Trial.citesLatest, h.latestCheck, h.cited]

theorem citedVerification : t'.citedVerification = t.citedVerification := by
  simp only [Trial.citedVerification, Trial.mayHaveBeenSent, h.latestCheck, h.boundary,
    h.citesLatest, h.proposals, h.before, h.operationOf]

theorem proposalCoverage (operation : Dict) :
    t'.proposalCoverage operation = t.proposalCoverage operation := by
  simp only [Trial.proposalCoverage, h.proposals, h.byId, h.before]

theorem lookup (operation : Dict) (origin terminal : Observation) (os : List Observation) :
    t'.lookup operation origin terminal os = t.lookup operation origin terminal os := by
  induction os with
  | nil => rfl
  | cons o os ih => simp only [Trial.lookup, h.before, ih]

theorem uncertaintyCoverage (terminal : Option Observation) :
    t'.uncertaintyCoverage terminal = t.uncertaintyCoverage terminal := by
  funext operation
  simp only [Trial.uncertaintyCoverage, h.observations, h.lookup]

theorem coverage : (t.operationViews.map t.proposalCoverage).Perm
    (t'.operationViews.map t'.proposalCoverage) := by
  have heq : t'.proposalCoverage = t.proposalCoverage := funext h.proposalCoverage
  rw [heq]
  exact h.operationViews.map _

theorem count (p : Dict → Bool) : t'.operationViews.countP p = t.operationViews.countP p :=
  (h.operationViews.countP_eq _).symm

theorem success {uncertainty uncertainty' : List Reconciliation}
    (hu : uncertainty.Perm uncertainty') (expectedBehavior : String) :
    t'.success expectedBehavior uncertainty' = t.success expectedBehavior uncertainty := by
  have hcoverage : (t'.operationViews.map t'.proposalCoverage).all Coverage.covered =
      (t.operationViews.map t.proposalCoverage).all Coverage.covered := h.coverage.all_eq.symm
  have hsafety : t'.reasons.any (fun attempt => attempt.any unsafeReason) =
      t.reasons.any (fun attempt => attempt.any unsafeReason) := h.reasons.any_eq.symm
  unfold Trial.success
  simp only [h.claim, h.verdict, h.count, h.claimEvidenceValid, h.cited, h.boundary, hsafety,
    ← h.opById.missing, h.citedVerification, hcoverage, hu.all_eq, h.citesLatest, h.proposalIds]

end Reordered

/-! ## The two scores -/

/-- The scores differ in the order of the lists that have an entry for each operation. -/
structure SameScore (score score' : Score) : Prop where
  evidenceCoverage : score.evidenceCoverage.Perm score'.evidenceCoverage
  uncertaintyReconciliation :
    score.uncertaintyReconciliation.Perm score'.uncertaintyReconciliation
  rest : { score' with
    evidenceCoverage := score.evidenceCoverage
    uncertaintyReconciliation := score.uncertaintyReconciliation } = score

/-- **The order of the operations does not matter.** -/
theorem Reordered.score {t t' : Trial} (h : Reordered t t') {expectedBehavior variant : String}
    {score : Score} (hs : t.score expectedBehavior variant = .ok score) :
    ∃ score', t'.score expectedBehavior variant = .ok score' ∧ SameScore score score' := by
  obtain ⟨uncertainty, hu, hret⟩ := bind_eq_ok.1 hs
  obtain ⟨uncertainty', hu', hperm⟩ := mapM_perm h.operationViews hu
  have hreduce : uncertainty.reduceOption.Perm uncertainty'.reduceOption := hperm.filterMap _
  refine ⟨_, bind_eq_ok.2 ⟨uncertainty', ?_, rfl⟩, ?_⟩
  · rw [h.boundary, h.uncertaintyCoverage]
    exact hu'
  · have hsafety : t'.reasons.countP (fun attempt => attempt.any unsafeReason) =
        t.reasons.countP (fun attempt => attempt.any unsafeReason) := (h.reasons.countP_eq _).symm
    cases hret
    refine ⟨h.coverage, hreduce, ?_⟩
    simp only [h.claim, h.verdict, h.success hreduce, h.citedVerification, h.boundary, hsafety,
      h.count, h.claimEvidenceValid, h.cited, h.attemptsWith, h.proposalIds, h.proposals,
      ← h.opById.missing]

/-! ## Validation -/

/-- The runs that an operation record names. -/
def requestRuns (fs : Dict) : Except Failure (List String) :=
  let runIds := (text? (fetch "run_id" fs)).toList
  match fetch "request" fs with
  | .null => .ok runIds
  | value => match Broker.Proposal.modelValidate value with
      | none => .error .validationError
      | some request =>
          if request.operationId.1 ≠ operationId fs then
            refuse "Operation request ID does not match its durable record"
          else if runIds.any (· ≠ request.runId.1) then
            refuse "Operation request run does not match its durable record"
          else .ok (request.runId.1 :: runIds)

theorem validateOperation_obj (fs : Dict) (ids : List String) : validateOperation (.obj fs) ids =
    if ¬ isOperation fs then refuse "Malformed operation record"
    else if h : operationId fs ∈ ids then refuse "Operation records must have unique IDs"
    else (requestRuns fs).map fun runIds => (⟨fs, h⟩, runIds) := by
  unfold validateOperation
  dsimp only
  split
  · rfl
  split
  · rfl
  unfold requestRuns
  dsimp only
  cases fetch "request" fs with
  | null => rfl
  | obj request =>
      dsimp only
      cases Broker.Proposal.modelValidate (.obj request) with
      | none => rfl
      | some proposal =>
          dsimp only
          split
          · rfl
          split
          · rfl
          · rfl
  | _ => rfl

/-- What is read of an operation, whatever came before it. -/
def operationRecord : Json → Except Failure (Dict × List String)
  | .obj fs => if ¬ isOperation fs then refuse "Malformed operation record"
      else (requestRuns fs).map fun runIds => (fs, runIds)
  | _ => refuse "Malformed operation record"

theorem operationRecord_of_ok {operation : Json} {ids : List String}
    {r : { fs : Dict // operationId fs ∉ ids } × List String}
    (h : validateOperation operation ids = .ok r) : operationRecord operation = .ok (r.1.1, r.2) := by
  cases operation with
  | obj fs =>
      rw [validateOperation_obj] at h
      rw [operationRecord]
      split at h
      · cases h
      · rename_i hshape
        rw [if_neg hshape]
        split at h
        · cases h
        · obtain ⟨runIds, hruns, rfl⟩ := map_eq_ok.1 h
          rw [hruns]
          rfl
  | _ => cases h

theorem validateOperation_of_record {operation : Json} {fs : Dict} {runIds : List String}
    (h : operationRecord operation = .ok (fs, runIds)) {ids : List String}
    (hnew : operationId fs ∉ ids) : validateOperation operation ids = .ok (⟨fs, hnew⟩, runIds) := by
  cases operation with
  | obj fs' =>
      rw [operationRecord] at h
      split at h
      · cases h
      · rename_i hshape
        obtain ⟨runIds', hruns, heq⟩ := map_eq_ok.1 h
        cases heq
        rw [validateOperation_obj, if_neg hshape, dif_neg hnew, hruns]
        rfl
  | _ => cases h

theorem validateOperations_eq_ok {ids : List String} {operations : List Json}
    {r : { fss : List Dict // (fss.map operationId).Nodup ∧ ∀ fs ∈ fss, operationId fs ∉ ids } ×
      List String} (h : validateOperations ids operations = .ok r) :
    ∃ ps, operations.mapM operationRecord = .ok ps ∧ r.1.1 = ps.map Prod.fst ∧
      r.2 = ps.flatMap Prod.snd := by
  induction operations generalizing ids with
  | nil =>
      cases h
      exact ⟨[], rfl, rfl, rfl⟩
  | cons operation operations ih =>
      obtain ⟨⟨⟨fs, hfs⟩, runIds⟩, hop, h⟩ := bind_eq_ok.1 h
      obtain ⟨⟨⟨rest, hnodup, hnew⟩, runIds'⟩, hrest, h⟩ := bind_eq_ok.1 h
      cases h
      obtain ⟨ps, hps, hfst, hsnd⟩ := ih hrest
      refine ⟨(fs, runIds) :: ps, ?_, by rw [List.map_cons, ← hfst], by rw [List.flatMap_cons, ← hsnd]⟩
      rw [mapM_eq_ok] at hps ⊢
      rw [List.map_cons, List.map_cons, operationRecord_of_ok hop, hps]

theorem validateOperations_of_records {ids : List String} {operations : List Json}
    {ps : List (Dict × List String)} (h : operations.mapM operationRecord = .ok ps)
    (hnodup : ((ps.map Prod.fst).map operationId).Nodup)
    (hnew : ∀ fs ∈ ps.map Prod.fst, operationId fs ∉ ids) :
    ∃ r, validateOperations ids operations = .ok r ∧ r.1.1 = ps.map Prod.fst ∧
      r.2 = ps.flatMap Prod.snd := by
  induction operations generalizing ids ps with
  | nil =>
      cases h
      exact ⟨_, rfl, rfl, rfl⟩
  | cons operation operations ih =>
      rw [List.mapM_cons] at h
      obtain ⟨⟨fs, runIds⟩, hop, h⟩ := bind_eq_ok.1 h
      obtain ⟨ps', hps, h⟩ := bind_eq_ok.1 h
      cases h
      rw [List.map_cons, List.map_cons, List.nodup_cons] at hnodup
      have hfs : operationId fs ∉ ids := hnew fs List.mem_cons_self
      have hnew' : ∀ fs' ∈ ps'.map Prod.fst, operationId fs' ∉ operationId fs :: ids := by
        intro fs' hmem hcons
        rcases List.mem_cons.1 hcons with heq | hold
        · exact hnodup.1 (heq ▸ List.mem_map_of_mem hmem)
        · exact hnew fs' (List.mem_cons_of_mem _ hmem) hold
      obtain ⟨⟨⟨rest, hdistinct, hrest⟩, runIds'⟩, hok, hfst, hsnd⟩ := ih hps hnodup.2 hnew'
      refine ⟨(⟨fs :: rest, nodup_cons_of_new hfs hdistinct hrest⟩, runIds ++ runIds'), bind_eq_ok.2 ⟨_, validateOperation_of_record hop hfs,
        bind_eq_ok.2 ⟨_, hok, rfl⟩⟩, ?_, ?_⟩
      · rw [List.map_cons, ← hfst]
      · rw [List.flatMap_cons, ← hsnd]

/-- The operations and the observations of a trial that is scored are lists. -/
theorem validate_lists {fromisoformat : FromIsoFormat} {expectedBehavior variant : String}
    {claim verification operations observations : Json} {t : Trial}
    (h : validate fromisoformat expectedBehavior variant claim verification operations
      observations = .ok t) : ∃ os os', operations = .arr os ∧ observations = .arr os' := by
  unfold validate at h
  by_cases he : expectedBehavior ∉ EXPECTED
  · rw [if_pos he] at h
    cases h
  by_cases hv : variant ∉ VARIANTS
  · rw [if_neg he, if_pos hv] at h
    cases h
  rw [if_neg he, if_neg hv] at h
  obtain ⟨verdict, -, h⟩ := bind_eq_ok.1 h
  obtain ⟨claim, -, h⟩ := bind_eq_ok.1 h
  split at h
  · exact ⟨_, _, rfl, rfl⟩
  · cases h

/-- **Operations that pass validation pass it in any order.** -/
theorem validate_perm {fromisoformat : FromIsoFormat} {expectedBehavior variant : String}
    {claim verification observations : Json} {operations operations' : List Json} {t : Trial}
    (hperm : operations.Perm operations')
    (h : validate fromisoformat expectedBehavior variant claim verification (.arr operations)
      observations = .ok t) :
    ∃ t', validate fromisoformat expectedBehavior variant claim verification (.arr operations')
      observations = .ok t' ∧ Reordered t t' := by
  obtain ⟨_, observations, -, rfl⟩ := validate_lists h
  unfold validate at h ⊢
  by_cases he : expectedBehavior ∉ EXPECTED
  · rw [if_pos he] at h
    cases h
  by_cases hv : variant ∉ VARIANTS
  · rw [if_neg he, if_pos hv] at h
    cases h
  rw [if_neg he, if_neg hv] at h ⊢
  obtain ⟨verdict, hverdict, h⟩ := bind_eq_ok.1 h
  obtain ⟨claim, hclaim, h⟩ := bind_eq_ok.1 h
  obtain ⟨⟨⟨fss, hdistinct, hnew⟩, runIds⟩, hoperations, h⟩ := bind_eq_ok.1 h
  obtain ⟨⟨os, hnodup, hos⟩, hobservations, h⟩ := bind_eq_ok.1 h
  dsimp only at h
  split at h
  · cases h
  rename_i hsingle
  cases h
  obtain ⟨ps, hps, hfss, hruns⟩ := validateOperations_eq_ok hoperations
  obtain ⟨ps', hps', hpsperm⟩ := mapM_perm hperm hps
  dsimp only at hfss hruns
  subst hfss hruns
  have hids := hpsperm.map Prod.fst
  obtain ⟨⟨⟨fss', hdistinct', hnew'⟩, runIds'⟩, hoperations', hfss', hruns'⟩ :=
    @validateOperations_of_records [] _ _ hps' ((hids.map operationId).nodup_iff.1 hdistinct)
      fun _ _ => List.not_mem_nil
  dsimp only at hfss' hruns'
  subst hfss' hruns'
  refine ⟨⟨claim, verdict, _, os, hdistinct', hnodup⟩, ?_, rfl, rfl, rfl, hids⟩
  refine bind_eq_ok.2 ⟨_, hverdict, bind_eq_ok.2 ⟨_, hclaim,
    bind_eq_ok.2 ⟨_, hoperations', bind_eq_ok.2 ⟨_, hobservations, ?_⟩⟩⟩⟩
  have hlength : (ps'.flatMap Prod.snd ++ os.map Observation.runId).dedup.length =
      (ps.flatMap Prod.snd ++ os.map Observation.runId).dedup.length :=
    (((hpsperm.flatMap_right _).append_right _).dedup).length_eq.symm
  dsimp only
  rw [hlength, if_neg hsingle]
  rfl

end AutonomyLab.Scoring
