import AutonomyLab.Contract.Operation

/-!
# What the precise repair patch demands, and what it does

The patch of the `contract` arm is twelve operations on a whole resource: tests
of the parts that must not have changed, a copy of the metadata put aside, the
masking of what may have changed, a test of the rest, the restoration of the copy,
and the repair.

* `Guard` — the condition the operations are meant to express, without a patch: the
  current resource agrees with the observed one on `apiVersion`, `kind`, `spec` and
  `status`; its metadata has a version and a heartbeat; and the two metadata are
  equal once version, managed fields and heartbeat are set to constants in both.
* `Repaired` — the resource as it was, with 8080 as the target port of its first
  port and nothing else touched.
* `contract_patch_exact` — **the patch is its specification**: it applies exactly
  under `Guard`, its effect is `Repaired`, and where it does not apply the resource
  is left as it was.
-/

namespace AutonomyLab.Contract

open Json

/-! ## The specification -/

/-- Both documents have the member `key`, with equal values. -/
def Agrees (key : String) (current snapshot : Json) : Prop :=
  ∃ v w, field? key current = some v ∧ field? key snapshot = some w ∧ JsonEq v w

/-- The current resource is the observed one, up to version, managed fields and the
value of the heartbeat. -/
structure Guard (snapshot current : Json) : Prop where
  agrees : ∀ key ∈ ["apiVersion", "kind", "spec", "status"], Agrees key current snapshot
  /-- There are a version and a heartbeat to be masked. -/
  masked : ∃ m annotations, field? "metadata" current = some m ∧
    (field? "resourceVersion" m).isSome ∧ field? "annotations" m = some annotations ∧
    (field? heartbeat annotations).isSome
  same : ∃ mc ms nc ns, field? "metadata" current = some mc ∧
    field? "metadata" snapshot = some ms ∧ normalizedMetadata mc = .ok nc ∧
    normalizedMetadata ms = .ok ns ∧ JsonEq nc ns

/-- `result` is `current` with the target port of its first port set to 8080. -/
def Repaired (current result : Json) : Prop :=
  ∃ fs spec port ports, current = .obj fs ∧ fs.lookup "spec" = some (.obj spec) ∧
    spec.lookup "ports" = some (.arr (.obj port :: ports)) ∧
    result = .obj (setField "spec" (.obj (setField "ports"
      (.arr (.obj (setField "targetPort" (.int 8080) port) :: ports)) spec)) fs)

/-! ## What is known of a snapshot a patch was built from -/

/-- What building the patch establishes about the snapshot, and the patch. -/
structure InScope (snapshot : Json) (ops : List Op) : Prop where
  parts : ∃ fs metadata normalized av kind spec ports status,
    snapshot = .obj fs ∧ fs.lookup "metadata" = some metadata ∧
    normalizedMetadata metadata = .ok normalized ∧ fs.lookup "apiVersion" = some av ∧
    fs.lookup "kind" = some kind ∧ fs.lookup "spec" = some (.obj spec) ∧
    fs.lookup "status" = some status ∧ spec.lookup "ports" = some ports ∧
    PyEq ports (.arr [frozenPort]) ∧
    ops = [
      .test "/apiVersion" av,
      .test "/kind" kind,
      .test "/spec" (.obj spec),
      .test "/status" status,
      .copy "/metadata" "/autonomyLabContractScratch",
      .replace "/metadata/resourceVersion" (.str "<current-version>"),
      .add "/metadata/managedFields" (.arr []),
      .remove "/metadata/annotations/autonomy-lab~1contract-heartbeat",
      .add "/metadata/annotations/autonomy-lab~1contract-heartbeat" (.str "<current-heartbeat>"),
      .test "/metadata" normalized,
      .move "/autonomyLabContractScratch" "/metadata",
      .replace "/spec/ports/0/targetPort" (.int 8080)]

theorem ports_of_scope {snapshot metadata : Json}
    (h : ∀ c ∈ outsideScope snapshot metadata, c = .ok false) :
    ∃ fs spec ports, snapshot = .obj fs ∧ fs.lookup "spec" = some (.obj spec) ∧
      spec.lookup "ports" = some ports ∧ PyEq ports (.arr [frozenPort]) := by
  have hp := h (do
    let spec ← subscript "spec" snapshot
    (get "ports" spec).map fun v => !decide (PyEq v (.arr [frozenPort]))) (by simp [outsideScope])
  obtain ⟨spec, hspec, hp⟩ := bind_eq_ok.1 hp
  obtain ⟨ports, hports, hpe⟩ := map_eq_ok.1 hp
  obtain ⟨fs, rfl, hfs⟩ := subscript_eq_ok hspec
  obtain ⟨gs, rfl, hgs⟩ := get_eq_ok hports
  have heq : PyEq ports (.arr [frozenPort]) := by simpa using hpe
  refine ⟨fs, gs, ports, rfl, hfs, ?_, heq⟩
  cases hl : gs.lookup "ports" with
  | some p => rw [hl] at hgs; exact congrArg some hgs
  | none =>
      -- a missing list of ports reads as `None`, which equals no list
      rw [hl, Option.getD_none] at hgs
      subst hgs
      exact absurd heq (by decide)

theorem inScope_of_repairPatch {snapshot : Json} {ops : List Op}
    (h : repairPatch snapshot .contract = .ok ops) : InScope snapshot ops := by
  obtain ⟨metadata, hm, h⟩ := bind_eq_ok.1 h
  obtain ⟨b, hscope, h⟩ := bind_eq_ok.1 h
  cases b with
  | true => simp at h
  | false =>
      obtain ⟨fs, spec, ports, rfl, hspec, hports, heq⟩ :=
        ports_of_scope (anyTrue_eq_false.1 hscope)
      obtain ⟨tests, htests, h⟩ := bind_eq_ok.1 h
      obtain ⟨normalized, hn, h⟩ := bind_eq_ok.1 h
      simp only [List.mapM_cons, List.mapM_nil] at htests
      obtain ⟨_, hav, htests⟩ := bind_eq_ok.1 htests
      obtain ⟨_, h₁, ht⟩ := bind_eq_ok.1 htests
      obtain ⟨_, hk, h₁⟩ := bind_eq_ok.1 h₁
      obtain ⟨_, h₂, ht₁⟩ := bind_eq_ok.1 h₁
      obtain ⟨_, hs, h₂⟩ := bind_eq_ok.1 h₂
      obtain ⟨_, h₃, ht₂⟩ := bind_eq_ok.1 h₂
      obtain ⟨_, hst, h₃⟩ := bind_eq_ok.1 h₃
      obtain ⟨_, h₄, ht₃⟩ := bind_eq_ok.1 h₃
      obtain ⟨av, hav', rfl⟩ := map_eq_ok.1 hav
      obtain ⟨kind, hk', rfl⟩ := map_eq_ok.1 hk
      obtain ⟨spec', hs', rfl⟩ := map_eq_ok.1 hs
      obtain ⟨status, hst', rfl⟩ := map_eq_ok.1 hst
      cases h₄; cases ht₃; cases ht₂; cases ht₁; cases ht; cases h
      obtain rfl : spec' = .obj spec :=
        Option.some.inj ((subscript_obj.1 hs').symm.trans hspec)
      exact ⟨fs, metadata, normalized, av, kind, spec, ports, status, rfl, subscript_obj.1 hm, hn,
        subscript_obj.1 hav', subscript_obj.1 hk', hspec, subscript_obj.1 hst', hports, heq, rfl⟩

/-! ## The operations, one group at a time -/

section
variable {c : List (String × Json)}

/-- A test of a member of the resource. -/
theorem test_member {p key : String} {v d : Json} (hp : Pointer.tokens p = some [key]) :
    applyOp (.test p v) (.obj c) = some d ↔
      (∃ w, c.lookup key = some w ∧ JsonEq w v) ∧ d = .obj c := by
  rw [applyOp_test hp, resolve]
  cases c.lookup key with
  | none => simp
  | some w =>
      by_cases h : JsonEq w v
      · simp [resolve, h, eq_comm]
      · simp [resolve, h]

/-- Metadata with version, managed fields and heartbeat masked, as the patch does
it: the heartbeat is removed first, so that its absence is noticed. -/
def maskedFields (metadata annotations : List (String × Json)) : List (String × Json) :=
  setField "annotations"
    (.obj (setField heartbeat (.str "<current-heartbeat>") (eraseField heartbeat annotations)))
    (setField "managedFields" (.arr [])
      (setField "resourceVersion" (.str "<current-version>") metadata))

/-- The change of the metadata that the four masking operations make. -/
def mask (m : Json) : Option Json :=
  (((replaceAt ["resourceVersion"] (.str "<current-version>") m).bind
    (addChild "managedFields" (.arr []))).bind
      (modifyAt (removeChild heartbeat) ["annotations"])).bind
        (modifyAt (addChild heartbeat (.str "<current-heartbeat>")) ["annotations"])

theorem apply_mask : applyPatch [
      .replace "/metadata/resourceVersion" (.str "<current-version>"),
      .add "/metadata/managedFields" (.arr []),
      .remove "/metadata/annotations/autonomy-lab~1contract-heartbeat",
      .add "/metadata/annotations/autonomy-lab~1contract-heartbeat" (.str "<current-heartbeat>")]
    (.obj c) = modifyAt mask ["metadata"] (.obj c) := by
  have hr : Pointer.tokens "/metadata/resourceVersion" = some ["metadata", "resourceVersion"] := by
    decide
  have hm : Pointer.tokens "/metadata/managedFields" = some ["metadata", "managedFields"] := by
    decide
  have hh : Pointer.tokens "/metadata/annotations/autonomy-lab~1contract-heartbeat" =
      some ["metadata", "annotations", heartbeat] := by decide
  have h₁ : applyOp (.replace "/metadata/resourceVersion" (.str "<current-version>")) =
      modifyAt (replaceAt ["resourceVersion"] (.str "<current-version>")) ["metadata"] :=
    funext fun d => (applyOp_replace hr).trans (congrFun (modifyAt_cons _ _ _) d)
  have h₂ : applyOp (.add "/metadata/managedFields" (.arr [])) =
      modifyAt (addChild "managedFields" (.arr [])) ["metadata"] :=
    funext fun _ => applyOp_add hm
  have h₃ : applyOp (.remove "/metadata/annotations/autonomy-lab~1contract-heartbeat") =
      modifyAt (modifyAt (removeChild heartbeat) ["annotations"]) ["metadata"] :=
    funext fun d => (applyOp_remove hh).trans (congrFun (modifyAt_cons _ _ _) d)
  have h₄ : applyOp (.add "/metadata/annotations/autonomy-lab~1contract-heartbeat"
      (.str "<current-heartbeat>")) =
      modifyAt (modifyAt (addChild heartbeat (.str "<current-heartbeat>")) ["annotations"])
        ["metadata"] :=
    funext fun d => (applyOp_add hh).trans (congrFun (modifyAt_cons _ _ _) d)
  have happ : ∀ op₁ op₂ op₃ op₄ : Op, applyPatch [op₁, op₂, op₃, op₄] (.obj c) =
      (((applyOp op₁ (.obj c)).bind (applyOp op₂)).bind (applyOp op₃)).bind (applyOp op₄) := by
    intro op₁ op₂ op₃ op₄
    rw [show [op₁, op₂, op₃, op₄] = [op₁] ++ [op₂] ++ [op₃] ++ [op₄] from rfl, applyPatch_append,
      applyPatch_append, applyPatch_append, applyPatch_single, applyPatch_single,
      applyPatch_single, applyPatch_single]
  rw [happ, h₁, h₂, h₃, h₄, modifyAt_bind, modifyAt_bind, modifyAt_bind]
  rfl

theorem mask_not_obj {m : Json} (h : ∀ mf, m ≠ .obj mf) : mask m = none := by
  cases m with
  | obj mf => exact absurd rfl (h mf)
  | arr xs =>
      have : Pointer.index? "resourceVersion" = none := by decide
      simp [mask, replaceAt, modifyAt, this]
  | _ => rfl

/-- Masking an object, read from the outside. -/
theorem mask_obj (mf : List (String × Json)) : mask (.obj mf) =
    (mf.lookup "resourceVersion").bind fun _ => (mf.lookup "annotations").bind fun a =>
      (removeChild heartbeat a).bind fun a' =>
        (addChild heartbeat (.str "<current-heartbeat>") a').map fun a'' =>
          .obj (setField "annotations" a'' (setField "managedFields" (.arr [])
            (setField "resourceVersion" (.str "<current-version>") mf))) := by
  have hl : (setField "managedFields" (.arr [])
      (setField "resourceVersion" (.str "<current-version>") mf)).lookup "annotations" =
        mf.lookup "annotations" := by
    rw [lookup_setField_ne (by decide), lookup_setField_ne (by decide)]
  rw [mask, replaceAt, modifyAt_single]
  cases mf.lookup "resourceVersion" with
  | none => rfl
  | some rv =>
      have : ((some (Json.obj (setField "resourceVersion" (.str "<current-version>") mf))).bind
          (addChild "managedFields" (.arr []))) = some (.obj (setField "managedFields" (.arr [])
            (setField "resourceVersion" (.str "<current-version>") mf))) := rfl
      simp only [Option.bind_some, Option.map_some] at this ⊢
      rw [this, Option.bind_some, modifyAt_bind, modifyAt_single, hl]
      cases mf.lookup "annotations" with
      | none => rfl
      | some a =>
          simp only [Option.bind_some]
          cases removeChild heartbeat a <;> rfl

theorem removeChild_heartbeat {a a' : Json} : removeChild heartbeat a = some a' ↔
    ∃ af, a = .obj af ∧ (af.lookup heartbeat).isSome ∧ a' = .obj (eraseField heartbeat af) := by
  cases a with
  | obj af =>
      simp only [removeChild, Option.map_eq_some_iff, Option.isSome_iff_exists, obj.injEq,
        exists_eq_left']
      constructor
      · rintro ⟨v, hv, rfl⟩
        exact ⟨⟨v, hv⟩, rfl⟩
      · rintro ⟨⟨v, hv⟩, rfl⟩
        exact ⟨v, hv, rfl⟩
  | arr xs =>
      have : Pointer.index? heartbeat = none := by decide
      simp [removeChild, this]
  | _ => simp [removeChild]

/-- The masking succeeds where there is something to mask. -/
theorem mask_eq_some {m d : Json} : mask m = some d ↔
    ∃ mf af, m = .obj mf ∧ (mf.lookup "resourceVersion").isSome ∧
      mf.lookup "annotations" = some (.obj af) ∧ (af.lookup heartbeat).isSome ∧
      d = .obj (maskedFields mf af) := by
  by_cases hm : ∃ mf, m = .obj mf
  · obtain ⟨mf, rfl⟩ := hm
    rw [mask_obj]
    simp only [Option.bind_eq_some_iff, Option.map_eq_some_iff, removeChild_heartbeat]
    constructor
    · rintro ⟨rv, hrv, a, ha, _, ⟨af, rfl, hh, rfl⟩, a'', ha'', rfl⟩
      rw [addChild, Option.some.injEq] at ha''
      subst ha''
      exact ⟨mf, af, rfl, by rw [hrv]; rfl, ha, hh, rfl⟩
    · rintro ⟨_, af, h, hrv, ha, hh, rfl⟩
      obtain rfl := obj.inj h
      obtain ⟨rv, hrv⟩ := Option.isSome_iff_exists.1 hrv
      exact ⟨rv, hrv, _, ha, _, ⟨af, rfl, hh, rfl⟩, _, rfl, rfl⟩
  · rw [mask_not_obj fun mf h => hm ⟨mf, h⟩]
    constructor
    · intro h; cases h
    · rintro ⟨mf, af, rfl, -⟩
      exact absurd ⟨mf, rfl⟩ hm

/-! ## Masked and normalized metadata are compared alike -/

theorem normalizedMetadata_obj {mf af : List (String × Json)}
    (h : mf.lookup "annotations" = some (.obj af)) : normalizedMetadata (.obj mf) =
      .ok (.obj (setField "annotations"
        (.obj (setField heartbeat (.str "<current-heartbeat>") af))
        (setField "managedFields" (.arr [])
          (setField "resourceVersion" (.str "<current-version>") mf)))) := by
  have : subscript "annotations" (.obj (setField "managedFields" (.arr [])
      (setField "resourceVersion" (.str "<current-version>") mf))) = .ok (.obj af) := by
    rw [subscript_obj, lookup_setField_ne (by decide), lookup_setField_ne (by decide), h]
  simp only [normalizedMetadata, this]
  rfl

/-- Removing the heartbeat before setting it makes no difference to the comparison. -/
theorem maskedFields_jsonEq {mf af : List (String × Json)} {n : Json}
    (h : mf.lookup "annotations" = some (.obj af)) (hn : normalizedMetadata (.obj mf) = .ok n) :
    JsonEq (.obj (maskedFields mf af)) n := by
  rw [normalizedMetadata_obj h, Except.ok.injEq] at hn
  subst hn
  have hann : JsonEq
      (.obj (setField heartbeat (.str "<current-heartbeat>") (eraseField heartbeat af)))
      (.obj (setField heartbeat (.str "<current-heartbeat>") af)) := by
    refine jsonEq_obj_iff.2 fun k => ?_
    rw [lookup_setField, lookup_setField, lookup_eraseField]
    by_cases hk : heartbeat = k <;> simp [hk]
  refine jsonEq_obj_iff.2 fun k => ?_
  rw [maskedFields, lookup_setField "annotations", lookup_setField "annotations"]
  by_cases hk : "annotations" = k
  · rw [if_pos hk, if_pos hk, Option.map_some, Option.map_some]
    exact congrArg some hann
  · rw [if_neg hk, if_neg hk]

/-! ## The whole patch -/

/-- The four tests of the resource outside its metadata. -/
theorem apply_tests {av kind spec status d : Json} :
    applyPatch [.test "/apiVersion" av, .test "/kind" kind, .test "/spec" spec,
        .test "/status" status] (.obj c) = some d ↔
      ((∃ w, c.lookup "apiVersion" = some w ∧ JsonEq w av) ∧
        (∃ w, c.lookup "kind" = some w ∧ JsonEq w kind) ∧
        (∃ w, c.lookup "spec" = some w ∧ JsonEq w spec) ∧
        ∃ w, c.lookup "status" = some w ∧ JsonEq w status) ∧ d = .obj c := by
  have hav : Pointer.tokens "/apiVersion" = some ["apiVersion"] := by decide
  have hk : Pointer.tokens "/kind" = some ["kind"] := by decide
  have hsp : Pointer.tokens "/spec" = some ["spec"] := by decide
  have hst : Pointer.tokens "/status" = some ["status"] := by decide
  simp only [applyPatch_cons, Option.bind_eq_some_iff, applyPatch_nil, Option.some.injEq]
  constructor
  · rintro ⟨d₁, h₁, d₂, h₂, d₃, h₃, d₄, h₄, rfl⟩
    obtain ⟨e₁, rfl⟩ := (test_member hav).1 h₁
    obtain ⟨e₂, rfl⟩ := (test_member hk).1 h₂
    obtain ⟨e₃, rfl⟩ := (test_member hsp).1 h₃
    obtain ⟨e₄, rfl⟩ := (test_member hst).1 h₄
    exact ⟨⟨e₁, e₂, e₃, e₄⟩, rfl⟩
  · rintro ⟨⟨e₁, e₂, e₃, e₄⟩, rfl⟩
    exact ⟨_, (test_member hav).2 ⟨e₁, rfl⟩, _, (test_member hk).2 ⟨e₂, rfl⟩, _,
      (test_member hsp).2 ⟨e₃, rfl⟩, _, (test_member hst).2 ⟨e₄, rfl⟩, rfl⟩

/-- The metadata is put aside under a name of its own. -/
theorem apply_copy {d : Json} (hs : c.lookup scratch = none) :
    applyOp (.copy "/metadata" "/autonomyLabContractScratch") (.obj c) = some d ↔
      ∃ m, c.lookup "metadata" = some m ∧ d = .obj (c ++ [(scratch, m)]) := by
  have hm : Pointer.tokens "/metadata" = some ["metadata"] := by decide
  have hsc : Pointer.tokens "/autonomyLabContractScratch" = some [scratch] := by decide
  rw [applyOp_copy hm hsc, resolve]
  cases c.lookup "metadata" with
  | none => simp
  | some m =>
      have : addAt [scratch] m (.obj c) = some (.obj (c ++ [(scratch, m)])) := by
        rw [← setField_of_absent hs]
        rfl
      simp [resolve, this, eq_comm]

/-- What was put aside is restored, and nothing is left of it. -/
theorem apply_move {m m' : Json} (hs : c.lookup scratch = none)
    (hm : c.lookup "metadata" = some m) :
    applyOp (.move "/autonomyLabContractScratch" "/metadata")
      (.obj (setField "metadata" m' c ++ [(scratch, m)])) = some (.obj c) := by
  have hp : Pointer.tokens "/metadata" = some ["metadata"] := by decide
  have hsc : Pointer.tokens "/autonomyLabContractScratch" = some [scratch] := by decide
  have hs' : (setField "metadata" m' c).lookup scratch = none := by
    rw [lookup_setField_ne (by decide), hs]
  have hl : (setField "metadata" m' c ++ [(scratch, m)]).lookup scratch = some m := by
    rw [List.lookup_append, hs', lookup_cons_eq, if_pos rfl, Option.none_or]
  have hrm : removeAt [scratch] (.obj (setField "metadata" m' c ++ [(scratch, m)])) =
      some (.obj (setField "metadata" m' c)) := by
    have : removeAt [scratch] (.obj (setField "metadata" m' c ++ [(scratch, m)])) =
        ((setField "metadata" m' c ++ [(scratch, m)]).lookup scratch).map fun _ =>
          .obj (eraseField scratch (setField "metadata" m' c ++ [(scratch, m)])) := rfl
    rw [this, hl, Option.map_some, eraseField_append_single hs']
  have hadd : addAt ["metadata"] m (.obj (setField "metadata" m' c)) = some (.obj c) := by
    have : addAt ["metadata"] m (.obj (setField "metadata" m' c)) =
        some (.obj (setField "metadata" m (setField "metadata" m' c))) := rfl
    rw [this, setField_setField, setField_of_lookup hm]
  rw [applyOp_move hsc hp (by decide), resolve, hl, Option.bind_some, resolve, Option.bind_some,
    hrm, Option.bind_some, hadd]

/-- **The comparison of the metadata leaves no trace**: putting it aside, masking,
testing and restoring it succeeds where the masked metadata are equal, and then the
resource is as it was. -/
theorem apply_comparison {n d : Json} (hs : c.lookup scratch = none) :
    applyPatch [
      .copy "/metadata" "/autonomyLabContractScratch",
      .replace "/metadata/resourceVersion" (.str "<current-version>"),
      .add "/metadata/managedFields" (.arr []),
      .remove "/metadata/annotations/autonomy-lab~1contract-heartbeat",
      .add "/metadata/annotations/autonomy-lab~1contract-heartbeat" (.str "<current-heartbeat>"),
      .test "/metadata" n,
      .move "/autonomyLabContractScratch" "/metadata"] (.obj c) = some d ↔
    (∃ mf af, c.lookup "metadata" = some (.obj mf) ∧ (mf.lookup "resourceVersion").isSome ∧
      mf.lookup "annotations" = some (.obj af) ∧ (af.lookup heartbeat).isSome ∧
      JsonEq (.obj (maskedFields mf af)) n) ∧ d = .obj c := by
  have hp : Pointer.tokens "/metadata" = some ["metadata"] := by decide
  have hsplit : ∀ o₁ o₂ o₃ o₄ o₅ o₆ o₇ : Op, applyPatch [o₁, o₂, o₃, o₄, o₅, o₆, o₇] (.obj c) =
      (((applyOp o₁ (.obj c)).bind (applyPatch [o₂, o₃, o₄, o₅])).bind (applyOp o₆)).bind
        (applyOp o₇) := by
    intro o₁ o₂ o₃ o₄ o₅ o₆ o₇
    rw [show [o₁, o₂, o₃, o₄, o₅, o₆, o₇] = [o₁] ++ [o₂, o₃, o₄, o₅] ++ [o₆] ++ [o₇] from rfl,
      applyPatch_append, applyPatch_append, applyPatch_append, applyPatch_single,
      applyPatch_single, applyPatch_single]
  have hput : ∀ {m : Json}, c.lookup "metadata" = some m → ∀ m',
      applyPatch [
        .replace "/metadata/resourceVersion" (.str "<current-version>"),
        .add "/metadata/managedFields" (.arr []),
        .remove "/metadata/annotations/autonomy-lab~1contract-heartbeat",
        .add "/metadata/annotations/autonomy-lab~1contract-heartbeat" (.str "<current-heartbeat>")]
        (.obj (c ++ [(scratch, m)])) = some m' ↔
      ∃ m₁, mask m = some m₁ ∧ m' = .obj (setField "metadata" m₁ c ++ [(scratch, m)]) := by
    intro m hm m'
    have hl : (c ++ [(scratch, m)]).lookup "metadata" = some m := by
      rw [List.lookup_append, hm, Option.some_or]
    rw [apply_mask, modifyAt_single, hl, Option.bind_some, Option.map_eq_some_iff]
    refine exists_congr fun m₁ => and_congr_right fun _ => ?_
    rw [setField_append (by rw [hm]; rfl), eq_comm]
  have hlook : ∀ {m m₁ : Json},
      (setField "metadata" m₁ c ++ [(scratch, m)]).lookup "metadata" = some m₁ := by
    intro m m₁
    rw [List.lookup_append, lookup_setField_self, Option.some_or]
  rw [hsplit]
  simp only [Option.bind_eq_some_iff]
  constructor
  · rintro ⟨d₃, ⟨d₂, ⟨d₁, h₁, h₂⟩, h₃⟩, h₄⟩
    obtain ⟨m, hm, rfl⟩ := (apply_copy hs).1 h₁
    obtain ⟨m₁, hmask, rfl⟩ := (hput hm _).1 h₂
    obtain ⟨⟨w, hw, hwn⟩, rfl⟩ := (test_member hp).1 h₃
    obtain rfl : m₁ = w := Option.some.inj (hlook.symm.trans hw)
    obtain ⟨mf, af, rfl, hrv, ha, hh, rfl⟩ := mask_eq_some.1 hmask
    rw [apply_move hs hm, Option.some.injEq] at h₄
    exact ⟨⟨mf, af, hm, hrv, ha, hh, hwn⟩, h₄.symm⟩
  · rintro ⟨⟨mf, af, hm, hrv, ha, hh, hwn⟩, rfl⟩
    refine ⟨_, ⟨_, ⟨_, (apply_copy hs).2 ⟨_, hm, rfl⟩, (hput hm _).2
      ⟨_, mask_eq_some.2 ⟨mf, af, rfl, hrv, ha, hh, rfl⟩, rfl⟩⟩,
      (test_member hp).2 ⟨⟨_, hlook, hwn⟩, rfl⟩⟩, apply_move hs hm⟩

/-- A resource whose `spec` is equal to the frozen one can be repaired, and the
repair is all that happens. -/
theorem apply_repair {spec : List (String × Json)} {ports w : Json}
    (hports : spec.lookup "ports" = some ports) (hscope : PyEq ports (.arr [frozenPort]))
    (hw : c.lookup "spec" = some w) (heq : JsonEq w (.obj spec)) :
    ∃ d, applyOp (.replace "/spec/ports/0/targetPort" (.int 8080)) (.obj c) = some d ∧
      Repaired (.obj c) d := by
  have hp : Pointer.tokens "/spec/ports/0/targetPort" =
      some ["spec", "ports", "0", "targetPort"] := by decide
  obtain ⟨ps, rfl, hall⟩ := hscope.arr_right
  obtain ⟨p₀, ps', hp₀, hnil, rfl⟩ := List.forall₂_cons_right_iff.1 hall
  obtain rfl := List.forall₂_nil_right_iff.1 hnil
  obtain ⟨ws, rfl⟩ := heq.obj_right
  obtain ⟨cports, hcp, hcpe⟩ := heq.lookup hports
  obtain ⟨cps, rfl, hcall⟩ := hcpe.arr_right
  obtain ⟨q₀, qs, hq₀, -, rfl⟩ := List.forall₂_cons_right_iff.1 hcall
  -- the first port is an object with a target port in the snapshot, hence in the resource
  obtain ⟨pf, rfl⟩ := PyEq.obj_right (show PyEq p₀ (.obj _) from hp₀)
  obtain ⟨t, ht, -⟩ := PyEq.lookup hp₀ (k := "targetPort") (v := .int 9999) rfl
  obtain ⟨qf, rfl⟩ := hq₀.obj_right
  obtain ⟨t', ht', -⟩ := hq₀.lookup ht
  have hidx : Pointer.index? "0" = some 0 := by decide
  refine ⟨_, ?_, c, ws, qf, qs, rfl, hw, hcp, rfl⟩
  rw [applyOp_replace hp, replaceAt]
  simp [modifyAt, hw, hcp, hidx, ht']

end

/-! ## The guard, member by member -/

theorem isSome_field? {k : String} {a : Json} :
    (field? k a).isSome ↔ ∃ fs, a = .obj fs ∧ (fs.lookup k).isSome := by
  cases a <;> simp [field?]

/-- The condition on the metadata, as the patch checks it and as it is meant. -/
theorem compared_iff {c fs : List (String × Json)} {metadata n : Json}
    (hmd : fs.lookup "metadata" = some metadata) (hn : normalizedMetadata metadata = .ok n) :
    (∃ mf af, c.lookup "metadata" = some (.obj mf) ∧ (mf.lookup "resourceVersion").isSome ∧
        mf.lookup "annotations" = some (.obj af) ∧ (af.lookup heartbeat).isSome ∧
        JsonEq (.obj (maskedFields mf af)) n) ↔
      (∃ m annotations, field? "metadata" (.obj c) = some m ∧
        (field? "resourceVersion" m).isSome ∧ field? "annotations" m = some annotations ∧
        (field? heartbeat annotations).isSome) ∧
      ∃ mc ms nc ns, field? "metadata" (.obj c) = some mc ∧
        field? "metadata" (.obj fs) = some ms ∧ normalizedMetadata mc = .ok nc ∧
        normalizedMetadata ms = .ok ns ∧ JsonEq nc ns := by
  constructor
  · rintro ⟨mf, af, hm, hrv, ha, hh, heq⟩
    have hnc := normalizedMetadata_obj ha
    exact ⟨⟨.obj mf, .obj af, hm, hrv, ha, hh⟩, .obj mf, metadata, _, n, hm, hmd, hnc, hn,
      (maskedFields_jsonEq ha hnc).symm.trans heq⟩
  · rintro ⟨⟨m, annotations, hm, hrv, ha, hh⟩, mc, ms, nc, ns, hmc, hms, hnc, hns, heq⟩
    obtain rfl : m = mc := Option.some.inj (hm.symm.trans hmc)
    obtain rfl : metadata = ms := Option.some.inj (hmd.symm.trans hms)
    obtain rfl : n = ns := Except.ok.inj (hn.symm.trans hns)
    obtain ⟨mf, rfl, hrv⟩ := isSome_field?.1 hrv
    obtain ⟨af, rfl, hh⟩ := isSome_field?.1 hh
    exact ⟨mf, af, hm, hrv, ha, hh, (maskedFields_jsonEq ha hnc).trans heq⟩

/-- **The repair patch is its specification.**  It applies to a service exactly when
the guard holds; what it then does is the repair and nothing else; and where it does
not apply the service is as it was. -/
theorem contract_patch_exact {snapshot : Json} {ops : List Op} {c : List (String × Json)}
    (h : repairPatch snapshot .contract = .ok ops) (hs : c.lookup scratch = none) :
    ((applyPatch ops (.obj c)).isSome ↔ Guard snapshot (.obj c)) ∧
      (∀ d, applyPatch ops (.obj c) = some d → Repaired (.obj c) d) ∧
      (applyPatch ops (.obj c) = none → patched ops (.obj c) = .obj c) := by
  obtain ⟨fs, metadata, n, av, kind, spec, ports, status, rfl, hmd, hn, hav, hk, hsp, hst, hports,
    hscope, rfl⟩ := (inScope_of_repairPatch h).parts
  have hsplit : ∀ o₁ o₂ o₃ o₄ o₅ o₆ o₇ o₈ o₉ o₁₀ o₁₁ o₁₂ : Op,
      applyPatch [o₁, o₂, o₃, o₄, o₅, o₆, o₇, o₈, o₉, o₁₀, o₁₁, o₁₂] (.obj c) =
        ((applyPatch [o₁, o₂, o₃, o₄] (.obj c)).bind
          (applyPatch [o₅, o₆, o₇, o₈, o₉, o₁₀, o₁₁])).bind (applyOp o₁₂) := by
    intro o₁ o₂ o₃ o₄ o₅ o₆ o₇ o₈ o₉ o₁₀ o₁₁ o₁₂
    rw [show [o₁, o₂, o₃, o₄, o₅, o₆, o₇, o₈, o₉, o₁₀, o₁₁, o₁₂] =
      [o₁, o₂, o₃, o₄] ++ [o₅, o₆, o₇, o₈, o₉, o₁₀, o₁₁] ++ [o₁₂] from rfl, applyPatch_append,
      applyPatch_append, applyPatch_single]
  have hguard : Guard (.obj fs) (.obj c) ↔
      ((∃ w, c.lookup "apiVersion" = some w ∧ JsonEq w av) ∧
        (∃ w, c.lookup "kind" = some w ∧ JsonEq w kind) ∧
        (∃ w, c.lookup "spec" = some w ∧ JsonEq w (.obj spec)) ∧
        ∃ w, c.lookup "status" = some w ∧ JsonEq w status) ∧
      ∃ mf af, c.lookup "metadata" = some (.obj mf) ∧ (mf.lookup "resourceVersion").isSome ∧
        mf.lookup "annotations" = some (.obj af) ∧ (af.lookup heartbeat).isSome ∧
        JsonEq (.obj (maskedFields mf af)) n := by
    have hagrees : ∀ {key v}, fs.lookup key = some v →
        (Agrees key (.obj c) (.obj fs) ↔ ∃ w, c.lookup key = some w ∧ JsonEq w v) := by
      intro key v hv
      constructor
      · rintro ⟨w, v', hw, hv', heq⟩
        obtain rfl : v = v' := Option.some.inj (hv.symm.trans hv')
        exact ⟨w, hw, heq⟩
      · rintro ⟨w, hw, heq⟩
        exact ⟨w, v, hw, hv, heq⟩
    rw [← hagrees hav, ← hagrees hk, ← hagrees hsp, ← hagrees hst, compared_iff hmd hn]
    constructor
    · rintro ⟨ha, hm, hsame⟩
      exact ⟨⟨ha _ (by simp), ha _ (by simp), ha _ (by simp), ha _ (by simp)⟩, hm, hsame⟩
    · rintro ⟨⟨h₁, h₂, h₃, h₄⟩, hm, hsame⟩
      exact ⟨by simp [h₁, h₂, h₃, h₄], hm, hsame⟩
  refine ⟨?_, ?_, patched_of_none⟩
  · rw [hguard, hsplit, Option.isSome_iff_exists]
    simp only [Option.bind_eq_some_iff]
    constructor
    · rintro ⟨d, d₂, ⟨d₁, h₁, h₂⟩, -⟩
      obtain ⟨ht, rfl⟩ := apply_tests.1 h₁
      exact ⟨ht, ((apply_comparison hs).1 h₂).1⟩
    · rintro ⟨ht, hm⟩
      obtain ⟨w, hw, heq⟩ := ht.2.2.1
      obtain ⟨d, hd, -⟩ := apply_repair hports hscope hw heq
      exact ⟨d, _, ⟨_, apply_tests.2 ⟨ht, rfl⟩, (apply_comparison hs).2 ⟨hm, rfl⟩⟩, hd⟩
  · intro d hd
    rw [hsplit] at hd
    simp only [Option.bind_eq_some_iff] at hd
    obtain ⟨d₂, ⟨d₁, h₁, h₂⟩, h₃⟩ := hd
    obtain ⟨ht, rfl⟩ := apply_tests.1 h₁
    obtain ⟨-, rfl⟩ := (apply_comparison hs).1 h₂
    obtain ⟨w, hw, heq⟩ := ht.2.2.1
    obtain ⟨d', hd', hr⟩ := apply_repair hports hscope hw heq
    rw [hd', Option.some.injEq] at h₃
    exact h₃ ▸ hr

/-- The broken inventory service, at a version and with a heartbeat. -/
def inventory (version tick : String) : List (String × Json) := [
  ("apiVersion", .str "v1"), ("kind", .str "Service"),
  ("metadata", .obj [("name", .str "inventory"), ("namespace", .str "autonomy-lab"),
    ("uid", .str "uid-1"), ("resourceVersion", .str version),
    ("annotations", .obj [(heartbeat, .str tick), (authority, .str "enabled")])]),
  ("spec", .obj [("selector", .obj [("app", .str "inventory")]), ("ports", .arr [frozenPort])]),
  ("status", .obj [])]

theorem contract_patch_exact_inventory : ∃ ops,
    repairPatch (.obj (inventory "1" "tick-0")) .contract = .ok ops ∧
      ((applyPatch ops (.obj (inventory "2" "tick-1"))).isSome ↔
        Guard (.obj (inventory "1" "tick-0")) (.obj (inventory "2" "tick-1"))) ∧
      (∀ d, applyPatch ops (.obj (inventory "2" "tick-1")) = some d →
        Repaired (.obj (inventory "2" "tick-1")) d) ∧
      (applyPatch ops (.obj (inventory "2" "tick-1")) = none →
        patched ops (.obj (inventory "2" "tick-1")) = .obj (inventory "2" "tick-1")) := by
  have h : repairPatch (.obj (inventory "1" "tick-0")) .contract = .ok _ := rfl
  exact ⟨_, h, contract_patch_exact h (by decide)⟩

end AutonomyLab.Contract
