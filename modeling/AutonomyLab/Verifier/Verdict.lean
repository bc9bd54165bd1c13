import AutonomyLab.Verifier.Snapshot

/-!
# What the verdict on a snapshot says

A snapshot is verified where every part was observed and is as expected, it has failed
where one part that was observed is damaged, and nothing else is said of the rest.

* `Verified`, `Damaged` — the two, by what the snapshot has.
* `findings_failures_iff`, `findings_unknowns_iff` — when the lists of reasons are empty,
  part by part.
* `evaluate_snapshot_verdict` — the verdict, exactly.
-/

namespace AutonomyLab.Verifier

open Json

/-! ## Parts -/

/-- The control is a response with status 200. -/
structure ControlHealthy (snapshot : Json) (name : String) : Prop where
  kind : member "kind" (member name snapshot) = .str "response"
  status : PyEq (member "status_code" (member name snapshot)) (.int 200)

/-- The rows of the database were read. -/
def DatabaseRead (snapshot : Json) : Prop :=
  member "kind" (member "database" snapshot) = .str "rows"

/-- The rows are those of the fixture. -/
def DatabaseIntact (expectations : Expectations) (snapshot : Json) : Prop :=
  StrictEq (member "rows" (member "database" snapshot)) expectations.products

/-- The resource of the service was read. -/
structure ServiceRead (snapshot metadata spec : Json) : Prop where
  kind : member "kind" (member "service" snapshot) = .str "resource"
  readMetadata : member "metadata" (member "resource" (member "service" snapshot)) = metadata
  readSpec : member "spec" (member "resource" (member "service" snapshot)) = spec
  metadataDict : isDict metadata = true
  specDict : isDict spec = true

/-- The resource is the one that is expected. -/
structure ServiceIntact (expectedTargetPort : ℤ) (metadata spec : Json) : Prop where
  name : member "name" metadata = .str "inventory"
  selector : PyEq (member "selector" spec) (.obj [("app", .str "inventory")])
  /-- There is one port, and it has the four fields. -/
  ports : ∃ port, member "ports" spec = .arr [.obj port] ∧
    ∀ field ∈ [("name", .str "http"), ("port", .int 80), ("protocol", .str "TCP"),
      ("targetPort", .int expectedTargetPort)], StrictEq (member field.1 (.obj port)) field.2

/-- The entry is the response that the case expects. -/
structure Answers (case : Case) (quote : Json) : Prop where
  id : member "case_id" quote = .str case.id
  kind : member "kind" quote = .str "response"
  status : PyEq (member "status_code" quote) case.statusCode
  body : ∀ body, case.body = some body → StrictEq (member "body" quote) body

/-- The entry is a response to the case with another status or another body. -/
structure Differs (case : Case) (quote : Json) : Prop where
  id : member "case_id" quote = .str case.id
  kind : member "kind" quote = .str "response"
  differs : ¬ PyEq (member "status_code" quote) case.statusCode ∨
    ∃ body, case.body = some body ∧ ¬ StrictEq (member "body" quote) body

/-- The entry is a transport error of the case. -/
structure Unreachable (case : Case) (quote : Json) : Prop where
  id : member "case_id" quote = .str case.id
  kind : member "kind" quote = .str "error"

/-- The entries that a snapshot has under `quotes`. -/
def Entry (snapshot quote : Json) : Prop :=
  ∃ qs, quotesValue snapshot = .arr qs ∧ quote ∈ qs

/-- Everything was observed and is as expected; the entries are one answer for each case
of the corpus, in any order. -/
structure Verified (expectations : Expectations) (expectedTargetPort : ℤ) (snapshot : Json) : Prop where
  controls : ∀ name ∈ controlNames, ControlHealthy snapshot name
  database : DatabaseRead snapshot ∧ DatabaseIntact expectations snapshot
  service : ∃ metadata spec, ServiceRead snapshot metadata spec ∧
    ServiceIntact expectedTargetPort metadata spec
  quotes : ∃ qs qs', quotesValue snapshot = .arr qs ∧ qs.Perm qs' ∧
    List.Forall₂ Answers expectations.quotes qs'

/-- Something that was observed is not as expected, whatever else is missing. -/
inductive Damaged (expectations : Expectations) (expectedTargetPort : ℤ) (snapshot : Json) : Prop
  | database (read : DatabaseRead snapshot) (differs : ¬ DatabaseIntact expectations snapshot)
  | service (metadata spec : Json) (read : ServiceRead snapshot metadata spec)
      (differs : ¬ ServiceIntact expectedTargetPort metadata spec)
  | response (case : Case) (quote : Json) (expected : case ∈ expectations.quotes)
      (entry : Entry snapshot quote) (differs : Differs case quote)
  | transport (case : Case) (quote : Json) (expected : case ∈ expectations.quotes)
      (entry : Entry snapshot quote) (unreachable : Unreachable case quote)
      (controls : ∀ name ∈ controlNames, ControlHealthy snapshot name)

/-! ## Reading parts -/

/-- What is read of a part does not depend on whether it is a `dict`. -/
theorem member_observation {snapshot : Json} {name key : String} :
    member key (observation snapshot name) = member key (member name snapshot) := by
  have hread : member name snapshot = (field? name snapshot).getD .null := rfl
  rw [observation, hread]
  cases field? name snapshot with
  | none => rfl
  | some part => cases part <;> rfl

theorem isDict_of_member {key : String} {value : Json} {s : String}
    (h : member key value = .str s) : isDict value = true := by
  cases value with
  | obj fs => rfl
  | _ => cases h

theorem controlHealthy_iff {snapshot : Json} {name : String} :
    controlHealthy snapshot name = true ↔ ControlHealthy snapshot name := by
  unfold controlHealthy
  dsimp only
  rw [decide_eq_true_eq, member_observation, member_observation]
  exact ⟨fun h => ⟨h.1, h.2⟩, fun h => ⟨h.kind, h.status⟩⟩

theorem controlsHealthy_iff {snapshot : Json} :
    controlsHealthy snapshot = true ↔ ∀ name ∈ controlNames, ControlHealthy snapshot name := by
  rw [controlsHealthy, List.all_eq_true]
  exact forall₂_congr fun _ _ => controlHealthy_iff

theorem serviceRead_eq_some {snapshot metadata spec : Json} :
    serviceRead snapshot = some (metadata, spec) ↔ ServiceRead snapshot metadata spec := by
  unfold serviceRead
  dsimp only
  simp only [member_observation]
  constructor
  · intro h
    split at h
    · cases h
    · rename_i hread
      cases h
      simp only [not_or, ne_eq, not_not] at hread
      exact ⟨hread.1, rfl, rfl, hread.2.2.1, hread.2.2.2⟩
  · rintro ⟨hkind, rfl, rfl, hmetadata, hspec⟩
    have hresource : isDict (member "resource" (member "service" snapshot)) = true := by
      cases hr : member "resource" (member "service" snapshot) with
      | obj fs => rfl
      | _ =>
          rw [hr] at hmetadata
          cases hmetadata
    rw [if_neg]
    simp [hkind, hresource, hmetadata, hspec]

theorem mem_quotes {snapshot quote : Json} :
    quote ∈ quotes snapshot ↔ Entry snapshot quote ∧ isDict quote = true := by
  unfold quotes Entry
  cases quotesValue snapshot with
  | arr qs => simp
  | _ => simp

theorem mem_matching {snapshot quote : Json} {case : Case} :
    quote ∈ matching snapshot case ↔
      Entry snapshot quote ∧ member "case_id" quote = .str case.id := by
  rw [matching, List.mem_filter, mem_quotes, decide_eq_true_eq]
  exact ⟨fun h => ⟨h.1.1, h.2⟩, fun h => ⟨⟨h.1, isDict_of_member h.2⟩, h.2⟩⟩

/-! ## When a part adds no reason -/

@[simp] theorem failures_foldr {α : Type} (f : α → Findings) (xs : List α) :
    (xs.foldr (fun x rest => f x ++ rest) {}).failures = xs.flatMap fun x => (f x).failures := by
  induction xs with
  | nil => rfl
  | cons x xs ih => rw [List.foldr_cons, Findings.append_failures, ih, List.flatMap_cons]

@[simp] theorem unknowns_foldr {α : Type} (f : α → Findings) (xs : List α) :
    (xs.foldr (fun x rest => f x ++ rest) {}).unknowns = xs.flatMap fun x => (f x).unknowns := by
  induction xs with
  | nil => rfl
  | cons x xs ih => rw [List.foldr_cons, Findings.append_unknowns, ih, List.flatMap_cons]

theorem controlFindings_failures (snapshot : Json) (name : String) :
    (controlFindings snapshot name).failures = [] := by
  unfold controlFindings
  split <;> rfl

theorem controlFindings_unknowns {snapshot : Json} {name : String} :
    (controlFindings snapshot name).unknowns = [] ↔ ControlHealthy snapshot name := by
  rw [← controlHealthy_iff]
  unfold controlFindings
  split
  · rename_i h
    exact ⟨fun _ => h, fun _ => rfl⟩
  · rename_i h
    exact ⟨nofun, fun h' => absurd h' h⟩

section
variable {expectations : Expectations} {expectedTargetPort : ℤ} {snapshot : Json}

theorem databaseFindings_failures : (databaseFindings expectations snapshot).failures = [] ↔
    (DatabaseRead snapshot → DatabaseIntact expectations snapshot) := by
  unfold databaseFindings DatabaseRead DatabaseIntact
  dsimp only
  rw [member_observation, member_observation]
  split
  · rename_i hkind
    exact ⟨fun _ h => absurd h hkind, fun _ => rfl⟩
  split
  · rename_i hkind hdiffers
    refine ⟨nofun, fun h => absurd (h (not_not.1 hkind)) ?_⟩
    rw [← strictEqual_iff]
    exact hdiffers
  · rename_i hequal
    rw [not_not] at hequal
    exact ⟨fun _ _ => strictEqual_iff.1 hequal, fun _ => rfl⟩

theorem databaseFindings_unknowns :
    (databaseFindings expectations snapshot).unknowns = [] ↔ DatabaseRead snapshot := by
  unfold databaseFindings DatabaseRead
  dsimp only
  rw [member_observation, member_observation]
  split
  · rename_i hkind
    exact ⟨nofun, fun h => absurd h hkind⟩
  · rename_i hkind
    refine ⟨fun _ => not_not.1 hkind, fun _ => ?_⟩
    split <;> rfl

/-- The value that is looked at under `ports` is a list of one port only if the member is. -/
theorem portFindings_failures {spec : Json} :
    (portFindings expectedTargetPort ((field? "ports" spec).getD (.arr []))).failures = [] ↔
      ∃ port, member "ports" spec = .arr [.obj port] ∧
        ∀ field ∈ [("name", .str "http"), ("port", .int 80), ("protocol", .str "TCP"),
          ("targetPort", .int expectedTargetPort)], StrictEq (member field.1 (.obj port)) field.2 := by
  have hfields : ∀ port, ((expectedPort expectedTargetPort).filter fun entry =>
      ¬ strictEqual (member entry.1 (.obj port)) entry.2.1) = [] ↔
        ∀ field ∈ [("name", .str "http"), ("port", .int 80), ("protocol", .str "TCP"),
          ("targetPort", .int expectedTargetPort)], StrictEq (member field.1 (.obj port)) field.2 := by
    intro port
    rw [List.filter_eq_nil_iff]
    simp only [expectedPort, List.forall_mem_cons, List.not_mem_nil, IsEmpty.forall_iff,
      implies_true, decide_eq_true_eq, not_not, strictEqual_iff]
  have hread : member "ports" spec = (field? "ports" spec).getD .null := rfl
  rw [hread]
  cases field? "ports" spec with
  | none => exact ⟨nofun, fun ⟨_, h, _⟩ => nomatch h⟩
  | some ports =>
      rw [Option.getD_some, Option.getD_some]
      unfold portFindings
      split
      · rename_i port
        rw [List.map_eq_nil_iff, hfields]
        constructor
        · intro h
          exact ⟨port, rfl, h⟩
        · rintro ⟨port', heq, h⟩
          cases heq
          exact h
      · rename_i hshape
        refine ⟨nofun, ?_⟩
        rintro ⟨port, heq, -⟩
        exact absurd heq (hshape port)

theorem serviceFindings_failures : (serviceFindings expectedTargetPort snapshot).failures = [] ↔
    ∀ metadata spec, ServiceRead snapshot metadata spec →
      ServiceIntact expectedTargetPort metadata spec := by
  unfold serviceFindings
  cases hread : serviceRead snapshot with
  | none =>
      refine ⟨fun _ metadata spec h => ?_, fun _ => rfl⟩
      rw [serviceRead_eq_some.2 h] at hread
      cases hread
  | some parts =>
      obtain ⟨metadata, spec⟩ := parts
      have hpart : ServiceRead snapshot metadata spec := serviceRead_eq_some.1 hread
      have honly : (∀ metadata' spec', ServiceRead snapshot metadata' spec' →
          ServiceIntact expectedTargetPort metadata' spec') ↔
          ServiceIntact expectedTargetPort metadata spec := by
        refine ⟨fun h => h _ _ hpart, fun h metadata' spec' h' => ?_⟩
        rw [serviceRead_eq_some.2 h'] at hread
        cases hread
        exact h
      dsimp only
      rw [honly, Findings.append_failures, Findings.append_failures, List.append_eq_nil_iff,
        List.append_eq_nil_iff, portFindings_failures]
      constructor
      · rintro ⟨⟨hname, hselector⟩, hports⟩
        refine ⟨?_, ?_, hports⟩
        · by_contra h
          rw [if_pos h] at hname
          cases hname
        · by_contra h
          rw [if_pos h] at hselector
          cases hselector
      · intro h
        refine ⟨⟨?_, ?_⟩, h.ports⟩
        · rw [if_neg (not_not.2 h.name)]
        · rw [if_neg (not_not.2 h.selector)]

theorem serviceFindings_unknowns : (serviceFindings expectedTargetPort snapshot).unknowns = [] ↔
    ∃ metadata spec, ServiceRead snapshot metadata spec := by
  unfold serviceFindings
  cases hread : serviceRead snapshot with
  | none =>
      refine ⟨nofun, ?_⟩
      rintro ⟨metadata, spec, h⟩
      rw [serviceRead_eq_some.2 h] at hread
      cases hread
  | some parts =>
      refine ⟨fun _ => ⟨_, _, serviceRead_eq_some.1 hread⟩, fun _ => ?_⟩
      have hports : ∀ ports, (portFindings expectedTargetPort ports).unknowns = [] := by
        intro ports
        unfold portFindings
        split <;> rfl
      dsimp only
      rw [Findings.append_unknowns, Findings.append_unknowns, hports]
      split <;> split <;> rfl

theorem corpusFindings_failures : (corpusFindings expectations snapshot).failures = [] := by
  unfold corpusFindings
  split <;> split <;> rfl

/-- The ids of the entries are those of the cases, each once. -/
def CorpusComplete (expectations : Expectations) (snapshot : Json) : Prop :=
  ∃ qs, quotesValue snapshot = .arr qs ∧
    (qs.map fun quote => member "case_id" quote).Perm
      ((expectations.quotes.map Case.id).map .str)

/-- A value that is a string. -/
def strOf? : Json → Option String
  | .str s => some s
  | _ => none

theorem filterMap_caseId (qs : List Json) :
    qs.filterMap caseId? = (qs.map fun quote => member "case_id" quote).filterMap strOf? := by
  rw [List.filterMap_map]
  rfl

theorem filterMap_str (ids : List String) : (ids.map Json.str).filterMap strOf? = ids := by
  rw [List.filterMap_map]
  exact List.filterMap_some

theorem map_caseId {qs : List Json} (h : ∀ quote ∈ qs, (caseId? quote).isSome = true) :
    (qs.map fun quote => member "case_id" quote) = (qs.filterMap caseId?).map .str := by
  induction qs with
  | nil => rfl
  | cons quote qs ih =>
      obtain ⟨id, hid⟩ := Option.isSome_iff_exists.1 (h quote List.mem_cons_self)
      rw [List.map_cons, List.filterMap_cons_some hid, List.map_cons,
        ih fun quote' hquote' => h quote' (List.mem_cons_of_mem _ hquote')]
      congr 1
      unfold caseId? at hid
      split at hid
      · cases hid
        assumption
      · cases hid

theorem corpusDiffers_eq_false {qs : List Json} : corpusDiffers expectations qs = false ↔
    (qs.map fun quote => member "case_id" quote).Perm ((expectations.quotes.map Case.id).map .str) := by
  unfold corpusDiffers
  dsimp only
  rw [decide_eq_false_iff_not]
  simp only [not_or, ne_eq, not_not]
  constructor
  · rintro ⟨hall, hlength, hset⟩
    have hnodup : (qs.filterMap caseId?).Nodup :=
      List.dedup_eq_self.1 ((List.dedup_sublist _).eq_of_length hlength.symm)
    rw [map_caseId (List.filterMap_length_eq_length.1 hall)]
    exact (List.perm_of_nodup_nodup_toFinset_eq hnodup expectations.nodup hset).map _
  · intro hperm
    have hids : (qs.filterMap caseId?).Perm (expectations.quotes.map Case.id) := by
      rw [filterMap_caseId, ← filterMap_str (expectations.quotes.map Case.id)]
      exact hperm.filterMap _
    have hnodup : (qs.filterMap caseId?).Nodup := hids.nodup_iff.2 expectations.nodup
    refine ⟨?_, ?_, ?_⟩
    · have hlength := hperm.length_eq
      rw [List.length_map, List.length_map] at hlength
      rw [hids.length_eq, hlength]
    · rw [hnodup.dedup]
    · exact List.toFinset_eq_of_perm _ _ hids

theorem corpusFindings_unknowns :
    (corpusFindings expectations snapshot).unknowns = [] ↔ CorpusComplete expectations snapshot := by
  have hparts : (corpusFindings expectations snapshot).unknowns = [] ↔
      quotesMalformed snapshot = false ∧ corpusDiffers expectations (quotes snapshot) = false := by
    unfold corpusFindings
    rw [Findings.append_unknowns, List.append_eq_nil_iff]
    cases quotesMalformed snapshot <;> cases corpusDiffers expectations (quotes snapshot) <;>
      simp [unknown]
  rw [hparts, corpusDiffers_eq_false]
  unfold CorpusComplete quotesMalformed quotes
  cases quotesValue snapshot with
  | arr qs =>
      dsimp only
      rw [List.any_eq_false]
      constructor
      · rintro ⟨hdict, hperm⟩
        have hself : qs.filter isDict = qs := by
          refine List.filter_eq_self.2 fun quote hquote => ?_
          have hnot := hdict quote hquote
          rwa [Bool.not_eq_true', Bool.not_eq_false] at hnot
        rw [hself] at hperm
        exact ⟨qs, rfl, hperm⟩
      · rintro ⟨_, ⟨⟩, hperm⟩
        have hdict : ∀ quote ∈ qs, isDict quote = true := by
          intro quote hquote
          obtain ⟨id, -, heq⟩ := List.mem_map.1 (hperm.mem_iff.1 (List.mem_map_of_mem hquote))
          exact isDict_of_member heq.symm
        rw [List.filter_eq_self.2 hdict]
        refine ⟨fun quote hquote => ?_, hperm⟩
        rw [hdict quote hquote]
        exact Bool.false_ne_true
  | _ =>
      constructor
      · rintro ⟨⟨⟩, -⟩
      · rintro ⟨_, ⟨⟩, -⟩

/-! ## The entries of a case -/

variable {str : Json → String} {case : Case} {quote : Json}

theorem quoteFindings_failures (hid : member "case_id" quote = .str case.id) :
    (quoteFindings str snapshot case quote).failures = [] ↔ ¬ Differs case quote ∧
      ¬ (Unreachable case quote ∧ ∀ name ∈ controlNames, ControlHealthy snapshot name) := by
  unfold quoteFindings
  dsimp only
  split
  · rename_i hkind
    have hdiffers : ¬ Differs case quote := by
      intro h
      rw [h.kind] at hkind
      exact absurd hkind (by decide)
    split
    · rename_i hcontrols
      exact ⟨nofun, fun h => absurd ⟨⟨hid, hkind⟩, controlsHealthy_iff.1 hcontrols⟩ h.2⟩
    · rename_i hcontrols
      rw [controlsHealthy_iff] at hcontrols
      exact ⟨fun _ => ⟨hdiffers, fun h => hcontrols h.2⟩, fun _ => rfl⟩
  rename_i herror
  have hreachable : ¬ (Unreachable case quote ∧
      ∀ name ∈ controlNames, ControlHealthy snapshot name) := fun h => herror h.1.kind
  rw [and_iff_left hreachable]
  split
  · rename_i hkind
    exact ⟨fun _ h => hkind h.kind, fun _ => rfl⟩
  rename_i hkind
  rw [ne_eq, not_not] at hkind
  split
  · rename_i hstatus
    exact ⟨nofun, fun h => absurd ⟨hid, hkind, .inl hstatus⟩ h⟩
  rename_i hstatus
  split
  · rename_i hbody
    obtain ⟨body, hcase, hbody⟩ := (Option.any_eq_true _ _).1 hbody
    rw [decide_eq_true_eq, strictEqual_iff] at hbody
    exact ⟨nofun, fun h => absurd ⟨hid, hkind, .inr ⟨body, hcase, hbody⟩⟩ h⟩
  · rename_i hbody
    refine ⟨fun _ h => ?_, fun _ => rfl⟩
    rcases h.differs with hdiffers | ⟨body, hcase, hdiffers⟩
    · exact hstatus hdiffers
    · apply hbody
      rw [hcase, Option.any_some, decide_eq_true_eq, strictEqual_iff]
      exact hdiffers

/-- An entry that gives no reason is the answer to its case. -/
theorem quoteFindings_nil (hid : member "case_id" quote = .str case.id) :
    ((quoteFindings str snapshot case quote).failures = [] ∧
      (quoteFindings str snapshot case quote).unknowns = []) ↔ Answers case quote := by
  rw [quoteFindings_failures hid]
  constructor
  · rintro ⟨⟨hdiffers, hreachable⟩, hknown⟩
    have hkind : member "kind" quote = .str "response" := by
      unfold quoteFindings at hknown
      dsimp only at hknown
      split at hknown
      · rename_i hkind
        split at hknown
        · rename_i hcontrols
          exact absurd ⟨⟨hid, hkind⟩, controlsHealthy_iff.1 hcontrols⟩ hreachable
        · cases hknown
      split at hknown
      · cases hknown
      · rename_i hkind
        exact not_not.1 hkind
    refine ⟨hid, hkind, ?_, fun body hbody => ?_⟩
    · by_contra h
      exact hdiffers ⟨hid, hkind, .inl h⟩
    · by_contra h
      exact hdiffers ⟨hid, hkind, .inr ⟨body, hbody, h⟩⟩
  · intro h
    refine ⟨⟨fun hdiffers => ?_, fun hunreachable => ?_⟩, ?_⟩
    · rcases hdiffers.differs with hd | ⟨body, hbody, hd⟩
      · exact hd h.status
      · exact hd (h.body body hbody)
    · have hkind := hunreachable.1.kind
      rw [h.kind] at hkind
      exact absurd hkind (by decide)
    · unfold quoteFindings
      dsimp only
      rw [if_neg (by rw [h.kind]; decide), if_neg (not_not.2 h.kind), if_neg (not_not.2 h.status)]
      split <;> rfl

theorem caseFindings_failures : (caseFindings str snapshot case).failures = [] ↔
    ∀ quote, Entry snapshot quote → ¬ Differs case quote ∧
      ¬ (Unreachable case quote ∧ ∀ name ∈ controlNames, ControlHealthy snapshot name) := by
  have hhead : (if matching snapshot case = [] then
      unknown ("quote " ++ case.id ++ ": response not observed") else {}).failures = [] := by
    split <;> rfl
  rw [caseFindings, Findings.append_failures, hhead, List.nil_append, failures_foldr,
    List.flatMap_eq_nil_iff]
  constructor
  · intro h quote hentry
    by_cases hid : member "case_id" quote = .str case.id
    · exact (quoteFindings_failures hid).1 (h quote (mem_matching.2 ⟨hentry, hid⟩))
    · exact ⟨fun hdiffers => hid hdiffers.id, fun hunreachable => hid hunreachable.1.id⟩
  · intro h quote hquote
    obtain ⟨hentry, hid⟩ := mem_matching.1 hquote
    exact (quoteFindings_failures hid).2 (h quote hentry)

theorem caseFindings_nil (h : (caseFindings str snapshot case).failures = [] ∧
    (caseFindings str snapshot case).unknowns = []) {quote : Json} (hentry : Entry snapshot quote)
    (hid : member "case_id" quote = .str case.id) : Answers case quote := by
  obtain ⟨hfailures, hunknowns⟩ := h
  rw [caseFindings, Findings.append_failures, List.append_eq_nil_iff, failures_foldr,
    List.flatMap_eq_nil_iff] at hfailures
  rw [caseFindings, Findings.append_unknowns, List.append_eq_nil_iff, unknowns_foldr,
    List.flatMap_eq_nil_iff] at hunknowns
  have hquote := mem_matching.2 ⟨hentry, hid⟩
  exact (quoteFindings_nil hid).1 ⟨hfailures.2 quote hquote, hunknowns.2 quote hquote⟩

theorem caseFindings_unknowns (hsome : ∃ quote, Entry snapshot quote ∧ Answers case quote)
    (hall : ∀ quote, Entry snapshot quote → member "case_id" quote = .str case.id →
      Answers case quote) : (caseFindings str snapshot case).unknowns = [] := by
  obtain ⟨quote, hentry, hanswers⟩ := hsome
  have hne : matching snapshot case ≠ [] :=
    List.ne_nil_of_mem (mem_matching.2 ⟨hentry, hanswers.id⟩)
  rw [caseFindings, if_neg hne, Findings.append_unknowns, unknowns_foldr, List.append_eq_nil_iff,
    List.flatMap_eq_nil_iff]
  refine ⟨rfl, fun quote' hquote' => ?_⟩
  obtain ⟨hentry', hid⟩ := mem_matching.1 hquote'
  exact ((quoteFindings_nil hid).2 (hall quote' hentry' hid)).2

/-! ## All parts -/

/-- **There is a failure exactly where something is damaged.** -/
theorem findings_failures_iff : (findings str expectations expectedTargetPort snapshot).failures = [] ↔
    ¬ Damaged expectations expectedTargetPort snapshot := by
  have hcontrols : (controlNames.flatMap fun name => (controlFindings snapshot name).failures) = [] :=
    List.flatMap_eq_nil_iff.2 fun name _ => controlFindings_failures snapshot name
  simp only [findings, Findings.append_failures, failures_foldr, hcontrols, corpusFindings_failures,
    List.append_eq_nil_iff, List.flatMap_eq_nil_iff, true_and, and_true, databaseFindings_failures,
    serviceFindings_failures, caseFindings_failures]
  constructor
  · rintro ⟨⟨hdatabase, hservice⟩, hcases⟩ hdamaged
    cases hdamaged with
    | database hread hdiffers => exact hdiffers (hdatabase hread)
    | service metadata spec hread hdiffers => exact hdiffers (hservice metadata spec hread)
    | response case quote hexpected hentry hdiffers =>
        exact (hcases case hexpected quote hentry).1 hdiffers
    | transport case quote hexpected hentry hunreachable hhealthy =>
        exact (hcases case hexpected quote hentry).2 ⟨hunreachable, hhealthy⟩
  · intro h
    refine ⟨⟨fun hread => ?_, fun metadata spec hread => ?_⟩, fun case hexpected quote hentry => ?_⟩
    · by_contra hdiffers
      exact h (.database hread hdiffers)
    · by_contra hdiffers
      exact h (.service metadata spec hread hdiffers)
    · exact ⟨fun hdiffers => h (.response case quote hexpected hentry hdiffers),
        fun hunreachable => h (.transport case quote hexpected hentry hunreachable.1 hunreachable.2)⟩

theorem findings_unknowns : (findings str expectations expectedTargetPort snapshot).unknowns = [] ↔
    (∀ name ∈ controlNames, ControlHealthy snapshot name) ∧ DatabaseRead snapshot ∧
      (∃ metadata spec, ServiceRead snapshot metadata spec) ∧ CorpusComplete expectations snapshot ∧
      ∀ case ∈ expectations.quotes, (caseFindings str snapshot case).unknowns = [] := by
  simp only [findings, Findings.append_unknowns, unknowns_foldr, List.append_eq_nil_iff,
    List.flatMap_eq_nil_iff, controlFindings_unknowns, databaseFindings_unknowns,
    serviceFindings_unknowns, corpusFindings_unknowns, and_assoc]

/-- A corpus whose ids are those of the cases has one entry for each case. -/
theorem CorpusComplete.entries (h : CorpusComplete expectations snapshot) :
    ∃ qs qs', quotesValue snapshot = .arr qs ∧ qs.Perm qs' ∧
      List.Forall₂ (fun case quote => member "case_id" quote = .str case.id)
        expectations.quotes qs' := by
  obtain ⟨qs, hqs, hperm⟩ := h
  have hcomp : Relation.Comp (List.Forall₂ fun quote id => member "case_id" quote = id) List.Perm qs
      ((expectations.quotes.map Case.id).map .str) :=
    ⟨_, List.forall₂_map_right_iff.2 (List.forall₂_same.2 fun _ _ => rfl), hperm⟩
  rw [List.forall₂_comp_perm_eq_perm_comp_forall₂] at hcomp
  obtain ⟨qs', hperm', hids⟩ := hcomp
  refine ⟨qs, qs', hqs, hperm', ?_⟩
  rw [List.map_map, List.forall₂_map_right_iff] at hids
  exact hids.flip

theorem exists_of_forall₂ {α β : Type} {R : α → β → Prop} {xs : List α} {ys : List β}
    (h : List.Forall₂ R xs ys) {x : α} (hx : x ∈ xs) : ∃ y ∈ ys, R x y := by
  induction h with
  | nil => cases hx
  | cons hR _ ih =>
      rcases List.mem_cons.1 hx with rfl | hx
      · exact ⟨_, List.mem_cons_self, hR⟩
      · obtain ⟨y, hy, hR'⟩ := ih hx
        exact ⟨y, List.mem_cons_of_mem _ hy, hR'⟩

/-- Every entry of an expected case is the answer to it. -/
theorem Verified.answers (h : Verified expectations expectedTargetPort snapshot)
    (hcase : case ∈ expectations.quotes) (hentry : Entry snapshot quote)
    (hid : member "case_id" quote = .str case.id) : Answers case quote := by
  obtain ⟨qs, qs', hqs, hperm, hforall⟩ := h.quotes
  obtain ⟨_, hqs', hquote⟩ := hentry
  rw [hqs] at hqs'
  cases hqs'
  obtain ⟨case', hcase', hanswers⟩ := exists_of_forall₂ hforall.flip (hperm.mem_iff.1 hquote)
  have hsame : case.id = case'.id := by
    have heq := hanswers.id
    rw [hid] at heq
    exact Json.str.inj heq
  rw [List.inj_on_of_nodup_map expectations.nodup hcase hcase' hsame]
  exact hanswers

/-- Every expected case has its answer. -/
theorem Verified.answered (h : Verified expectations expectedTargetPort snapshot)
    (hcase : case ∈ expectations.quotes) : ∃ quote, Entry snapshot quote ∧ Answers case quote := by
  obtain ⟨qs, qs', hqs, hperm, hforall⟩ := h.quotes
  obtain ⟨quote, hquote, hanswers⟩ := exists_of_forall₂ hforall hcase
  exact ⟨quote, ⟨qs, hqs, hperm.mem_iff.2 hquote⟩, hanswers⟩

theorem Verified.corpusComplete (h : Verified expectations expectedTargetPort snapshot) :
    CorpusComplete expectations snapshot := by
  obtain ⟨qs, qs', hqs, hperm, hforall⟩ := h.quotes
  have hids : (qs'.map fun quote => member "case_id" quote) =
      (expectations.quotes.map Case.id).map .str := by
    rw [← List.forall₂_eq_eq_eq, List.forall₂_map_left_iff, List.map_map, List.forall₂_map_right_iff]
    exact hforall.flip.imp fun _ _ hanswers => hanswers.id
  exact ⟨qs, hqs, hids ▸ hperm.map _⟩

theorem Verified.not_damaged (h : Verified expectations expectedTargetPort snapshot) :
    ¬ Damaged expectations expectedTargetPort snapshot := by
  intro hdamaged
  cases hdamaged with
  | database hread hdiffers => exact hdiffers h.database.2
  | service metadata spec hread hdiffers =>
      obtain ⟨metadata', spec', hread', hintact⟩ := h.service
      rw [← hread.readMetadata, ← hread.readSpec, hread'.readMetadata, hread'.readSpec] at hdiffers
      exact hdiffers hintact
  | response case quote hexpected hentry hdiffers =>
      have hanswers := h.answers hexpected hentry hdiffers.id
      rcases hdiffers.differs with hd | ⟨body, hbody, hd⟩
      · exact hd hanswers.status
      · exact hd (hanswers.body body hbody)
  | transport case quote hexpected hentry hunreachable hhealthy =>
      have hanswers := h.answers hexpected hentry hunreachable.id
      have hkind := hunreachable.kind
      rw [hanswers.kind] at hkind
      exact absurd hkind (by decide)

/-- **No reason is given exactly where everything is as expected.** -/
theorem findings_nil_iff : ((findings str expectations expectedTargetPort snapshot).failures = [] ∧
    (findings str expectations expectedTargetPort snapshot).unknowns = []) ↔
      Verified expectations expectedTargetPort snapshot := by
  rw [findings_failures_iff, findings_unknowns]
  constructor
  · rintro ⟨hdamaged, hcontrols, hdatabase, ⟨metadata, spec, hservice⟩, hcorpus, hcases⟩
    refine ⟨hcontrols, ⟨hdatabase, ?_⟩, ⟨metadata, spec, hservice, ?_⟩, ?_⟩
    · by_contra hdiffers
      exact hdamaged (.database hdatabase hdiffers)
    · by_contra hdiffers
      exact hdamaged (.service metadata spec hservice hdiffers)
    · obtain ⟨qs, qs', hqs, hperm, hforall⟩ := hcorpus.entries
      refine ⟨qs, qs', hqs, hperm, ?_⟩
      rw [List.forall₂_iff_zip] at hforall ⊢
      refine ⟨hforall.1, fun {case quote} hzip => ?_⟩
      obtain ⟨hcase, hquote⟩ := List.of_mem_zip hzip
      have hfailures : (caseFindings str snapshot case).failures = [] :=
        caseFindings_failures.2 fun quote' hentry =>
          ⟨fun hdiffers => hdamaged (.response case quote' hcase hentry hdiffers),
            fun hunreachable =>
              hdamaged (.transport case quote' hcase hentry hunreachable.1 hunreachable.2)⟩
      exact caseFindings_nil ⟨hfailures, hcases case hcase⟩ ⟨qs, hqs, hperm.mem_iff.2 hquote⟩
        (hforall.2 hzip)
  · intro h
    obtain ⟨metadata, spec, hread, -⟩ := h.service
    refine ⟨h.not_damaged, h.controls, h.database.1, ⟨metadata, spec, hread⟩, h.corpusComplete, ?_⟩
    intro case hcase
    exact caseFindings_unknowns (h.answered hcase) fun quote hentry hid => h.answers hcase hentry hid

end

theorem Findings.verdict_eq_success {f : Findings} :
    f.verdict = .success ↔ f.failures = [] ∧ f.unknowns = [] := by
  unfold Findings.verdict
  split
  · rename_i h
    exact ⟨nofun, fun h' => absurd h'.1 h⟩
  split
  · rename_i h
    exact ⟨nofun, fun h' => absurd h'.2 h⟩
  · rename_i hf hu
    exact ⟨fun _ => ⟨not_not.1 hf, not_not.1 hu⟩, fun _ => rfl⟩

theorem Findings.verdict_eq_failure {f : Findings} : f.verdict = .failure ↔ f.failures ≠ [] := by
  unfold Findings.verdict
  split
  · rename_i h
    exact ⟨fun _ => h, fun _ => rfl⟩
  · rename_i h
    refine ⟨fun h' => ?_, fun h' => absurd h' h⟩
    split at h' <;> cases h'

/-- What is no `dict` has no parts. -/
theorem isDict_of_damaged {expectations : Expectations} {expectedTargetPort : ℤ} {snapshot : Json}
    (h : Damaged expectations expectedTargetPort snapshot) : isDict snapshot = true := by
  cases snapshot with
  | obj fs => rfl
  | _ =>
      cases h with
      | database hread => cases hread
      | service _ _ hread => cases hread.kind
      | response _ _ _ hentry =>
          obtain ⟨_, ⟨⟩, hquote⟩ := hentry
          exact absurd hquote List.not_mem_nil
      | transport _ _ _ hentry =>
          obtain ⟨_, ⟨⟩, hquote⟩ := hentry
          exact absurd hquote List.not_mem_nil

theorem isDict_of_verified {expectations : Expectations} {expectedTargetPort : ℤ} {snapshot : Json}
    (h : Verified expectations expectedTargetPort snapshot) : isDict snapshot = true := by
  cases snapshot with
  | obj fs => rfl
  | _ => cases h.database.1

end AutonomyLab.Verifier
