import AutonomyLab.Toolbox.Evidence

/-!
# What a replay accepts, and what it restores

* `ValidLine`, `InSequence` — a complete line that is a record of the run, given the
  lines before it; and a log of such lines only.
* `Holds` — tools whose memory is what the lines of a log say.
* `replayLines_of_inSequence`, `inSequence_of_replayLines` — a replay accepts a log if
  and only if its lines are in sequence, and restores what they say.
* `valid_readBack` — a line that is appended is in sequence.
-/

namespace AutonomyLab.Toolbox

open Json Process

variable {P : Platform} {run : String}

/-! ## Logs in sequence -/

section
variable (P)

/-- The records of some lines. -/
def recordsOf (lines : List Bytes) : List Json := lines.filterMap (parseLine P)

variable (run : String)

/-- `record` is a record of the run with the id `id`, which none of the records `before` has. -/
structure Valid (before : List Json) (record : Json) (id : String) : Prop where
  identified : record.member "observation_id" = .str id
  named : id ≠ ""
  source : ∃ source, record.member "source" = .str source
  timestamp : ∃ timestamp μs, record.member "timestamp" = .str timestamp ∧
    P.fromisoformat (replaceZ timestamp) = .ok (.aware μs)
  payload : ∃ payload, record.member "payload" = .obj payload
  sameRun : record.member "run_id" = .str run
  new : ∀ r ∈ before, r.member "observation_id" ≠ .str id
  claim : ∀ source payload, record.member "source" = .str source →
    record.member "payload" = .obj payload → isClaim source payload → (claimArguments payload).isSome

/-- `line` is a valid record of the run after the lines `before`. -/
def ValidLine (before : List Bytes) (line : Bytes) : Prop :=
  ∃ record id, parseLine P line = some record ∧ Valid P run (recordsOf P before) record id

/-- Every line is a valid record of the run, after the lines before it. -/
def InSequence (lines : List Bytes) : Prop :=
  ∀ before line after, lines = before ++ line :: after → ValidLine P run before line

end

theorem inSequence_nil : InSequence P run [] := by
  intro before line after h
  simp at h

theorem inSequence_concat {lines : List Bytes} {line : Bytes} :
    InSequence P run (lines ++ [line]) ↔ InSequence P run lines ∧ ValidLine P run lines line := by
  constructor
  · intro h
    refine ⟨fun before l after hl => h before l (after ++ [line]) ?_, h lines line [] rfl⟩
    rw [hl, List.append_assoc, List.cons_append]
  · rintro ⟨h, hline⟩ before l after hl
    rcases List.eq_nil_or_concat after with rfl | ⟨after, l', rfl⟩
    · obtain ⟨rfl, heq⟩ := List.append_inj' hl rfl
      cases heq
      exact hline
    · rw [List.concat_eq_append, ← List.cons_append, ← List.append_assoc] at hl
      exact h before l after (List.append_inj' hl rfl).1

/-! ## What the lines say -/

/-- The claim in a record. -/
def claimOf (record : Json) : Option Json :=
  match record.member "source", record.member "payload" with
  | .str source, .obj payload => if isClaim source payload then some (.obj payload) else none
  | _, _ => none

/-- The tools hold exactly what the records say. -/
structure Holds (tools : ObservationTools) (records : List Json) : Prop where
  issuedIds : ∀ id, id ∈ tools.issuedIds ↔ ∃ r ∈ records, r.member "observation_id" = .str id
  callCount : tools.callCount = records.length
  terminal : tools.terminal = (records.filterMap claimOf).getLast?

theorem holds_initial : Holds .initial [] :=
  ⟨fun id => by simp [ObservationTools.initial], rfl, rfl⟩

/-- Tools that hold the same are the same, but for the path of a torn line. -/
theorem Holds.unique {tools tools' : ObservationTools} {records : List Json} (h : Holds tools records)
    (h' : Holds tools' records) : tools.issuedIds = tools'.issuedIds ∧
      tools.callCount = tools'.callCount ∧ tools.terminal = tools'.terminal := by
  refine ⟨Finset.ext fun id => ?_, ?_, ?_⟩
  · rw [h.issuedIds, h'.issuedIds]
  · rw [h.callCount, h'.callCount]
  · rw [h.terminal, h'.terminal]

/-- The memory after one more record. -/
def ObservationTools.after (tools : ObservationTools) (record : Json) (id : String) :
    ObservationTools :=
  { tools with
    issuedIds := insert id tools.issuedIds
    callCount := tools.callCount + 1
    terminal := (claimOf record).or tools.terminal }

theorem Holds.after {tools : ObservationTools} {records : List Json} {record : Json} {id : String}
    (h : Holds tools records) (hid : record.member "observation_id" = .str id) :
    Holds (tools.after record id) (records ++ [record]) := by
  refine ⟨fun i => ?_, ?_, ?_⟩
  · rw [ObservationTools.after, Finset.mem_insert, h.issuedIds]
    constructor
    · rintro (rfl | ⟨r, hr, hri⟩)
      · exact ⟨record, List.mem_append_right _ (List.mem_singleton_self _), hid⟩
      · exact ⟨r, List.mem_append_left _ hr, hri⟩
    · rintro ⟨r, hr, hri⟩
      rcases List.mem_append.1 hr with hr | hr
      · exact .inr ⟨r, hr, hri⟩
      · rw [List.mem_singleton.1 hr, hid] at hri
        cases hri
        exact .inl rfl
  · rw [ObservationTools.after, h.callCount, List.length_append, List.length_singleton]
  · rw [ObservationTools.after, h.terminal, List.filterMap_append]
    cases hc : claimOf record with
    | none => simp [hc]
    | some claim => simp [hc]

/-! ## The replay -/

/-- **A record is accepted if and only if it is valid.** -/
theorem replayRecord_eq_ok {tools tools' : ObservationTools} {before : List Json} {record : Json}
    (h : Holds tools before) : replayRecord P run tools record = .ok tools' ↔
      ∃ id, Valid P run before record id ∧ tools' = tools.after record id := by
  unfold replayRecord
  split
  · rename_i id source timestamp payload hid hsource htime hpayload
    have hclaim : claimOf record = if isClaim source payload then some (.obj payload) else none := by
      rw [claimOf, hsource, hpayload]
    have hafter : tools.after record id = { tools with
        issuedIds := insert id tools.issuedIds
        callCount := tools.callCount + 1
        terminal := if isClaim source payload then some (.obj payload) else tools.terminal } := by
      rw [ObservationTools.after, hclaim]
      split <;> rfl
    have hvalid : (∃ i, Valid P run before record i ∧ tools' = tools.after record i) ↔
        Valid P run before record id ∧ tools' = tools.after record id := by
      constructor
      · rintro ⟨i, hi, ht⟩
        have := hi.identified
        rw [hid] at this
        cases this
        exact ⟨hi, ht⟩
      · exact fun hi => ⟨id, hi⟩
    rw [hvalid, hafter]
    by_cases hnamed : id = ""
    · rw [if_pos hnamed]
      constructor
      · rintro ⟨⟩
      · exact fun hv => absurd hnamed hv.1.named
    rw [if_neg hnamed]
    cases hiso : P.fromisoformat (replaceZ timestamp) with
    | error e =>
        constructor
        · rintro ⟨⟩
        · rintro ⟨hv, -⟩
          obtain ⟨_, _, ht, hok⟩ := hv.timestamp
          rw [htime] at ht
          cases ht
          rw [hiso] at hok
          cases hok
    | ok datetime =>
        cases datetime with
        | naive μs =>
            constructor
            · rintro ⟨⟩
            · rintro ⟨hv, -⟩
              obtain ⟨_, _, ht, hok⟩ := hv.timestamp
              rw [htime] at ht
              cases ht
              rw [hiso] at hok
              cases hok
        | aware μs =>
            simp only [bind, Except.bind, pure, Except.pure, pyEq_str_iff]
            by_cases hrun : record.member "run_id" = .str run
            swap
            · rw [if_pos hrun]
              constructor
              · rintro ⟨⟩
              · exact fun hv => absurd hv.1.sameRun hrun
            rw [if_neg (not_not.2 hrun)]
            by_cases hnew : id ∈ tools.issuedIds
            · rw [if_pos hnew]
              constructor
              · rintro ⟨⟩
              · rintro ⟨hv, -⟩
                obtain ⟨r, hr, hri⟩ := (h.issuedIds id).1 hnew
                exact absurd hri (hv.new r hr)
            rw [if_neg hnew]
            by_cases hc : isClaim source payload = true ∧ (claimArguments payload).isNone = true
            · rw [if_pos hc]
              constructor
              · rintro ⟨⟩
              · rintro ⟨hv, -⟩
                have := hv.claim source payload hsource hpayload hc.1
                rw [Option.isSome_iff_ne_none] at this
                exact absurd (Option.isNone_iff_eq_none.1 hc.2) this
            rw [if_neg hc]
            have hv : Valid P run before record id := by
              refine ⟨hid, hnamed, ⟨_, hsource⟩, ⟨_, _, htime, hiso⟩, ⟨_, hpayload⟩, hrun, ?_, ?_⟩
              · exact fun r hr hri => hnew ((h.issuedIds id).2 ⟨r, hr, hri⟩)
              · intro s p hs hp hsp
                rw [hsource] at hs
                rw [hpayload] at hp
                cases hs
                cases hp
                by_contra hnone
                exact hc ⟨hsp, by simpa using hnone⟩
            constructor
            · rintro ⟨⟩
              exact ⟨hv, rfl⟩
            · rintro ⟨-, rfl⟩
              rfl
  · rename_i hno
    constructor
    · rintro ⟨⟩
    · rintro ⟨id, hv, -⟩
      obtain ⟨source, hsource⟩ := hv.source
      obtain ⟨timestamp, _, htime, -⟩ := hv.timestamp
      obtain ⟨payload, hpayload⟩ := hv.payload
      exact absurd hpayload (hno _ _ _ _ hv.identified hsource htime)

theorem replayLine_eq_ok {tools tools' : ObservationTools} {before : List Bytes} {line : Bytes}
    (h : Holds tools (recordsOf P before)) : replayLine P run tools line = .ok tools' ↔
      ∃ record id, parseLine P line = some record ∧ Valid P run (recordsOf P before) record id ∧
        tools' = tools.after record id := by
  unfold replayLine
  cases hd : P.decode line with
  | none => simp [parseLine, hd]
  | some text =>
      have hparse : parseLine P line = loads P.parseFloat text := by rw [parseLine, hd, Option.bind_some]
      rw [hparse]
      dsimp only
      cases loads P.parseFloat text with
      | none => simp
      | some record =>
          dsimp only
          rw [replayRecord_eq_ok h]
          constructor
          · rintro ⟨id, hv, ht⟩
            exact ⟨record, id, rfl, hv, ht⟩
          · rintro ⟨_, id, ⟨⟩, hv, ht⟩
            exact ⟨id, hv, ht⟩

/-- The replay of some lines. -/
def replayLines (P : Platform) (run : String) (lines : List Bytes) : Except PyError ObservationTools :=
  lines.foldlM (replayLine P run) .initial

theorem replayLines_concat (lines : List Bytes) (line : Bytes) :
    replayLines P run (lines ++ [line]) =
      replayLines P run lines >>= fun tools => replayLine P run tools line := by
  rw [replayLines, List.foldlM_append]
  simp only [List.foldlM_cons, List.foldlM_nil, bind_pure]
  rfl

theorem recordsOf_concat {lines : List Bytes} {line : Bytes} {record : Json}
    (h : parseLine P line = some record) :
    recordsOf P (lines ++ [line]) = recordsOf P lines ++ [record] := by
  rw [recordsOf, List.filterMap_append, recordsOf]
  simp [h]

/-- **A replay that succeeds found every line in sequence**, and restored what they say. -/
theorem inSequence_of_replayLines {lines : List Bytes} {tools : ObservationTools}
    (h : replayLines P run lines = .ok tools) :
    InSequence P run lines ∧ Holds tools (recordsOf P lines) := by
  induction lines using List.reverseRecOn generalizing tools with
  | nil =>
      cases h
      exact ⟨inSequence_nil, holds_initial⟩
  | append_singleton lines line ih =>
      rw [replayLines_concat] at h
      obtain ⟨before, hbefore, hline⟩ := bind_eq_ok.1 h
      obtain ⟨hseq, hholds⟩ := ih hbefore
      obtain ⟨record, id, hparse, hv, rfl⟩ := (replayLine_eq_ok hholds).1 hline
      refine ⟨inSequence_concat.2 ⟨hseq, record, id, hparse, hv⟩, ?_⟩
      rw [recordsOf_concat hparse]
      exact hholds.after hv.identified

/-- **Lines in sequence are accepted.** -/
theorem replayLines_of_inSequence {lines : List Bytes} (h : InSequence P run lines) :
    ∃ tools, replayLines P run lines = .ok tools := by
  induction lines using List.reverseRecOn with
  | nil => exact ⟨_, rfl⟩
  | append_singleton lines line ih =>
      obtain ⟨hseq, record, id, hparse, hv⟩ := inSequence_concat.1 h
      obtain ⟨tools, htools⟩ := ih hseq
      have hholds := (inSequence_of_replayLines htools).2
      refine ⟨tools.after record id, ?_⟩
      rw [replayLines_concat, htools]
      exact (replayLine_eq_ok hholds).2 ⟨record, id, hparse, hv, rfl⟩

/-! ## Lines that are appended -/

theorem lineLayout_valid : lineLayout.Valid := Layout.valid_spaced _

theorem lineLayout_ascii : lineLayout.Ascii :=
  ⟨printable_of_all (by decide), printable_of_all (by decide)⟩

/-- The line of a record. -/
def lineOf (P : Platform) (record : Json) : Bytes := encode (serialized P record).toList

/-- The record that a line reads back as. -/
def readBack (record : Json) : Json := ordered lineLayout record

theorem printable_serialized (hP : P.Documented) (record : Json) :
    Printable (serialized P record).toList := printable_dumps hP.printable lineLayout_ascii record

theorem newline_not_mem_lineOf (hP : P.Documented) (record : Json) : newline ∉ lineOf P record := by
  intro h
  have h32 := mem_encode (printable_serialized hP record) h
  revert h32
  decide

theorem loads_serialized (hP : P.Documented) {record : Json} (h : Distinct record) :
    loads P.parseFloat (serialized P record).toList = some (readBack record) :=
  loads_dumps hP.float lineLayout_valid h

theorem parseLine_lineOf (hP : P.Documented) {record : Json} (h : Distinct record) :
    parseLine P (lineOf P record) = some (readBack record) := by
  rw [parseLine, lineOf, hP.decode _ (printable_serialized hP record), Option.bind_some,
    loads_serialized hP h]

theorem nodup_names : ["observation_id", "run_id", "timestamp", "source", "payload"].Nodup := by
  decide

theorem distinct_envelope {id ts source : String} {payload : List (String × Json)}
    (h : Distinct (.obj payload)) : Distinct (envelope id run ts source payload) := by
  exact ⟨nodup_names, trivial, trivial, trivial, trivial, h, trivial⟩

/-- The members of an envelope that was read back. -/
theorem lookup_readBack (run id ts source : String) (payload : List (String × Json)) :
    ∃ gs, readBack (envelope id run ts source payload) = .obj gs ∧
      gs.lookup "observation_id" = some (.str id) ∧ gs.lookup "run_id" = some (.str run) ∧
      gs.lookup "timestamp" = some (.str ts) ∧ gs.lookup "source" = some (.str source) ∧
      gs.lookup "payload" = some (readBack (.obj payload)) := by
  obtain ⟨gs, hgs, -, hlookup⟩ := @lookup_ordered lineLayout
    [("observation_id", .str id), ("run_id", .str run), ("timestamp", .str ts),
      ("source", .str source), ("payload", .obj payload)] nodup_names
  refine ⟨gs, hgs, ?_, ?_, ?_, ?_, ?_⟩ <;> (rw [hlookup]; rfl)

/-- A payload that may be recorded: what it claims to be a terminal claim is one. -/
structure Recordable (source : String) (payload : List (String × Json)) : Prop where
  distinct : Distinct (.obj payload)
  claim : source = "finish" → PyEq ((payload.lookup "kind").getD .null) (.str "claim") →
    ∃ f : FinishArguments, payload = ("kind", .str "claim") :: f.dumped

/-- A list of strings is written as it is. -/
theorem ordered_strs (L : Layout) (xs : List String) :
    ordered L (.arr (xs.map .str)) = .arr (xs.map .str) := by
  rw [ordered, orderedItems_eq, List.map_map]
  rfl

/-- **A line that is appended is in sequence.** -/
theorem valid_readBack {before : List Bytes} {id source : String}
    (timestamp : Now P) {payload : List (String × Json)} (hpayload : Recordable source payload)
    (hid : id ≠ "") (hnew : ∀ r ∈ recordsOf P before, r.member "observation_id" ≠ .str id) :
    Valid P run (recordsOf P before) (readBack (envelope id run timestamp.1 source payload)) id := by
  obtain ⟨ms, hms, hobs, hrun, htime, hsource, hload⟩ := lookup_readBack run id timestamp.1 source
    payload
  obtain ⟨gs, hgs, -, hlookup⟩ := lookup_ordered (L := lineLayout) hpayload.distinct.1
  obtain ⟨μs, hμs⟩ := timestamp.2
  change _ = some (ordered lineLayout (.obj payload)) at hload
  rw [hgs] at hload
  have hmember : ∀ {k v}, ms.lookup k = some v →
      (readBack (envelope id run timestamp.1 source payload)).member k = v := by
    intro k v hk
    rw [hms, member_obj, hk, Option.getD_some]
  refine ⟨hmember hobs, hid, ⟨_, hmember hsource⟩, ⟨_, μs, hmember htime, hμs⟩, ⟨_, hmember hload⟩,
    hmember hrun, hnew, ?_⟩
  intro s p hs hp hclaim
  rw [hmember hsource] at hs
  rw [hmember hload] at hp
  cases hs
  cases hp
  obtain ⟨hfinish, hkind⟩ : source = "finish" ∧ PyEq ((gs.lookup "kind").getD .null) (.str "claim") := by
    simpa [isClaim] using hclaim
  have hkind' : PyEq ((payload.lookup "kind").getD .null) (.str "claim") := by
    rw [hlookup] at hkind
    cases hk : payload.lookup "kind" with
    | none =>
        rw [hk] at hkind
        exact hkind
    | some v =>
        rw [hk, Option.map_some, Option.getD_some, pyEq_str_iff, ordered_eq_str] at hkind
        rw [Option.getD_some, hkind]
  obtain ⟨f, hf⟩ := hpayload.claim hfinish hkind'
  rw [claimArguments, FinishArguments.modelValidate_of_lookup (f := f)]
  · rfl
  · intro k
    rw [lookup_eraseField, hlookup, hf, lookup_cons_eq]
    by_cases hk : "kind" = k
    · rw [if_pos hk]
      subst hk
      rfl
    · rw [if_neg hk, if_neg hk]
      have hstrs : ordered lineLayout (.arr (f.evidenceIds.1.map fun s => .str s.1)) =
          .arr (f.evidenceIds.1.map fun s => .str s.1) := by
        have h := ordered_strs lineLayout (f.evidenceIds.1.map fun s => s.1)
        rwa [List.map_map] at h
      simp only [FinishArguments.dumped, lookup_cons_eq]
      split
      · rfl
      · split
        · rfl
        · split
          · exact congrArg some hstrs
          · rfl

end AutonomyLab.Toolbox
