import AutonomyLab.Json.Size
import AutonomyLab.Process.Labels
import AutonomyLab.Toolbox.Guarantees

/-!
# How long the lines of the log are

A line that is longer than `max_result_bytes` is replaced by a record of an error, which is
written as it is.

* `Observation` — what `_record` is given.
* `length_lineOf_tooLarge` — the length of the record that takes the place of another.
* `line_bound` — a line is within the limit if and only if its observation is, or the
  run id and the name of the tool leave room for the error.
-/

namespace AutonomyLab.Toolbox

open Json Process Sequential Store.Lines

variable {P : Platform} {o : Options}

/-- What `_record` is given, with the uuid and the time it takes. -/
structure Observation where
  id : String
  timestamp : String
  source : String
  payload : List (String × Json)

namespace Observation

/-- The record that is written. -/
def record (P : Platform) (o : Options) (obs : Observation) : Json :=
  recordOf P o obs.id obs.timestamp obs.source obs.payload

/-- The record of the observation itself. -/
def full (o : Options) (obs : Observation) : Json :=
  envelope obs.id o.runId obs.timestamp obs.source obs.payload

/-- `len(serialized.encode())`. -/
def bytes (P : Platform) (o : Options) (obs : Observation) : ℕ := (lineOf P (obs.full o)).length

end Observation

/-- The values of `source`. -/
def sources : List String := "unknown_tool" :: Tool.all.map Tool.name

/-- The texts of a uuid and of a time, and the name of a source, as Python writes them. -/
structure Observation.Standard (obs : Observation) : Prop where
  id : obs.id.length = 36 ∧ ∀ c ∈ obs.id.toList, Plain c
  timestamp : ∀ c ∈ obs.timestamp.toList, Plain c
  source : obs.source ∈ sources

/-- `hashlib.sha256(…).hexdigest()` has 64 hexadecimal digits. -/
def Platform.HexDigests (P : Platform) : Prop :=
  ∀ text, (P.sha256 text).length = 64 ∧ ∀ c ∈ (P.sha256 text).toList, Plain c

theorem length_lineOf (hP : P.Documented) (record : Json) :
    (lineOf P record).length = size P.reprFloat lineLayout record :=
  length_encode (printable_serialized hP record)

/-- A member of a record takes six characters more than its name and its value. -/
theorem size_members {fs : List (String × Json)} (h : fs ≠ []) :
    size P.reprFloat lineLayout (.obj fs) =
      (fs.map fun p => textLength p.1 + size P.reprFloat lineLayout p.2 + 6).sum := by
  have hsize := @size_obj P.reprFloat lineLayout fs h
  have hitem : lineLayout.item.toList.length = 2 := rfl
  have hkey : lineLayout.key.toList.length = 2 := rfl
  rw [hitem, hkey] at hsize
  exact Nat.add_right_cancel hsize

theorem size_envelope (id run timestamp source : String) (payload : List (String × Json)) :
    size P.reprFloat lineLayout (envelope id run timestamp source payload) =
      80 + textLength id + textLength run + textLength timestamp + textLength source +
        size P.reprFloat lineLayout (.obj payload) := by
  have hid : textLength "observation_id" = 14 := by decide +kernel
  have hrun : textLength "run_id" = 6 := by decide +kernel
  have htime : textLength "timestamp" = 9 := by decide +kernel
  have hsource : textLength "source" = 6 := by decide +kernel
  have hpayload : textLength "payload" = 7 := by decide +kernel
  rw [envelope, size_members (List.cons_ne_nil _ _)]
  simp only [List.map_cons, List.map_nil, List.sum_cons, List.sum_nil, size_str, hid, hrun, htime,
    hsource, hpayload]
  omega

/-- How many decimal digits a number has. -/
def digits (n : ℕ) : ℕ := (Nat.toDigits 10 n).length

theorem size_natCast (n : ℕ) : size P.reprFloat lineLayout (.int n) = digits n := by
  change (Nat.repr n).toList.length = _
  rw [Nat.repr, String.toList_ofList]
  rfl

/-- The error that takes the place of a payload. -/
theorem size_tooLarge (hsha : P.HexDigests) (record : Json) :
    size P.reprFloat lineLayout (.obj (tooLarge P record)) =
      244 + digits (lineOf P record).length := by
  have hkind : textLength "kind" = 4 := by decide +kernel
  have herror : textLength "error" = 5 := by decide +kernel
  have hlarge : textLength "result_too_large" = 16 := by decide +kernel
  have hbytes : textLength "original_bytes" = 14 := by decide +kernel
  have hname : textLength "content_sha256" = 14 := by decide +kernel
  have hmessage : textLength "message" = 7 := by decide +kernel
  have htext : textLength
      "Observation exceeded the declared output limit; its contents are unavailable." = 77 := by
    decide +kernel
  have hdigest : textLength (P.sha256 (serialized P record)) = 64 := by
    rw [textLength_of_plain (hsha _).2, (hsha _).1]
  rw [tooLarge, size_members (List.cons_ne_nil _ _)]
  simp only [List.map_cons, List.map_nil, List.sum_cons, List.sum_nil, size_str, hkind, herror,
    hlarge, hbytes, hname, hmessage, htext, hdigest, size_natCast]
  rw [lineOf]
  omega

theorem plain_of_source {source : String} (h : source ∈ sources) : ∀ c ∈ source.toList, Plain c := by
  have hall : ∀ s ∈ sources, (s.toList.all fun c => decide (Plain c)) = true := by decide +kernel
  exact plain_of_all (hall source h)

/-! ## The limit -/

namespace Observation

/-- The length of the line that says that an observation was too large. -/
def error (P : Platform) (o : Options) (obs : Observation) : ℕ :=
  360 + textLength o.runId + obs.timestamp.length + obs.source.length + digits (obs.bytes P o)

/-- An observation that has room, or for whose error there is. -/
def Fits (P : Platform) (o : Options) (obs : Observation) : Prop :=
  obs.bytes P o ≤ o.maxResultBytes ∨ obs.error P o ≤ o.maxResultBytes

theorem length_error (hP : P.Documented) (hsha : P.HexDigests) {obs : Observation}
    (hobs : obs.Standard) :
    (lineOf P (envelope obs.id o.runId obs.timestamp obs.source (tooLarge P (obs.full o)))).length =
      obs.error P o := by
  have hid : textLength obs.id = 36 := by
    rw [textLength_of_plain hobs.id.2, hobs.id.1]
  rw [length_lineOf hP, size_envelope, size_tooLarge hsha, hid, textLength_of_plain hobs.timestamp,
    textLength_of_plain (plain_of_source hobs.source)]
  unfold error bytes
  omega

/-- **A line is within the limit** exactly where the observation or its error is. -/
theorem length_record_le (hP : P.Documented) (hsha : P.HexDigests) {obs : Observation}
    (hobs : obs.Standard) :
    (lineOf P (obs.record P o)).length ≤ o.maxResultBytes ↔ obs.Fits P o := by
  unfold Fits
  by_cases hlarge : (obs.bytes P o : ℤ) > o.maxResultBytes
  · have hrecord : obs.record P o =
        envelope obs.id o.runId obs.timestamp obs.source (tooLarge P (obs.full o)) := by
      rw [record, recordOf, boundedPayload]
      exact congrArg _ (if_pos hlarge)
    rw [hrecord, length_error hP hsha hobs]
    omega
  · have hrecord : obs.record P o = obs.full o := by
      rw [record, recordOf, boundedPayload]
      exact congrArg _ (if_neg hlarge)
    rw [hrecord]
    change (obs.bytes P o : ℤ) ≤ _ ↔ _
    omega

end Observation

/-! ## Every line of a run -/

/-- A record that is committed is one of an observation. -/
def Committed (P : Platform) (o : Options) (l : Act) : Prop :=
  ∀ record, l = .commit record → o.check = .ok () ∧
    ∃ obs : Observation, obs.source ∈ sources ∧ record = obs.record P o

section
variable (P : Platform) (o : Options)

/-- An act that commits nothing. -/
theorem committed_of_ne {l : Act} (h : ∀ record, l ≠ .commit record) : Committed P o l :=
  fun record hl => absurd hl (h record)

theorem labels_uuid4 : uuid4.Labels (Committed P o) :=
  Prog.labels_bind (Prog.labels_ask _) fun _ => Prog.labels_perform (committed_of_ne P o nofun)

theorem labels_readLog : readLog.Labels (Committed P o) :=
  Prog.labels_perform (committed_of_ne P o nofun)

theorem labels_keepAll (path : String) (bytes : Bytes) :
    (keepAll path bytes).Labels (Committed P o) := by
  induction bytes with
  | nil => exact Prog.labels_pure _
  | cons b bytes ih =>
      exact Prog.labels_bind (Prog.labels_perform (committed_of_ne P o nofun)) fun _ => ih

theorem labels_recoverTail (data : Bytes) : (recoverTail data).Labels (Committed P o) := by
  refine Prog.labels_bind (labels_uuid4 P o) fun text => ?_
  refine Prog.labels_bind ?_ fun _ => ?_
  · refine Prog.labels_bind (Prog.labels_perform (committed_of_ne P o nofun)) fun created => ?_
    cases created with
    | true => exact Prog.labels_pure _
    | false => exact Prog.labels_throw _
  refine Prog.labels_bind (labels_keepAll P o _ _) fun _ => ?_
  refine Prog.labels_bind ?_ fun _ => ?_
  · refine Prog.labels_bind (labels_readLog P o) fun log => ?_
    split
    · exact Prog.labels_ofExcept _
    · exact Prog.labels_pure _
  refine Prog.labels_bind (Prog.labels_perform (committed_of_ne P o nofun)) fun _ => ?_
  exact Prog.labels_modify _

theorem labels_create : (create P o).Labels (Committed P o) := by
  refine Prog.labels_bind (Prog.labels_ofExcept _) fun _ => ?_
  refine Prog.labels_bind (Prog.labels_set _) fun _ => ?_
  refine Prog.labels_bind (labels_readLog P o) fun log => ?_
  cases log with
  | none => exact Prog.labels_pure _
  | some data =>
      refine Prog.labels_bind (Prog.labels_ofExcept _) fun tools => ?_
      refine Prog.labels_bind (Prog.labels_set _) fun _ => ?_
      split
      · exact Prog.labels_pure _
      · exact labels_recoverTail P o data

theorem labels_appendAll (bytes : Bytes) : (appendAll bytes).Labels (Committed P o) := by
  induction bytes with
  | nil => exact Prog.labels_pure _
  | cons b bytes ih =>
      exact Prog.labels_bind (Prog.labels_perform (committed_of_ne P o nofun)) fun _ => ih

theorem labels_parse (text : String) : (parse P text).Labels (Committed P o) := by
  unfold parse
  split
  · exact Prog.labels_pure _
  · exact Prog.labels_throw _

variable {P o}

theorem labels_appendLine {record : Json} (h : Committed P o (.commit record)) :
    (appendLine P record).Labels (Committed P o) := by
  unfold appendLine
  refine Prog.labels_bind (Prog.labels_perform (committed_of_ne P o nofun)) fun _ => ?_
  refine Prog.labels_bind (labels_appendAll P o _) fun _ => ?_
  exact Prog.labels_perform h

/-- **`_record` commits the record of its observation**, and nothing else. -/
theorem labels_record (hcheck : o.check = .ok ()) {source : String} (hsource : source ∈ sources)
    (payload : List (String × Json)) :
    (record P o source payload).Labels (Committed P o) := by
  unfold record
  refine Prog.labels_bind (labels_uuid4 P o) fun id => ?_
  refine Prog.labels_bind (Prog.labels_ask _) fun timestamp => ?_
  refine Prog.labels_bind (labels_appendLine ?_) fun _ => ?_
  · rintro _ ⟨⟩
    exact ⟨hcheck, ⟨id, timestamp.1, source, payload⟩, hsource, rfl⟩
  refine Prog.labels_bind (Prog.labels_modify _) fun _ => ?_
  exact labels_parse P o _

theorem name_mem_sources (tool : Tool) : tool.name ∈ sources := by
  cases tool <;> decide

theorem labels_callTool (hcheck : o.check = .ok ()) (tool : Tool) (arguments : Arguments) :
    (callTool P o tool arguments).Labels (Committed P o) := by
  refine Prog.labels_bind ?_ fun outcome => ?_
  · cases arguments with
    | finish f => exact Prog.labels_pure _
    | nothing | operation _ | proposal _ =>
        exact Prog.labels_bind (Prog.labels_ask _) fun answer => Prog.labels_pure _
  refine Prog.labels_bind (labels_record hcheck (name_mem_sources tool) _) fun answer => ?_
  refine Prog.labels_bind (Prog.labels_ofExcept _) fun claimed => ?_
  dsimp only
  split
  · refine Prog.labels_bind (labels_parse P o _) fun terminal => ?_
    exact Prog.labels_bind (Prog.labels_modify _) fun _ => Prog.labels_pure _
  · exact Prog.labels_pure _

theorem labels_call (hcheck : o.check = .ok ()) (name args : Json) :
    (call P o name args).Labels (Committed P o) := by
  refine Prog.labels_bind Prog.labels_get fun tools => ?_
  split
  · exact Prog.labels_bind (Prog.labels_ask _) fun timestamp => Prog.labels_pure _
  refine Prog.labels_bind (Prog.labels_modify _) fun _ => ?_
  cases tool? name with
  | none => exact labels_record hcheck (by decide) _
  | some tool =>
      dsimp only
      cases tool.validate args with
      | none => exact labels_record hcheck (name_mem_sources tool) _
      | some arguments =>
          dsimp only
          cases refusal? o tools arguments with
          | some error => exact labels_record hcheck (name_mem_sources tool) _
          | none => exact labels_callTool hcheck tool arguments

theorem labels_serve (hcheck : o.check = .ok ()) (requests : List (Json × Json)) :
    (serve P o requests).Labels (Committed P o) := by
  induction requests with
  | nil => exact Prog.labels_pure _
  | cons request requests ih =>
      refine Prog.labels_bind (Prog.labels_attempt (labels_call hcheck _ _)) fun _ => ?_
      refine Prog.labels_bind Prog.labels_get fun tools => ?_
      exact Prog.labels_bind (Prog.labels_perform (committed_of_ne P o nofun)) fun _ => ih

/-- A constructor that refuses its options starts nothing. -/
theorem labels_session (requests : List (Json × Json)) :
    (session P o requests).Labels (Committed P o) := by
  cases hcheck : o.check with
  | error e =>
      have hfail : create P o .initial = .fail (.python e, .initial) := by
        unfold create
        rw [hcheck]
        rfl
      change ((create P o .initial).bind _).Labels _
      rw [hfail]
      trivial
  | ok _ =>
      refine Proc.labels_bind (labels_create P o _) fun a => ?_
      refine Prog.labels_bind Prog.labels_get (fun tools => ?_) a.2
      exact Prog.labels_bind (Prog.labels_perform (committed_of_ne P o nofun)) fun _ =>
        labels_serve hcheck requests

end

theorem mem_committed {hist : List Done} {record : Json} (h : record ∈ committed hist) :
    ∃ e ∈ hist, e.label = .commit record := by
  induction hist with
  | nil => exact absurd h List.not_mem_nil
  | cons e hist ih =>
      unfold committed at h
      split at h
      · next r hlabel =>
          rcases List.mem_append.1 h with h | h
          · obtain ⟨e', he', hl⟩ := ih h
            exact ⟨e', List.mem_cons_of_mem e he', hl⟩
          · rw [List.mem_singleton.1 h]
            exact ⟨e, List.mem_cons_self, hlabel⟩
      · obtain ⟨e', he', hl⟩ := ih h
        exact ⟨e', List.mem_cons_of_mem e he', hl⟩

/-- **The lines of the log are within the limit** exactly where there is room.  A line has at
most `max_result_bytes` bytes if and only if its observation has, or the escaped run id, the time,
the name of the tool and the number that says how large the observation was leave 360 bytes for
the error; and in every run each complete line of the log is the line of an observation by a
process whose options were accepted, so that it is within the limit of that process wherever there
is room. -/
theorem line_bound (hP : P.Documented) (hsha : P.HexDigests) :
    (∀ (o : Options) (obs : Observation), obs.Standard →
      ((lineOf P (obs.record P o)).length ≤ o.maxResultBytes ↔ obs.Fits P o)) ∧
    ∀ (run : String) (c : Sessions), Reachable (sessions P run) c → ∀ line ∈ c.view.world.lines,
      ∃ e ∈ c.view.hist, ∃ obs : Observation, e.actor.check = .ok () ∧ obs.source ∈ sources ∧
        line = lineOf P (obs.record P e.actor) ∧
        (obs.Standard → obs.Fits P e.actor → line.length ≤ e.actor.maxResultBytes) := by
  refine ⟨fun o obs hobs => obs.length_record_le hP hsha hobs, ?_⟩
  intro run c hc line hline
  have hlabels := hc.labels (Q := Committed P) fun o p hp => by
    obtain ⟨-, requests, rfl⟩ := hp
    exact labels_session requests
  rw [(inv_of_reachable hP hc).committed] at hline
  obtain ⟨record, hrecord, rfl⟩ := List.mem_map.1 hline
  obtain ⟨e, he, hlabel⟩ := mem_committed hrecord
  obtain ⟨hcheck, obs, hsource, rfl⟩ := hlabels e he record hlabel
  exact ⟨e, he, obs, hcheck, hsource, rfl, fun hobs => (obs.length_record_le hP hsha hobs).2⟩

/-! ## A run id that leaves no room -/

section
variable {t : ℕ} {v : Seen} {m : ObservationTools}

theorem may_appendAll (bytes : Bytes) (hopen : v.world = v.world.appended []) :
    may t o (appendAll bytes m) (fun r u => r = .ok ((), m) ∧
      u.world = v.world.appended bytes) v := by
  induction bytes generalizing v with
  | nil => exact ⟨rfl, hopen⟩
  | cons b bytes ih =>
      have hnext : v.world.appended [b] = (v.world.appended [b]).appended [] := by
        rw [Directory.appended_appended, List.append_nil]
      refine ⟨_, _, rfl, may_mono (@ih (v.log t o (.append b) (v.world.appended [b])) hnext) ?_⟩
      rintro r u ⟨hr, hu⟩
      rw [View.log_world, Directory.appended_appended] at hu
      exact ⟨hr, hu⟩

/-- A line can be appended to its end. -/
theorem visits_committed (record : Json) {Q : Seen → Prop}
    (hQ : ∀ u : Seen, u.world = v.world.appended (lineOf P record ++ [newline]) → Q u) :
    visits t o (appendLine P record m) Q v := by
  unfold appendLine
  refine .inr ⟨_, _, rfl, ?_⟩
  have hworld : ({ v.world with log := some v.world.bytes } : Directory) = v.world.appended [] := by
    rw [Directory.appended, List.append_nil]
  change visits t o ((appendAll (lineOf P record) >>= fun _ => Prog.perform (.commit record) fun _ d =>
    some ((), { d with log := some (d.log.getD [] ++ [newline]) }) : Program Unit) m) Q
    (v.log t o .openLog { v.world with log := some v.world.bytes })
  rw [hworld]
  have hopen : v.world.appended [] = (v.world.appended []).appended [] :=
    (Directory.appended_appended v.world [] []).symm
  have hmay := may_appendAll (t := t) (o := o) (m := m) (lineOf P record)
    (v := v.log t o .openLog (v.world.appended [])) hopen
  refine visits_bind (may_mono hmay ?_)
  rintro _ u ⟨rfl, hu⟩
  refine ⟨_, rfl, .inr ⟨_, _, rfl, visits_here (hQ _ ?_)⟩⟩
  rw [View.log_world, Directory.appended_appended, List.nil_append] at hu
  change u.world.appended [newline] = _
  rw [hu, Directory.appended_appended]

/-- An observation can be recorded to the end of its line. -/
theorem visits_recorded {id : String} (hid : ¬(id = "" ∨ id ∈ v.world.drawn)) (now : Now P)
    (source : String) (payload : List (String × Json)) :
    visits t o (record P o source payload m) (fun u => u.world.bytes = v.world.bytes ++
      (lineOf P ((⟨id, now.1, source, payload⟩ : Observation).record P o) ++ [newline])) v := by
  unfold record
  refine visits_andThen (b := id) ⟨id, _, _, if_neg hid, rfl, ?_⟩
  refine visits_ask now (visits_left (visits_committed _ fun u hu => ?_))
  rw [hu]
  rfl

end

/-- The digest of the record of the observation below. -/
def accentedDigest : String := "e33b722e9771640f3149ab7e8a97b6b6e7dc6dce3eddfd582c663118ae506534"

/-- A platform on which the digest of the observation below is the one that it has. -/
def accentedPlatform : Platform := { samplePlatform with sha256 := fun _ => accentedDigest }

theorem documented_accentedPlatform : accentedPlatform.Documented :=
  ⟨floatText_fraction, printable_fractionText, fun _ h => congrArg some (map_encode h)⟩

theorem hexDigests_accentedPlatform : accentedPlatform.HexDigests := by
  have hlength : accentedDigest.length = 64 := by decide +kernel
  have hplain : ∀ c ∈ accentedDigest.toList, Plain c := plain_of_all (by decide +kernel)
  exact fun _ => ⟨hlength, hplain⟩

/-- A run id of 253 accented letters, each of which is written as six characters. -/
def accentedOptions : Options := ⟨String.ofList (List.replicate 253 'é'), 40, 1024⟩

def accentedObservation : Observation :=
  ⟨"00000000-0000-4000-8000-000000000000", "2026-01-01T00:00:00+00:00", "unknown_tool",
    errorPayload "unknown_tool"⟩

theorem standard_accentedObservation : accentedObservation.Standard :=
  ⟨⟨by decide +kernel, plain_of_all (by decide +kernel)⟩, plain_of_all (by decide +kernel), by decide⟩

/-- In a run with a shorter id the same observation has room, and its line is within the limit. -/
theorem line_bound_short :
    (lineOf accentedPlatform (accentedObservation.record accentedPlatform sampleOptions)).length ≤
      sampleOptions.maxResultBytes := by
  have hfull : accentedObservation.bytes accentedPlatform sampleOptions = 200 := by
    have hid : textLength accentedObservation.id = 36 := by decide +kernel
    have hrun : textLength sampleOptions.runId = 5 := by decide +kernel
    have htime : textLength accentedObservation.timestamp = 25 := by decide +kernel
    have htool : textLength "unknown_tool" = 12 := by decide +kernel
    have hpayload : size accentedPlatform.reprFloat lineLayout (.obj accentedObservation.payload) = 42 := by
      decide +kernel
    rw [Observation.bytes, length_lineOf documented_accentedPlatform, Observation.full, size_envelope,
      hid, hrun, htime, hpayload]
    change 80 + 36 + 5 + 25 + textLength "unknown_tool" + 42 = _
    rw [htool]
  refine ((line_bound documented_accentedPlatform hexDigests_accentedPlatform).1 sampleOptions
    accentedObservation standard_accentedObservation).2 (.inl ?_)
  rw [hfull]
  decide

theorem toList_accentedRun : accentedOptions.runId.toList = List.replicate 253 'é' := by
  have hrun : accentedOptions.runId = String.ofList (List.replicate 253 'é') := rfl
  rw [hrun, String.toList_ofList]

theorem textLength_accentedRun : textLength accentedOptions.runId = 1518 := by
  have hletter : (escaped 'é').length = 6 := by decide
  have hsum : ((List.replicate 253 'é').map fun c => (escaped c).length).sum = 253 * 6 := by
    rw [List.map_replicate, hletter, List.sum_replicate_nat]
  rw [textLength_eq_sum, toList_accentedRun, hsum]

theorem not_fits_accented : ¬accentedObservation.Fits accentedPlatform accentedOptions := by
  have hrun := textLength_accentedRun
  have hfull : 1518 < accentedObservation.bytes accentedPlatform accentedOptions := by
    rw [Observation.bytes, length_lineOf documented_accentedPlatform, Observation.full, size_envelope,
      hrun]
    omega
  have herror : 1518 < accentedObservation.error accentedPlatform accentedOptions := by
    rw [Observation.error, hrun]
    omega
  rintro (h | h)
  · change ((_ : ℕ) : ℤ) ≤ 1024 at h
    omega
  · change ((_ : ℕ) : ℤ) ≤ 1024 at h
    omega

/-- The tools can be created where there is no log. -/
theorem may_create {t : ℕ} {v : Seen} (hcheck : o.check = .ok ()) (hv : v.world.log = none) :
    may t o (create P o .initial) (fun r u => r = .ok ((), .initial) ∧ u.world = v.world) v := by
  unfold create
  rw [hcheck]
  refine ⟨v.world.log, _, rfl, ?_⟩
  rw [hv]
  exact ⟨rfl, rfl⟩

/-- A tool that does not exist can be called, and its line written. -/
theorem visits_unknownTool {t : ℕ} {v : Seen} (hcheck : o.check = .ok ()) (hcalls : 0 < o.maxCalls)
    (hv : v.world = ⟨none, [], []⟩) {id : String} (hid : id ≠ "") (now : Now P) :
    visits t o (session P o [(.null, .null)]) (fun u =>
      u.world.bytes = lineOf P ((⟨id, now.1, "unknown_tool", errorPayload "unknown_tool"⟩ :
        Observation).record P o) ++ [newline]) v := by
  have hcreate : may t o (create P o .initial) (fun r u =>
      r = .ok ((), .initial) ∧ u.world = v.world) v := may_create hcheck (by rw [hv])
  refine visits_andThen (may_mono hcreate fun r u hu => ⟨hu.1, ?_⟩)
  refine .inr ⟨_, _, rfl, visits_left (visits_attempt ?_)⟩
  have hnot : ¬((ObservationTools.initial.callCount : ℤ) ≥ o.maxCalls ∨
      ObservationTools.initial.terminal.isSome) := by
    rintro (h | h)
    · change (0 : ℤ) ≥ _ at h
      omega
    · cases h
  change visits t o ((if _ then _ else _ : Program Json) ObservationTools.initial) _ _
  rw [if_neg hnot]
  have hworld : (u.log t o (.opened .initial) u.world).world = ⟨none, [], []⟩ := by
    rw [View.log_world, hu.2, hv]
  have hnew : ¬(id = "" ∨ id ∈ (u.log t o (.opened .initial) u.world).world.drawn) := by
    rw [hworld]
    exact not_or.2 ⟨hid, List.not_mem_nil⟩
  refine visits_mono (visits_recorded hnew now "unknown_tool" (errorPayload "unknown_tool")) ?_
  intro w hw
  rw [hw, hworld]
  exact List.nil_append _

/-- A call of a tool that does not exist leaves a line of its own. -/
theorem reachable_unknownTool (hP : P.Documented) (hcheck : o.check = .ok ())
    (hcalls : 0 < o.maxCalls) {id : String} (hid : id ≠ "") (now : Now P) :
    ∃ c : Sessions, Reachable (sessions P o.runId) c ∧ lineOf P ((⟨id, now.1, "unknown_tool",
      errorPayload "unknown_tool"⟩ : Observation).record P o) ∈ c.view.world.lines := by
  have hvisits := visits_unknownTool (P := P) (t := 1) (v := ⟨⟨none, [], []⟩, []⟩) hcheck hcalls rfl
    hid now
  obtain ⟨c, hc, -, -, hbytes⟩ := Reachable.visits (S := sessions P o.runId) (.init rfl) rfl
    ⟨rfl, _, rfl⟩ (visits_mono hvisits fun _ hu => ⟨trivial, hu⟩)
  refine ⟨c, hc, ?_⟩
  have hnl := newline_not_mem_lineOf hP ((⟨id, now.1, "unknown_tool",
    errorPayload "unknown_tool"⟩ : Observation).record P o)
  have hfile := (entries_file (List.forall_mem_singleton.2 hnl)).1
  rw [file, List.flatMap_cons, List.flatMap_nil, List.append_nil] at hfile
  rw [Directory.lines, hbytes, hfile]
  exact List.mem_singleton_self _

theorem check_accentedOptions : accentedOptions.check = .ok () := by
  have hblank : ¬(accentedOptions.runId.toList.all Broker.isStripped ∨
      accentedOptions.runId.length > 253) := by
    rw [← String.length_toList, toList_accentedRun, List.length_replicate, List.all_replicate]
    decide
  exact if_neg hblank

/-- A call of a tool that does not exist leaves a line of more than 1024 bytes, which is what the
log was limited to. -/
theorem line_bound_accented : accentedOptions.check = .ok () ∧
    ∃ c : Sessions, Reachable (sessions accentedPlatform accentedOptions.runId) c ∧
      ∃ line ∈ c.view.world.lines, accentedOptions.maxResultBytes < line.length := by
  have hid : accentedObservation.id ≠ "" := by decide +kernel
  obtain ⟨c, hc, hline⟩ := reachable_unknownTool documented_accentedPlatform check_accentedOptions
    (show (0 : ℤ) < 40 by decide) hid ⟨accentedObservation.timestamp, 0, rfl⟩
  have hlong := (accentedObservation.length_record_le documented_accentedPlatform
    hexDigests_accentedPlatform standard_accentedObservation).not.2 not_fits_accented
  exact ⟨check_accentedOptions, c, hc, _, hline, not_le.1 hlong⟩

end AutonomyLab.Toolbox
