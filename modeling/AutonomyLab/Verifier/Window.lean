import Mathlib.Algebra.Order.Floor.Ring
import Mathlib.Data.List.Induction
import Mathlib.Data.Rat.Floor
import AutonomyLab.Process.Clock
import AutonomyLab.Verifier.Snapshot

/-!
# The verification window

`run_window`: probes are taken over a window of time, with a pause between the end of one
and the start of the next, until one has started at or after the end of the window.

* `fromkeys` — what `dict.fromkeys` keeps.
* `probe` — one probe: what the collector returned, and what it shows.
* `probeLoop`, `runWindow` — the loop, and the record of it.
* `Paced` — what holds at the head of the loop.
* `run_window_terminates` — how many probes there are, where they start, and what the
  record says of them.
-/

namespace AutonomyLab.Verifier

open Json Process

/-! ## Values -/

/-- `list(dict.fromkeys(values))`. -/
def fromkeys {α : Type} [DecidableEq α] (values : List α) : List α :=
  values.foldl (fun keys value => if value ∈ keys then keys else keys ++ [value]) []

theorem fromkeys_concat {α : Type} [DecidableEq α] (values : List α) (value : α) :
    fromkeys (values ++ [value]) =
      if value ∈ fromkeys values then fromkeys values else fromkeys values ++ [value] := by
  rw [fromkeys, List.foldl_append]
  rfl

@[simp] theorem mem_fromkeys {α : Type} [DecidableEq α] {values : List α} {value : α} :
    value ∈ fromkeys values ↔ value ∈ values := by
  induction values using List.reverseRecOn with
  | nil => rfl
  | append_singleton values value' ih =>
      rw [fromkeys_concat]
      split
      · rename_i hmem
        rw [ih, List.mem_append, List.mem_singleton]
        refine ⟨.inl, fun h => h.elim id fun heq => ?_⟩
        rw [heq] at ih ⊢
        exact ih.1 hmem
      · rw [List.mem_append, List.mem_append, ih]

/-- The keys are in the order of their first occurrences. -/
theorem fromkeys_pairwise {α : Type} [DecidableEq α] (values : List α) :
    (fromkeys values).Pairwise fun value value' => values.idxOf value < values.idxOf value' := by
  induction values using List.reverseRecOn with
  | nil => exact List.Pairwise.nil
  | append_singleton values value ih =>
      have hbefore : ∀ {key}, key ∈ fromkeys values →
          (values ++ [value]).idxOf key = values.idxOf key :=
        fun hkey => List.idxOf_append_of_mem (mem_fromkeys.1 hkey)
      have hkeep : (fromkeys values).Pairwise fun key key' =>
          (values ++ [value]).idxOf key < (values ++ [value]).idxOf key' := by
        refine ih.imp_of_mem fun hkey hkey' hlt => ?_
        rw [hbefore hkey, hbefore hkey']
        exact hlt
      rw [fromkeys_concat]
      split
      · exact hkeep
      · rename_i hnew
        rw [mem_fromkeys] at hnew
        refine List.pairwise_append.2 ⟨hkeep, List.pairwise_singleton _ _, fun key hkey key' hkey' => ?_⟩
        rw [List.mem_singleton.1 hkey', hbefore hkey, List.idxOf_append_of_notMem hnew]
        have hlt := List.idxOf_lt_length_iff.2 (mem_fromkeys.1 hkey)
        omega

/-- The nearest integer, and the even one of two. -/
def roundHalfEven (q : ℚ) : ℤ :=
  if q - ⌊q⌋ < 1 / 2 then ⌊q⌋
  else if 1 / 2 < q - ⌊q⌋ then ⌊q⌋ + 1
  else if ⌊q⌋ % 2 = 0 then ⌊q⌋ else ⌊q⌋ + 1

/-- `round(seconds, 6)`. -/
def roundMicro (seconds : ℚ) : ℚ := roundHalfEven (seconds * 1000000) / 1000000

/-! ## Probes -/

/-- An entry of `probes`; the times are written in the record rounded. -/
structure Probe where
  index : ℕ
  startedAt : String
  finishedAt : String
  elapsed : ℚ
  /-- `probe_started - started`. -/
  offset : ℚ
  observations : Json
  assessment : Assessment

def Probe.toJson (p : Probe) : Json := .obj [
  ("index", .int p.index), ("started_at", .str p.startedAt), ("finished_at", .str p.finishedAt),
  ("elapsed_seconds", .float (roundMicro p.elapsed)),
  ("offset_seconds", .float (roundMicro p.offset)), ("observations", p.observations),
  ("verdict", .str p.assessment.verdict.text), ("reasons", .arr (p.assessment.reasons.map .str))]

/-- What is returned. -/
structure WindowRecord where
  verdict : Verdict
  reasons : List String
  startedAt : String
  finishedAt : String
  windowSeconds : ℚ
  intervalSeconds : ℚ
  elapsed : ℚ
  expectationVersion : Json
  probes : List Probe

/-- `counts[verdict]`. -/
def countOf (probes : List Probe) (verdict : Verdict) : ℕ :=
  probes.countP fun p => p.assessment.verdict = verdict

def WindowRecord.toJson (r : WindowRecord) : Json := .obj [
  ("verdict", .str r.verdict.text), ("reasons", .arr (r.reasons.map .str)),
  ("started_at", .str r.startedAt), ("finished_at", .str r.finishedAt),
  ("window_seconds", .float r.windowSeconds), ("interval_seconds", .float r.intervalSeconds),
  ("elapsed_seconds", .float (roundMicro r.elapsed)), ("expectation_version", r.expectationVersion),
  ("counts", .obj [("total", .int r.probes.length),
    ("verified_success", .int (countOf r.probes .success)),
    ("verified_failure", .int (countOf r.probes .failure)),
    ("indeterminate", .int (countOf r.probes .indeterminate))]),
  ("probes", .arr (r.probes.map Probe.toJson))]

/-- What `run_window` is given and what it runs on. -/
structure Host where
  clock : Clock
  /-- `timestamp()`, by the events before it. -/
  timestamp : ℕ → String
  /-- What the collector returns at each call, or the name of the exception it raises. -/
  collector : ℕ → Except String Json
  /-- `str(value)`. -/
  str : Json → String

section
variable (host : Host) (expectations : Expectations) (windowSeconds intervalSeconds : ℚ)
  (expectedTargetPort : ℤ)

/-- The snapshot that is recorded, and what it is found to show. -/
def assess : Except String Json → Json × Assessment
  | .ok snapshot => (snapshot, evaluateSnapshot host.str expectations expectedTargetPort snapshot)
  | .error name => (.obj [("collection_error", .str name)],
      ⟨.indeterminate, ["verifier collection failed: " ++ name]⟩)

/-- The body of the loop, up to the probe it appends. -/
def probe (started : ℚ) (index : ℕ) (t : Instant) : Probe × Instant :=
  let clockRead := host.clock.next t
  let stamped := host.clock.next clockRead
  let collected := host.clock.next stamped
  let restamped := host.clock.next collected
  let finished := host.clock.next restamped
  let (observations, assessment) := assess host expectations expectedTargetPort (host.collector index)
  (⟨index, host.timestamp clockRead.events, host.timestamp collected.events,
    finished.now - clockRead.now, clockRead.now - started, observations, assessment⟩, finished)

/-- `sleep(min(interval_seconds, remaining))`, where anything remains. -/
def pause (started : ℚ) (t : Instant) : Instant :=
  let clockRead := host.clock.next t
  let remaining := max 0 (windowSeconds - (clockRead.now - started))
  if remaining ≠ 0 then host.clock.sleep clockRead (min intervalSeconds remaining) else clockRead

/-- The loop; there is no result where the fuel runs out. -/
def probeLoop (started : ℚ) : ℕ → List Probe → Instant → Option (List Probe × Instant)
  | 0, _, _ => none
  | fuel + 1, probes, t =>
      let (p, t) := probe host expectations expectedTargetPort started probes.length t
      let probes := probes ++ [p]
      if windowSeconds ≤ p.offset ∧ 2 ≤ probes.length then some (probes, t)
      else probeLoop started fuel probes (pause host windowSeconds intervalSeconds started t)

/-- `FAILURE if counts[FAILURE] else INDETERMINATE if counts[INDETERMINATE] else SUCCESS`. -/
def windowVerdict (probes : List Probe) : Verdict :=
  if countOf probes .failure ≠ 0 then .failure
  else if countOf probes .indeterminate ≠ 0 then .indeterminate else .success

/-- The record of the probes that were taken up to `t`. -/
def windowRecord (startedAt : String) (started : ℚ) (probes : List Probe) (t : Instant) :
    WindowRecord :=
  let stamped := host.clock.next t
  let finished := host.clock.next stamped
  ⟨windowVerdict probes, fromkeys (probes.flatMap fun p => p.assessment.reasons), startedAt,
    host.timestamp t.events, windowSeconds, intervalSeconds, finished.now - started,
    expectations.version, probes⟩

/-- `run_window`, with fuel for the loop. -/
def runWindow (fuel : ℕ) (t : Instant) : Option (Except PyError WindowRecord) :=
  if windowSeconds ≤ 0 then
    some (.error (.valueError "window_seconds must be a positive finite number"))
  else if intervalSeconds ≤ 0 then
    some (.error (.valueError "interval_seconds must be a positive finite number"))
  else if ¬ (1 ≤ expectedTargetPort ∧ expectedTargetPort ≤ 65535) then
    some (.error (.valueError "expected_target_port must be an integer TCP port"))
  else if ¬ expectations.products.truthy ∨ expectations.quotes = [] then
    some (.error (.valueError "Verifier cannot run with an empty expectation corpus"))
  else
    let stamped := host.clock.next t
    let started := host.clock.next stamped
    (probeLoop host expectations windowSeconds intervalSeconds expectedTargetPort started.now fuel []
      started).map fun (probes, t') =>
        .ok (windowRecord host expectations windowSeconds intervalSeconds (host.timestamp t.events)
          started.now probes t')

end

/-! ## The loop -/

section
variable {host : Host} {expectations : Expectations} {windowSeconds intervalSeconds started : ℚ}
  {expectedTargetPort : ℤ} {probes : List Probe} {t : Instant} {fuel : ℕ}

/-- What is said of the probes of a run at any time. -/
structure Taken (host : Host) (expectations : Expectations) (expectedTargetPort : ℤ)
    (probes : List Probe) : Prop where
  nonneg : ∀ p ∈ probes, 0 ≤ p.offset
  sorted : (probes.map Probe.offset).Pairwise (· ≤ ·)
  indices : probes.map Probe.index = List.range probes.length
  assessed : ∀ p ∈ probes, (p.observations, p.assessment) =
    assess host expectations expectedTargetPort (host.collector p.index)

/-- What holds at the head of the loop: after as many probes, so much of the window has
passed, and no probe but the first started at its end. -/
structure Paced (host : Host) (expectations : Expectations) (windowSeconds intervalSeconds : ℚ)
    (expectedTargetPort : ℤ) (started : ℚ) (probes : List Probe) (t : Instant) : Prop
    extends Taken host expectations expectedTargetPort probes where
  past : ∀ p ∈ probes, p.offset ≤ t.now - started
  progress : min windowSeconds (probes.length * intervalSeconds) ≤ t.now - started
  early : ∀ p ∈ probes.tail, p.offset < windowSeconds

/-- What holds of the probes that are recorded. -/
structure Completed (host : Host) (expectations : Expectations) (windowSeconds intervalSeconds : ℚ)
    (expectedTargetPort : ℤ) (probes : List Probe) : Prop
    extends Taken host expectations expectedTargetPort probes where
  two : 2 ≤ probes.length
  bounded : probes.length ≤ ⌈windowSeconds / intervalSeconds⌉₊ + 1
  last : ∃ p, probes.getLast? = some p ∧ windowSeconds ≤ p.offset
  early : ∀ p ∈ probes.dropLast.tail, p.offset < windowSeconds

variable (host expectations expectedTargetPort started t) in
/-- A probe starts no earlier than the loop came to it, and ends no earlier than it starts. -/
theorem probe_times (index : ℕ) :
    let (p, t') := probe host expectations expectedTargetPort started index t
    t.now - started ≤ p.offset ∧ p.offset ≤ t'.now - started := by
  have h₁ := host.clock.now_le_next t
  have h₂ := host.clock.now_le_next (host.clock.next t)
  have h₃ := host.clock.now_le_next (host.clock.next (host.clock.next t))
  have h₄ := host.clock.now_le_next (host.clock.next (host.clock.next (host.clock.next t)))
  have h₅ := host.clock.now_le_next
    (host.clock.next (host.clock.next (host.clock.next (host.clock.next t))))
  constructor
  · exact sub_le_sub_right h₁ started
  · exact sub_le_sub_right (h₂.trans (h₃.trans (h₄.trans h₅))) started

variable (host windowSeconds intervalSeconds started t) in
/-- A pause lasts for the interval, or to the end of the window. -/
theorem pause_progress :
    min windowSeconds (t.now - started + intervalSeconds) ≤
      (pause host windowSeconds intervalSeconds started t).now - started := by
  have hread := host.clock.now_le_next t
  unfold pause
  dsimp only
  split
  · have hsleep := host.clock.le_sleep (host.clock.next t)
      (min intervalSeconds (max 0 (windowSeconds - ((host.clock.next t).now - started))))
    rcases le_total intervalSeconds (max 0 (windowSeconds - ((host.clock.next t).now - started)))
      with hle | hle
    · rw [min_eq_left hle] at hsleep ⊢
      exact min_le_of_right_le (by linarith)
    · rw [min_eq_right hle] at hsleep ⊢
      have hmax := le_max_right 0 (windowSeconds - ((host.clock.next t).now - started))
      exact min_le_of_left_le (by linarith)
  · rename_i hnone
    rw [ne_eq, not_not] at hnone
    have hmax := le_max_right 0 (windowSeconds - ((host.clock.next t).now - started))
    exact min_le_of_left_le (by linarith)

variable (host windowSeconds started t) in
theorem le_pause (hinterval : 0 < intervalSeconds) :
    t.now ≤ (pause host windowSeconds intervalSeconds started t).now := by
  have hread := host.clock.now_le_next t
  unfold pause
  dsimp only
  split
  · have hsleep := host.clock.le_sleep (host.clock.next t)
      (min intervalSeconds (max 0 (windowSeconds - ((host.clock.next t).now - started))))
    have hpositive := le_min hinterval.le
      (le_max_left 0 (windowSeconds - ((host.clock.next t).now - started)))
    linarith
  · exact hread

/-- One more probe. -/
theorem Taken.append (h : Taken host expectations expectedTargetPort probes)
    (hpast : ∀ p ∈ probes, p.offset ≤ t.now - started) (hstarted : 0 ≤ t.now - started) :
    Taken host expectations expectedTargetPort
      (probes ++ [(probe host expectations expectedTargetPort started probes.length t).1]) := by
  have htimes := probe_times host expectations started expectedTargetPort t probes.length
  refine ⟨fun p hp => ?_, ?_, ?_, fun p hp => ?_⟩
  · rcases List.mem_append.1 hp with hp | hp
    · exact h.nonneg p hp
    · rw [List.mem_singleton.1 hp]
      exact hstarted.trans htimes.1
  · rw [List.map_append, List.map_singleton, List.pairwise_append]
    refine ⟨h.sorted, List.pairwise_singleton _ _, fun offset hoffset offset' hoffset' => ?_⟩
    obtain ⟨p, hp, rfl⟩ := List.mem_map.1 hoffset
    rw [List.mem_singleton.1 hoffset']
    exact (hpast p hp).trans htimes.1
  · rw [List.map_append, h.indices, List.length_append, List.map_singleton, List.length_singleton,
      List.range_succ]
    rfl
  · rcases List.mem_append.1 hp with hp | hp
    · exact h.assessed p hp
    · rw [List.mem_singleton.1 hp]
      rfl

theorem min_add_le_min {a b c : ℚ} (hc : 0 ≤ c) : min a (b + c) ≤ min a b + c := by
  rcases le_total a b with h | h
  · rw [min_eq_left h]
    exact (min_le_left _ _).trans (le_add_of_nonneg_right hc)
  · rw [min_eq_right h]
    exact min_le_right _ _

/-- A probe that does not end the loop, and the pause after it. -/
theorem Paced.step (h : Paced host expectations windowSeconds intervalSeconds expectedTargetPort
    started probes t) (hwindow : 0 < windowSeconds) (hinterval : 0 < intervalSeconds)
    {p : Probe} {t' : Instant}
    (hprobe : probe host expectations expectedTargetPort started probes.length t = (p, t'))
    (hnext : ¬ (windowSeconds ≤ p.offset ∧ 2 ≤ (probes ++ [p]).length)) :
    Paced host expectations windowSeconds intervalSeconds expectedTargetPort started (probes ++ [p])
      (pause host windowSeconds intervalSeconds started t') := by
  have htimes := probe_times host expectations started expectedTargetPort t probes.length
  have hstarted : 0 ≤ t.now - started :=
    (le_min hwindow.le (mul_nonneg (Nat.cast_nonneg _) hinterval.le)).trans h.progress
  have htaken := h.toTaken.append h.past hstarted
  rw [hprobe] at htimes htaken
  have hpause := le_pause host windowSeconds started t' hinterval
  refine ⟨htaken, fun p' hp' => ?_, ?_, fun p' hp' => ?_⟩
  · have hnow : t.now - started ≤ (pause host windowSeconds intervalSeconds started t').now - started :=
      (htimes.1.trans htimes.2).trans (sub_le_sub_right hpause started)
    rcases List.mem_append.1 hp' with hp' | hp'
    · exact (h.past p' hp').trans hnow
    · rw [List.mem_singleton.1 hp']
      exact htimes.2.trans (sub_le_sub_right hpause started)
  · have hprogress := pause_progress host windowSeconds intervalSeconds started t'
    refine le_trans (le_min (min_le_left _ _) ?_) hprogress
    have hbefore : min windowSeconds (probes.length * intervalSeconds) ≤ t'.now - started :=
      h.progress.trans (htimes.1.trans htimes.2)
    rw [List.length_append, List.length_singleton, Nat.cast_add, Nat.cast_one, add_mul, one_mul]
    exact (min_add_le_min hinterval.le).trans (by linarith)
  · -- only a first probe does not end the loop at the end of the window
    cases hprobes : probes with
    | nil =>
        rw [hprobes] at hp'
        cases hp'
    | cons first rest =>
        rw [hprobes, List.cons_append, List.tail_cons] at hp'
        rcases List.mem_append.1 hp' with hp' | hp'
        · exact h.early p' (by rw [hprobes]; exact hp')
        · rw [List.mem_singleton.1 hp']
          by_contra hge
          refine hnext ⟨not_lt.1 hge, ?_⟩
          rw [hprobes, List.length_append, List.length_cons, List.length_singleton]
          omega

/-- A probe that ends the loop. -/
theorem Paced.complete (h : Paced host expectations windowSeconds intervalSeconds expectedTargetPort
    started probes t) (hwindow : 0 < windowSeconds) (hinterval : 0 < intervalSeconds)
    (hbound : probes.length ≤ ⌈windowSeconds / intervalSeconds⌉₊) {p : Probe} {t' : Instant}
    (hprobe : probe host expectations expectedTargetPort started probes.length t = (p, t'))
    (hlast : windowSeconds ≤ p.offset ∧ 2 ≤ (probes ++ [p]).length) :
    Completed host expectations windowSeconds intervalSeconds expectedTargetPort (probes ++ [p]) := by
  have hstarted : 0 ≤ t.now - started :=
    (le_min hwindow.le (mul_nonneg (Nat.cast_nonneg _) hinterval.le)).trans h.progress
  have htaken := h.toTaken.append h.past hstarted
  rw [hprobe] at htaken
  refine ⟨htaken, hlast.2, ?_, ⟨p, List.getLast?_concat .., hlast.1⟩, ?_⟩
  · rw [List.length_append, List.length_singleton]
    omega
  · rw [List.dropLast_concat]
    exact h.early

/-- After so many probes the window has passed. -/
theorem Paced.passed (h : Paced host expectations windowSeconds intervalSeconds expectedTargetPort
    started probes t) (hinterval : 0 < intervalSeconds)
    (hcount : ⌈windowSeconds / intervalSeconds⌉₊ ≤ probes.length) :
    windowSeconds ≤ t.now - started := by
  have hceil : windowSeconds / intervalSeconds ≤ probes.length :=
    (Nat.le_ceil _).trans (Nat.cast_le.2 hcount)
  rw [div_le_iff₀ hinterval] at hceil
  rw [← min_eq_left hceil]
  exact h.progress

/-- **The loop ends in time.** -/
theorem probeLoop_completed (hwindow : 0 < windowSeconds) (hinterval : 0 < intervalSeconds)
    (h : Paced host expectations windowSeconds intervalSeconds expectedTargetPort started probes t)
    (hbound : probes.length ≤ ⌈windowSeconds / intervalSeconds⌉₊)
    (hfuel : ⌈windowSeconds / intervalSeconds⌉₊ + 1 ≤ probes.length + fuel) :
    ∃ probes' t', probeLoop host expectations windowSeconds intervalSeconds expectedTargetPort
        started fuel probes t = some (probes', t') ∧
      Completed host expectations windowSeconds intervalSeconds expectedTargetPort probes' := by
  induction fuel generalizing probes t with
  | zero => omega
  | succ fuel ih =>
      obtain ⟨p, t', hprobe⟩ : ∃ p t', probe host expectations expectedTargetPort started
        probes.length t = (p, t') := ⟨_, _, rfl⟩
      unfold probeLoop
      rw [hprobe]
      dsimp only
      by_cases hlast : windowSeconds ≤ p.offset ∧ 2 ≤ (probes ++ [p]).length
      · rw [if_pos hlast]
        exact ⟨_, _, rfl, h.complete hwindow hinterval hbound hprobe hlast⟩
      · rw [if_neg hlast]
        have hlength : (probes ++ [p]).length = probes.length + 1 := by
          rw [List.length_append, List.length_singleton]
        refine ih (h.step hwindow hinterval hprobe hlast) ?_ ?_
        · -- with as many probes as fit, this one ended the loop
          rw [hlength]
          by_contra hmany
          have hfull : probes.length = ⌈windowSeconds / intervalSeconds⌉₊ := by omega
          have htimes := probe_times host expectations started expectedTargetPort t probes.length
          rw [hprobe] at htimes
          refine hlast ⟨(h.passed hinterval hfull.ge).trans htimes.1, ?_⟩
          have hpositive : 0 < ⌈windowSeconds / intervalSeconds⌉₊ :=
            Nat.ceil_pos.2 (div_pos hwindow hinterval)
          omega
        · omega

theorem probeLoop_more {probes' : List Probe} {t' : Instant}
    (h : probeLoop host expectations windowSeconds intervalSeconds expectedTargetPort started fuel
      probes t = some (probes', t')) (more : ℕ) :
    probeLoop host expectations windowSeconds intervalSeconds expectedTargetPort started
      (fuel + more) probes t = some (probes', t') := by
  induction fuel generalizing probes t with
  | zero => cases h
  | succ fuel ih =>
      rw [Nat.succ_add_eq_add_succ, Nat.add_succ]
      unfold probeLoop at h ⊢
      dsimp only at h ⊢
      split
      · rename_i hlast
        rw [if_pos hlast] at h
        exact h
      · rename_i hlast
        rw [if_neg hlast] at h
        exact ih h

variable (host expectations windowSeconds intervalSeconds expectedTargetPort) in
theorem paced_nil (t : Instant) : Paced host expectations windowSeconds intervalSeconds
    expectedTargetPort t.now [] t where
  nonneg := fun _ h => absurd h List.not_mem_nil
  sorted := List.Pairwise.nil
  indices := rfl
  assessed := fun _ h => absurd h List.not_mem_nil
  past := fun _ h => absurd h List.not_mem_nil
  progress := by
    rw [sub_self, List.length_nil, Nat.cast_zero, zero_mul]
    exact min_le_right _ _
  early := fun _ h => absurd h List.not_mem_nil

/-! ## The verdict of a window -/

theorem countOf_ne_zero {verdict : Verdict} : countOf probes verdict ≠ 0 ↔
    ∃ p ∈ probes, p.assessment.verdict = verdict := by
  rw [countOf, ne_eq, List.countP_eq_zero]
  push Not
  simp only [decide_eq_true_eq]

/-- A failure decides, and then what is not known. -/
theorem windowVerdict_iff : (windowVerdict probes = .failure ↔
      ∃ p ∈ probes, p.assessment.verdict = .failure) ∧
    (windowVerdict probes = .indeterminate ↔ (¬ ∃ p ∈ probes, p.assessment.verdict = .failure) ∧
      ∃ p ∈ probes, p.assessment.verdict = .indeterminate) ∧
    (windowVerdict probes = .success ↔ ∀ p ∈ probes, p.assessment.verdict = .success) := by
  unfold windowVerdict
  by_cases hfailure : ∃ p ∈ probes, p.assessment.verdict = .failure
  · rw [if_pos (countOf_ne_zero.2 hfailure)]
    refine ⟨⟨fun _ => hfailure, fun _ => rfl⟩, ⟨nofun, fun h => absurd hfailure h.1⟩, nofun, ?_⟩
    intro h
    obtain ⟨p, hp, hverdict⟩ := hfailure
    rw [h p hp] at hverdict
    cases hverdict
  rw [if_neg (fun h => hfailure (countOf_ne_zero.1 h))]
  by_cases hunknown : ∃ p ∈ probes, p.assessment.verdict = .indeterminate
  · rw [if_pos (countOf_ne_zero.2 hunknown)]
    refine ⟨⟨nofun, fun h => absurd h hfailure⟩, ⟨fun _ => ⟨hfailure, hunknown⟩, fun _ => rfl⟩, nofun, ?_⟩
    intro h
    obtain ⟨p, hp, hverdict⟩ := hunknown
    rw [h p hp] at hverdict
    cases hverdict
  · rw [if_neg (fun h => hunknown (countOf_ne_zero.1 h))]
    refine ⟨⟨nofun, fun h => absurd h hfailure⟩, ⟨nofun, fun h => absurd h.2 hunknown⟩, ?_, fun _ => rfl⟩
    intro _ p hp
    cases hverdict : p.assessment.verdict with
    | success => rfl
    | failure => exact absurd ⟨p, hp, hverdict⟩ hfailure
    | indeterminate => exact absurd ⟨p, hp, hverdict⟩ hunknown

/-- A window that can be called for is observed. -/
theorem runWindow_eq (hwindow : 0 < windowSeconds) (hinterval : 0 < intervalSeconds)
    (hport : 1 ≤ expectedTargetPort ∧ expectedTargetPort ≤ 65535)
    (hproducts : expectations.products.truthy = true) (hquotes : expectations.quotes ≠ [])
    (t : Instant) : ∃ record : WindowRecord,
      (∀ fuel, ⌈windowSeconds / intervalSeconds⌉₊ + 1 ≤ fuel →
        runWindow host expectations windowSeconds intervalSeconds expectedTargetPort fuel t =
          some (.ok record)) ∧
      Completed host expectations windowSeconds intervalSeconds expectedTargetPort record.probes ∧
      record.verdict = windowVerdict record.probes ∧
      record.reasons = fromkeys (record.probes.flatMap fun p => p.assessment.reasons) ∧
      record.windowSeconds = windowSeconds ∧ record.expectationVersion = expectations.version := by
  have hlength : ⌈windowSeconds / intervalSeconds⌉₊ + 1 ≤
      ([] : List Probe).length + (⌈windowSeconds / intervalSeconds⌉₊ + 1) := by
    rw [List.length_nil, Nat.zero_add]
  obtain ⟨probes, t', hloop, hcompleted⟩ := probeLoop_completed hwindow hinterval
    (paced_nil host expectations windowSeconds intervalSeconds expectedTargetPort
      (host.clock.next (host.clock.next t))) (Nat.zero_le _) hlength
  refine ⟨windowRecord host expectations windowSeconds intervalSeconds (host.timestamp t.events)
    (host.clock.next (host.clock.next t)).now probes t', fun fuel hfuel => ?_, hcompleted, rfl, rfl,
    rfl, rfl⟩
  · obtain ⟨more, rfl⟩ := Nat.exists_eq_add_of_le hfuel
    unfold runWindow
    rw [if_neg (not_le.2 hwindow), if_neg (not_le.2 hinterval), if_neg (not_not.2 hport), if_neg]
    · dsimp only
      rw [probeLoop_more hloop more]
      rfl
    · rw [not_or, not_not]
      exact ⟨hproducts, hquotes⟩

end

/-- **A window is observed in a bounded number of probes, to its end.** -/
theorem run_window_terminates (host : Host) (expectations : Expectations)
    {windowSeconds intervalSeconds : ℚ} {expectedTargetPort : ℤ} (hwindow : 0 < windowSeconds)
    (hinterval : 0 < intervalSeconds) (hport : 1 ≤ expectedTargetPort ∧ expectedTargetPort ≤ 65535)
    (hproducts : expectations.products.truthy = true) (hquotes : expectations.quotes ≠ [])
    (t : Instant) :
    ∃ record : WindowRecord,
      (∀ fuel, ⌈windowSeconds / intervalSeconds⌉₊ + 1 ≤ fuel →
        runWindow host expectations windowSeconds intervalSeconds expectedTargetPort fuel t =
          some (.ok record)) ∧
      (2 ≤ record.probes.length ∧ record.probes.length ≤ ⌈windowSeconds / intervalSeconds⌉₊ + 1) ∧
      (∃ p, record.probes.getLast? = some p ∧ windowSeconds ≤ p.offset) ∧
      (∀ p ∈ record.probes.dropLast.tail, p.offset < windowSeconds) ∧
      Taken host expectations expectedTargetPort record.probes ∧
      (record.verdict = .failure ↔ ∃ p ∈ record.probes, p.assessment.verdict = .failure) ∧
      (record.verdict = .indeterminate ↔
        (¬ ∃ p ∈ record.probes, p.assessment.verdict = .failure) ∧
          ∃ p ∈ record.probes, p.assessment.verdict = .indeterminate) ∧
      (record.verdict = .success ↔ ∀ p ∈ record.probes, p.assessment.verdict = .success) ∧
      -- the reasons are in the order of their first occurrences, each once
      (∀ reason, reason ∈ record.reasons ↔ ∃ p ∈ record.probes, reason ∈ p.assessment.reasons) ∧
      record.reasons.Pairwise fun reason reason' =>
        (record.probes.flatMap fun p => p.assessment.reasons).idxOf reason <
          (record.probes.flatMap fun p => p.assessment.reasons).idxOf reason' := by
  obtain ⟨record, hrun, hcompleted, hverdict, hreasons, -, -⟩ :=
    runWindow_eq hwindow hinterval hport hproducts hquotes t
  obtain ⟨hfailure, hindeterminate, hsuccess⟩ := @windowVerdict_iff record.probes
  rw [← hverdict] at hfailure hindeterminate hsuccess
  refine ⟨record, hrun, ⟨hcompleted.two, hcompleted.bounded⟩, hcompleted.last, hcompleted.early,
    hcompleted.toTaken, hfailure, hindeterminate, hsuccess, ?_, ?_⟩
  · intro reason
    rw [hreasons, mem_fromkeys, List.mem_flatMap]
  · rw [hreasons]
    exact fromkeys_pairwise _

/-- A host whose collector raises at every call, and where every event takes a tenth of a
second. -/
def brokenHost : Host where
  clock := ⟨fun _ => 1 / 10, fun _ => by norm_num⟩
  timestamp := fun n => "event " ++ toString n
  collector := fun _ => .error "OSError"
  str := fun _ => ""

theorem run_window_terminates_broken : ∃ record : WindowRecord,
    runWindow brokenHost fixture 3 1 8080 4 ⟨0, 0⟩ = some (.ok record) ∧
      2 ≤ record.probes.length ∧ record.probes.length ≤ 4 := by
  have hceil : ⌈(3 : ℚ) / 1⌉₊ = 3 := by
    rw [div_one]
    exact Nat.ceil_natCast 3
  obtain ⟨record, hrun, hcount, -⟩ := @run_window_terminates brokenHost fixture 3 1 8080
    (by norm_num) (by norm_num) (by decide) (by decide) (by decide) ⟨0, 0⟩
  rw [hceil] at hrun hcount
  exact ⟨record, hrun 4 (Nat.le_refl 4), hcount⟩

end AutonomyLab.Verifier
