import AutonomyLab.Audit.Sound
import AutonomyLab.Time.Calendar

/-!
# The window of an audit, in time

An event is selected by comparing texts.  The API server writes its times to the
microsecond, with a `Z`; the bounds come from the callers, and some of these write them as
`isoformat` does.  A bound in that layout comes before the event of the same instant: that
is right for a start, and leaves out the last instant of the window for an end.

* `Layout`, `write` — the layouts of times.
* `started_le_received`, `received_le_finished` — what the two comparisons decide.
* `window_by_instant` — when the events that are selected are those of the window.
-/

namespace AutonomyLab.Audit

open Json Time

/-- How a time in UTC is written. -/
inductive Layout where
  /-- `isoformat()`: there is no fraction where the microseconds are zero. -/
  | isoformat
  /-- `isoformat(timespec="microseconds").replace("+00:00", "Z")`, and a `MicroTime` of the
  API server. -/
  | microTime
  deriving DecidableEq

/-- What follows the seconds. -/
def Layout.rest : Layout → DateTime → List Char
  | .isoformat, t =>
      if t.microsecond = 0 then '+' :: "00:00".toList
      else '.' :: (pad 6 t.microsecond ++ '+' :: "00:00".toList)
  | .microTime, t => '.' :: (pad 6 t.microsecond ++ ['Z'])

def Layout.write (layout : Layout) (t : DateTime) : String := String.ofList (t.stamp ++ layout.rest t)

/-- The event was received at the time, in the namespace. -/
structure Received (ns : String) (t : DateTime) (event : Json) : Prop where
  time : member "requestReceivedTimestamp" event = .str (Layout.microTime.write t)
  ns : member "namespace" (member "objectRef" event) = .str ns

section
variable {a b : DateTime} {layout : Layout}

/-- Times are compared by their seconds, and then by the rest of their texts. -/
theorem write_lt_write {layout' : Layout} : layout.write a < layout'.write b ↔
    a.seconds < b.seconds ∨ a.seconds = b.seconds ∧ layout.rest a < layout'.rest b := by
  have hlength : a.stamp.length = b.stamp.length := by
    rw [DateTime.length_stamp, DateTime.length_stamp]
  rw [Layout.write, Layout.write, String.lt_iff_toList_lt, String.toList_ofList, String.toList_ofList,
    append_lt_append hlength, DateTime.stamp_lt_stamp, DateTime.stamp_inj]

/-- Fractions are compared before what follows them. -/
theorem fraction_lt_fraction {r s : List Char} :
    '.' :: (pad 6 a.microsecond ++ r) < '.' :: (pad 6 b.microsecond ++ s) ↔
      a.microsecond < b.microsecond ∨ a.microsecond = b.microsecond ∧ r < s := by
  have hlength : (pad 6 a.microsecond).length = (pad 6 b.microsecond).length := by
    rw [length_pad, length_pad]
  rw [List.cons_lt_cons_self, append_lt_append hlength, pad_lt_pad a.microsecond_lt b.microsecond_lt,
    pad_inj a.microsecond_lt b.microsecond_lt]

/-- The sign of the offset comes before the point of a fraction, and before a `Z`. -/
theorem plus_lt {c : Char} (hc : c = '.' ∨ c = 'Z') (r s : List Char) :
    '+' :: r < c :: s ∧ ¬ c :: s < '+' :: r := by
  rw [List.cons_lt_cons_iff, List.cons_lt_cons_iff]
  rcases hc with rfl | rfl
  · exact ⟨.inl (by decide), fun h => h.elim (by decide) fun h => absurd h.1 (by decide)⟩
  · exact ⟨.inl (by decide), fun h => h.elim (by decide) fun h => absurd h.1 (by decide)⟩

/-- An event comes before a time in any layout exactly if it is earlier. -/
theorem received_lt_write : Layout.microTime.write a < layout.write b ↔ a.instant < b.instant := by
  rw [write_lt_write, DateTime.instant_lt_iff]
  refine or_congr_right (and_congr_right fun _ => ?_)
  cases layout with
  | microTime =>
      rw [Layout.rest, Layout.rest, fraction_lt_fraction]
      simp
  | isoformat =>
      rw [Layout.rest, Layout.rest]
      split
      · rename_i hzero
        rw [hzero]
        exact iff_of_false (plus_lt (.inl rfl) _ _).2 (Nat.not_lt_zero _)
      · rw [fraction_lt_fraction]
        have hsuffix := (plus_lt (.inr rfl) "00:00".toList []).2
        exact ⟨fun h => h.elim id fun h => absurd h.2 hsuffix, .inl⟩

/-- In the other layout it comes before the event of its own instant, too. -/
theorem isoformat_lt_received : Layout.isoformat.write a < Layout.microTime.write b ↔
    a.instant ≤ b.instant := by
  have ha := a.microsecond_lt
  have hb := b.microsecond_lt
  have hle : a.instant ≤ b.instant ↔
      a.seconds < b.seconds ∨ a.seconds = b.seconds ∧ a.microsecond ≤ b.microsecond := by
    unfold DateTime.instant
    omega
  rw [write_lt_write, hle]
  refine or_congr_right (and_congr_right fun _ => ?_)
  rw [Layout.rest, Layout.rest]
  split
  · rename_i hzero
    rw [hzero]
    exact iff_of_true (plus_lt (.inl rfl) _ _).1 (Nat.zero_le _)
  · rw [fraction_lt_fraction, Nat.le_iff_lt_or_eq]
    exact or_congr_right (and_iff_left (plus_lt (.inr rfl) "00:00".toList []).1)

/-- The start of a window is compared in time, in both layouts. -/
theorem started_le_received : layout.write a ≤ Layout.microTime.write b ↔ a.instant ≤ b.instant := by
  rw [← not_lt, received_lt_write, not_lt]

/-- The end of a window is compared in time, and `isoformat` leaves out the end itself. -/
theorem received_le_finished : Layout.microTime.write a ≤ layout.write b ↔
    a.instant ≤ b.instant ∧ ¬ (layout = .isoformat ∧ a.instant = b.instant) := by
  rw [← not_lt]
  cases layout with
  | microTime =>
      rw [received_lt_write, not_lt]
      exact (and_iff_left fun h => nomatch h.1).symm
  | isoformat =>
      rw [isoformat_lt_received, not_le, Nat.lt_iff_le_and_ne]
      exact and_congr_right fun _ => not_congr ⟨fun h => ⟨rfl, h⟩, fun h => h.2⟩

end

section
variable {P : Platform} {W : Window} {ns : String} {bindings : Option (List (String × Json))}
  {malformedLines : ℕ} {events operations : List Json} {event : Json} {report : Report}
  {started finished received : DateTime} {layout layout' : Layout}

/-- The report shows the events that are covered. -/
theorem mem_events (h : assess P W bindings malformedLines events operations = .ok report) :
    event ∈ report.events ↔ event ∈ events ∧ Covered W event := by
  obtain ⟨selected, hs, h⟩ := bind_eq_ok.1 h
  obtain ⟨writes, -, h⟩ := bind_eq_ok.1 h
  obtain ⟨verdicts, -, h⟩ := bind_eq_ok.1 h
  obtain ⟨absent, -, h⟩ := bind_eq_ok.1 h
  cases h
  obtain ⟨hselects, rfl⟩ := filterTrue_eq_ok.1 hs
  rw [List.mem_filter, toOption_eq_true]
  refine and_congr_right fun he => ?_
  obtain ⟨b, hb⟩ := hselects event he
  rw [hb, Except.ok.injEq]
  exact selects_eq_ok hb

theorem covered_iff (hevent : Received ns received event) :
    Covered ⟨layout.write started, layout'.write finished, ns⟩ event ↔
      started.instant ≤ received.instant ∧ received.instant ≤ finished.instant ∧
        ¬ (layout' = .isoformat ∧ received.instant = finished.instant) := by
  have htime : (field? "requestReceivedTimestamp" event).getD (.str "") =
      .str (Layout.microTime.write received) := by
    have h := hevent.time
    unfold member at h
    cases hfield : field? "requestReceivedTimestamp" event with
    | none =>
        rw [hfield] at h
        cases h
    | some value =>
        rw [hfield] at h
        exact h
  rw [← received_le_finished, ← @started_le_received started received layout]
  constructor
  · rintro ⟨⟨text, htext, hle⟩, -⟩
    rw [htime] at htext
    cases htext
    exact hle
  · exact fun hle => ⟨⟨_, htime, hle⟩, hevent.ns⟩

/-- **When the events that are selected are those of the window.**  An event that was
received at a time is in the report exactly if the time is in the window, unless it was
received at the very end of a window whose end is written without a `Z`. -/
theorem window_by_instant
    (h : assess P ⟨layout.write started, layout'.write finished, ns⟩ bindings malformedLines events
      operations = .ok report) (hmem : event ∈ events) (hevent : Received ns received event) :
    (event ∈ report.events ↔
        started.instant ≤ received.instant ∧ received.instant ≤ finished.instant) ↔
      ¬ (layout' = .isoformat ∧ received.instant = finished.instant ∧
        started.instant ≤ received.instant) := by
  rw [mem_events h, and_iff_right hmem, covered_iff hevent]
  by_cases hstarted : started.instant ≤ received.instant
  · by_cases hend : layout' = .isoformat ∧ received.instant = finished.instant
    · simp [hend]
    · simp only [hstarted, hend, true_and, not_false_eq_true, and_true, iff_self]
  · simp [hstarted]

end

/-- A second of a minute. -/
def sampleTime (second : ℕ) (h : second < 60) : DateTime where
  year := 2026
  month := 9
  day := 25
  hour := 0
  minute := 0
  second := second
  microsecond := 0
  year_lt := by decide
  month_pos := by decide
  month_le := by decide
  day_pos := by decide
  day_le := by decide
  hour_lt := by decide
  minute_lt := by decide
  second_lt := h
  microsecond_lt := by decide

/-- A read in the fifth second. -/
def sampleRead : Json := .obj [
  ("auditID", .str "audit-1"), ("verb", .str "get"),
  ("requestReceivedTimestamp", .str "2026-09-25T00:00:05.000000Z"),
  ("objectRef", .obj [("namespace", .str "autonomy-lab")])]

theorem sampleRead_received : Received "autonomy-lab" (sampleTime 5 (by decide)) sampleRead where
  time := by decide +kernel
  ns := by decide +kernel

/-- The report of a window of the read that starts with the first second. -/
def sampleReport (finished : DateTime) : Except PyError Report :=
  assess ⟨id, fun q => toString q.num⟩ ⟨Layout.isoformat.write (sampleTime 1 (by decide)),
    Layout.isoformat.write finished, "autonomy-lab"⟩ none 0 [sampleRead] []

theorem window_by_instant_sample : ∃ report,
    sampleReport (sampleTime 9 (by decide)) = .ok report ∧ sampleRead ∈ report.events := by
  have hok : ((sampleReport (sampleTime 9 (by decide))).map Report.eventCount).isOk = true := by
    decide +kernel
  cases hreport : sampleReport (sampleTime 9 (by decide)) with
  | error e =>
      rw [hreport] at hok
      cases hok
  | ok report =>
      refine ⟨report, rfl, ((window_by_instant hreport List.mem_cons_self sampleRead_received).2 ?_).2 ?_⟩
      · exact fun h => absurd h.2.1 (by decide +kernel)
      · exact ⟨by decide +kernel, by decide +kernel⟩

/-- **An event at the end of a window is left out.** -/
theorem window_end_left_out : ∃ report, sampleReport (sampleTime 5 (by decide)) = .ok report ∧
    Received "autonomy-lab" (sampleTime 5 (by decide)) sampleRead ∧
    (sampleTime 1 (by decide)).instant ≤ (sampleTime 5 (by decide)).instant ∧
    sampleRead ∉ report.events := by
  have hevents : (sampleReport (sampleTime 5 (by decide))).map Report.events = .ok [] := by
    decide +kernel
  obtain ⟨report, hreport, hnone⟩ := map_eq_ok.1 hevents
  refine ⟨report, hreport, sampleRead_received, by decide +kernel, ?_⟩
  rw [hnone]
  exact List.not_mem_nil

end AutonomyLab.Audit
