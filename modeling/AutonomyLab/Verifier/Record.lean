import Mathlib.Data.List.Sort
import AutonomyLab.Verifier.Verdict
import AutonomyLab.Verifier.Window

/-!
# The check of a verification record

`verify_record`: the record of a window is accepted where its probes cover the window, and
everything that is said of them can be found again from what was observed.

* `verifyRecord` — the check.
* `verifyRecord_sound` — what a record that is accepted has observed.
* `verifyRecord_record` — which of the records that `run_window` writes are accepted.
-/

namespace AutonomyLab.Verifier

open Json Process

/-- What the check raises: a `Refused`, or what the shape of the record makes it raise. -/
inductive Failure where
  | refused (reason : String)
  | python (e : PyError)
  | overflowError
  deriving DecidableEq

/-- `require`. -/
def require (condition : Prop) [Decidable condition] (reason : String) : Except Failure Unit :=
  if condition then .ok () else .error (.refused reason)

/-- What a walk through the record raises. -/
def walk {α : Type} (r : Except PyError α) : Except Failure α := r.mapError .python

/-- `len(value)`. -/
def len : Json → Except PyError ℕ
  | .arr xs => .ok xs.length
  | .obj fs => .ok (fs.map Prod.fst).dedup.length
  | .str s => .ok s.length
  | _ => .error .typeError

/-- `math.isfinite` of the offsets that are asked for it: an integer that rounds to none of the
floats makes it raise. -/
def checkFinite : List Json → Except Failure Unit
  | .int n :: offsets =>
      if 2 ^ 1024 - 2 ^ 970 ≤ n.natAbs then .error .overflowError
      else if 0 ≤ n then checkFinite offsets else .ok ()
  | .float q :: offsets => if 0 ≤ q then checkFinite offsets else .ok ()
  | _ => .ok ()

/-- The offset, where `type(offset) in {int, float}` and `offset >= 0`. -/
def offset? : Json → Option ℚ
  | .int n => if 0 ≤ n then some n else none
  | .float q => if 0 ≤ q then some q else none
  | _ => none

/-- The offsets are in order and reach the end of the window. -/
def covers (offsets : List Json) (window : ℚ) : Bool :=
  match offsets.mapM offset? with
  | none => false
  | some qs => qs = qs.insertionSort (· ≤ ·) ∧ ∃ q ∈ qs.getLast?, window ≤ q

/-- What `evaluate_snapshot` returns. -/
def Assessment.toJson (a : Assessment) : Json :=
  .obj [("verdict", .str a.verdict.text), ("reasons", .arr (a.reasons.map .str))]

/-- A list or a dictionary has no hash. -/
def hashable : Json → Bool
  | .arr _ | .obj _ => false
  | _ => true

/-- `Counter(values)`. -/
def counter (values : List Json) : Except PyError (String → ℕ) :=
  if values.all hashable then .ok fun key => values.countP fun value => value = .str key
  else .error .typeError

/-- `list(dict.fromkeys(values))`, where keys are compared as Python compares them. -/
def fromkeysOf (values : List Json) : Except PyError (List Json) :=
  if values.all hashable then
    .ok (values.foldl (fun keys value => if isIn value keys then keys else keys ++ [value]) [])
  else .error .typeError

section
variable (str : Json → String) (expectations : Expectations)

/-- One round of the loop over the probes. -/
def checkProbe (index : ℕ) (probe : Json) : Except Failure Unit := do
  let observations ← walk (subscript "observations" probe)
  let assessed := (evaluateSnapshot str expectations 8080 observations).toJson
  let reproduces ← walk (allTrue [
    (subscript "index" probe).map fun value => decide (PyEq value (.int index)),
    do let verdict ← subscript "verdict" probe
       let reasons ← subscript "reasons" probe
       return decide (PyEq assessed (.obj [("verdict", verdict), ("reasons", reasons)]))])
  require reproduces "Probe assessment does not reproduce"

/-- The loop over the probes. -/
def checkProbes (index : ℕ) : List Json → Except Failure Unit
  | [] => .ok ()
  | probe :: probes => do
      checkProbe str expectations index probe
      checkProbes (index + 1) probes

/-- What the probes come to: the verdict, the reasons and the counts. -/
def summary (probes : List Json) : Except PyError (Json × Json × Json) := do
  let counts ← counter (← probes.mapM (subscript "verdict"))
  let verdict := if counts "verified_failure" ≠ 0 then "verified_failure"
    else if counts "indeterminate" ≠ 0 then "indeterminate" else "verified_success"
  let reasons ← probes.mapM fun probe => do iterate (← subscript "reasons" probe)
  let reasons ← fromkeysOf reasons.flatten
  return (.str verdict, .arr reasons, .obj [("total", .int probes.length),
    ("verified_success", .int (counts "verified_success")),
    ("verified_failure", .int (counts "verified_failure")),
    ("indeterminate", .int (counts "indeterminate"))])

/-- `verify_record`, by the expectations it loads. -/
def verifyRecord (record : Json) (window : ℚ) : Except Failure Unit := do
  let probes ← walk (subscript "probes" record)
  let complete ← walk (allTrue [
    (subscript "window_seconds" record).map fun value => decide (PyEq value (.float window)),
    (len probes).map fun n => decide (2 ≤ n),
    (subscript "expectation_version" record).map fun value => decide (PyEq value expectations.version)])
  require complete "Incomplete verification window"
  let items ← walk (iterate probes)
  let offsets ← walk (items.mapM (subscript "offset_seconds"))
  checkFinite offsets
  require (covers offsets window) "Incomplete verification coverage"
  checkProbes str expectations 0 items
  let (verdict, reasons, counts) ← walk (summary items)
  let reproduces ← walk (allTrue [
    (subscript "verdict" record).map fun value => decide (PyEq value verdict),
    (subscript "reasons" record).map fun value => decide (PyEq value reasons),
    (subscript "counts" record).map fun value => decide (PyEq value counts)])
  require reproduces "Verification summary does not reproduce"

end

/-! ## What is accepted -/

theorem require_eq_ok {condition : Prop} [Decidable condition] {reason : String} {u : Unit} :
    require condition reason = .ok u ↔ condition := by
  unfold require
  split
  · rename_i h
    exact ⟨fun _ => h, fun _ => rfl⟩
  · rename_i h
    exact ⟨nofun, fun h' => absurd h' h⟩

theorem walk_eq_ok {α : Type} {r : Except PyError α} {a : α} : walk r = .ok a ↔ r = .ok a := by
  cases r with
  | error e => exact ⟨nofun, nofun⟩
  | ok b =>
      refine ⟨fun h => ?_, fun h => ?_⟩
      · cases (show (Except.ok b : Except Failure α) = .ok a from h)
        rfl
      · cases h
        rfl

section
variable {str : Json → String} {expectations : Expectations} {record probes : Json} {window : ℚ}

theorem checkProbes_eq_ok {index : ℕ} {items : List Json} :
    checkProbes str expectations index items = .ok () ↔
      ∀ i (h : i < items.length), checkProbe str expectations (index + i) items[i] = .ok () := by
  induction items generalizing index with
  | nil => exact ⟨fun _ i h => absurd h (Nat.not_lt_zero i), fun _ => rfl⟩
  | cons item items ih =>
      rw [checkProbes, bind_eq_ok]
      constructor
      · rintro ⟨⟨⟩, hitem, hrest⟩ i hi
        cases i with
        | zero => exact hitem
        | succ i =>
            have hlater := ih.1 hrest i (Nat.lt_of_succ_lt_succ hi)
            rw [Nat.add_right_comm] at hlater
            exact hlater
      · intro h
        refine ⟨(), h 0 (Nat.succ_pos _), ih.2 fun i hi => ?_⟩
        have hlater := h (i + 1) (Nat.succ_lt_succ hi)
        rw [Nat.add_right_comm]
        exact hlater

theorem checkProbe_eq_ok {index : ℕ} {item : Json} :
    checkProbe str expectations index item = .ok () ↔ ∃ observations value verdict reasons,
      subscript "observations" item = .ok observations ∧ subscript "index" item = .ok value ∧
      PyEq value (.int index) ∧ subscript "verdict" item = .ok verdict ∧
      subscript "reasons" item = .ok reasons ∧
      PyEq (evaluateSnapshot str expectations 8080 observations).toJson
        (.obj [("verdict", verdict), ("reasons", reasons)]) := by
  unfold checkProbe
  simp only [bind_eq_ok, walk_eq_ok, require_eq_ok]
  constructor
  · rintro ⟨observations, hobservations, reproduces, hall, rfl⟩
    rw [allTrue_eq_true] at hall
    obtain ⟨value, hvalue, hindex⟩ := map_eq_ok.1 (hall _ List.mem_cons_self)
    obtain ⟨verdict, hverdict, hsame⟩ :=
      bind_eq_ok.1 (hall _ (List.mem_cons_of_mem _ List.mem_cons_self))
    obtain ⟨reasons, hreasons, hsame⟩ := bind_eq_ok.1 hsame
    exact ⟨observations, value, verdict, reasons, hobservations, hvalue, of_decide_eq_true hindex,
      hverdict, hreasons, of_decide_eq_true (Except.ok.inj hsame)⟩
  · rintro ⟨observations, value, verdict, reasons, hobservations, hvalue, hindex, hverdict, hreasons, hsame⟩
    refine ⟨observations, hobservations, true, allTrue_eq_true.2 ?_, rfl⟩
    rw [List.forall_mem_cons, List.forall_mem_singleton]
    refine ⟨map_eq_ok.2 ⟨value, hvalue, decide_eq_true hindex⟩, ?_⟩
    exact bind_eq_ok.2 ⟨verdict, hverdict, bind_eq_ok.2 ⟨reasons, hreasons,
      congrArg Except.ok (decide_eq_true hsame)⟩⟩

theorem allTrue_three {a b c : Except PyError Bool} :
    allTrue [a, b, c] = .ok true ↔ a = .ok true ∧ b = .ok true ∧ c = .ok true := by
  rw [allTrue_eq_true, List.forall_mem_cons, List.forall_mem_cons, List.forall_mem_singleton]

theorem subscript_equal {key : String} {value expected : Json} :
    ((subscript key value).map fun v => decide (PyEq v expected)) = .ok true ↔
      ∃ v, subscript key value = .ok v ∧ PyEq v expected := by
  rw [map_eq_ok]
  exact exists_congr fun v => and_congr_right fun _ => decide_eq_true_iff

/-- What a record has that is accepted. -/
structure Accepted (str : Json → String) (expectations : Expectations) (record : Json) (window : ℚ)
    (items offsets : List Json) (found : Json × Json × Json) : Prop where
  probes : ∃ probes, subscript "probes" record = .ok probes ∧ (∃ n, len probes = .ok n ∧ 2 ≤ n) ∧
    iterate probes = .ok items
  sameWindow : ∃ v, subscript "window_seconds" record = .ok v ∧ PyEq v (.float window)
  sameVersion : ∃ v, subscript "expectation_version" record = .ok v ∧ PyEq v expectations.version
  readOffsets : items.mapM (subscript "offset_seconds") = .ok offsets
  finite : checkFinite offsets = .ok ()
  covered : covers offsets window = true
  assessed : checkProbes str expectations 0 items = .ok ()
  summarised : summary items = .ok found
  verdict : ∃ v, subscript "verdict" record = .ok v ∧ PyEq v found.1
  reasons : ∃ v, subscript "reasons" record = .ok v ∧ PyEq v found.2.1
  counts : ∃ v, subscript "counts" record = .ok v ∧ PyEq v found.2.2

theorem verifyRecord_eq_ok : verifyRecord str expectations record window = .ok () ↔
    ∃ items offsets found, Accepted str expectations record window items offsets found := by
  unfold verifyRecord
  simp only [bind_eq_ok, walk_eq_ok, require_eq_ok]
  constructor
  · rintro ⟨probes, hprobes, complete, hcomplete, ⟨⟩, rfl, items, hitems, offsets, hoffsets, ⟨⟩,
      hfinite, ⟨⟩, hcovers, ⟨⟩, hassessed, found, hsummary, reproduces, hreproduces, rfl⟩
    obtain ⟨hwindow, hlen, hversion⟩ := allTrue_three.1 hcomplete
    obtain ⟨hverdict, hreasons, hcounts⟩ := allTrue_three.1 hreproduces
    obtain ⟨n, hn, htwo⟩ := map_eq_ok.1 hlen
    exact ⟨items, offsets, found, ⟨probes, hprobes, ⟨n, hn, of_decide_eq_true htwo⟩, hitems⟩,
      subscript_equal.1 hwindow, subscript_equal.1 hversion, hoffsets, hfinite, hcovers, hassessed, hsummary,
      subscript_equal.1 hverdict, subscript_equal.1 hreasons, subscript_equal.1 hcounts⟩
  · rintro ⟨items, offsets, found, h⟩
    obtain ⟨probes, hprobes, ⟨n, hn, htwo⟩, hitems⟩ := h.probes
    have hcomplete : allTrue [
        (subscript "window_seconds" record).map fun value => decide (PyEq value (.float window)),
        (len probes).map fun n => decide (2 ≤ n),
        (subscript "expectation_version" record).map fun value =>
          decide (PyEq value expectations.version)] = .ok true :=
      allTrue_three.2 ⟨subscript_equal.2 h.sameWindow, map_eq_ok.2 ⟨n, hn, decide_eq_true htwo⟩,
        subscript_equal.2 h.sameVersion⟩
    have hreproduces : allTrue [
        (subscript "verdict" record).map fun value => decide (PyEq value found.1),
        (subscript "reasons" record).map fun value => decide (PyEq value found.2.1),
        (subscript "counts" record).map fun value => decide (PyEq value found.2.2)] = .ok true :=
      allTrue_three.2 ⟨subscript_equal.2 h.verdict, subscript_equal.2 h.reasons,
        subscript_equal.2 h.counts⟩
    exact ⟨probes, hprobes, true, hcomplete, (), rfl, items, hitems, offsets, h.readOffsets, (),
      h.finite, (), h.covered, (), h.assessed, found, h.summarised, true, hreproduces, rfl⟩

/-! ## A record of a success -/

/-- Only a list can be walked through for the offsets of its entries. -/
theorem iterate_eq_arr {probes : Json} {items offsets : List Json} {n : ℕ}
    (hitems : iterate probes = .ok items) (hlen : len probes = .ok n) (htwo : 2 ≤ n)
    (hoffsets : items.mapM (subscript "offset_seconds") = .ok offsets) :
    probes = .arr items ∧ items.length = n := by
  have hnot : ∀ text rest, items ≠ .str text :: rest := by
    rintro text rest rfl
    rw [List.mapM_cons, bind_eq_ok] at hoffsets
    obtain ⟨_, h, -⟩ := hoffsets
    cases h
  cases probes with
  | arr xs =>
      cases hitems
      cases hlen
      exact ⟨rfl, rfl⟩
  | obj fs =>
      cases fs with
      | nil =>
          cases hlen
          cases htwo
      | cons p fs =>
          cases hitems
          exact absurd rfl (hnot _ _)
  | str text =>
      cases hlen
      cases hitems
      cases hchars : text.toList with
      | nil =>
          rw [← String.length_toList, hchars] at htwo
          cases htwo
      | cons c cs =>
          rw [hchars] at hnot
          exact absurd rfl (hnot _ _)
  | _ => cases hitems

theorem Verdict.text_inj {v v' : Verdict} (h : v.text = v'.text) : v = v' := by
  cases v <;> cases v' <;> first | rfl | exact absurd h (by decide)

/-- The verdict and the reasons that are recorded of a probe are those that are found. -/
theorem recorded {a : Assessment} {verdict reasons : Json}
    (h : PyEq a.toJson (.obj [("verdict", verdict), ("reasons", reasons)])) :
    verdict = .str a.verdict.text ∧ reasons = .arr (a.reasons.map .str) := by
  have hkeys := pyEq_obj_iff.1 h
  have hverdict : PyEq verdict (.str a.verdict.text) := (Option.some.inj (hkeys "verdict")).symm
  have hreasons : PyEq reasons (.arr (a.reasons.map .str)) :=
    (Option.some.inj (hkeys "reasons")).symm
  refine ⟨pyEq_str_iff.1 hverdict, ?_⟩
  obtain ⟨xs, rfl, hentries⟩ := PyEq.arr_right hreasons
  rw [List.forall₂_map_right_iff] at hentries
  have hsame : List.Forall₂ Eq xs (a.reasons.map .str) := by
    rw [List.forall₂_map_right_iff]
    exact hentries.imp fun _ _ heq => pyEq_str_iff.1 heq
  rw [List.forall₂_eq_eq_eq] at hsame
  rw [hsame]

/-- A probe that is accepted has the verdict of its observations. -/
theorem checkProbe_verdict {index : ℕ} {item : Json}
    (h : checkProbe str expectations index item = .ok ()) : ∃ observations,
      subscript "observations" item = .ok observations ∧ subscript "verdict" item =
        .ok (.str (evaluateSnapshot str expectations 8080 observations).verdict.text) := by
  obtain ⟨observations, value, verdict, reasons, hobservations, -, -, hverdict, -, hsame⟩ :=
    checkProbe_eq_ok.1 h
  refine ⟨observations, hobservations, ?_⟩
  rw [hverdict, (recorded hsame).1]

theorem counter_eq_ok {values : List Json} {counts : String → ℕ} (h : counter values = .ok counts) :
    counts = fun key => values.countP fun value => value = .str key := by
  unfold counter at h
  split at h
  · cases h
    rfl
  · cases h

/-- A window whose verdict is a success has no verdict that is none. -/
theorem summary_success {items : List Json} {found : Json × Json × Json}
    (h : summary items = .ok found) (hfound : found.1 = .str "verified_success") :
    ∀ item ∈ items, ∀ verdict : Verdict, subscript "verdict" item = .ok (.str verdict.text) →
      verdict = .success := by
  obtain ⟨verdicts, hverdicts, h⟩ := bind_eq_ok.1 h
  obtain ⟨counts, hcounts, h⟩ := bind_eq_ok.1 h
  obtain ⟨reasons, -, h⟩ := bind_eq_ok.1 h
  obtain ⟨reasons', -, h⟩ := bind_eq_ok.1 h
  cases h
  intro item hitem verdict hverdict
  have hmem : Json.str verdict.text ∈ verdicts := by
    have hmap := List.mem_map_of_mem (f := subscript "verdict") hitem
    rw [mapM_eq_ok.1 hverdicts, hverdict] at hmap
    obtain ⟨v, hv, heq⟩ := List.mem_map.1 hmap
    cases heq
    exact hv
  have hcount : counts verdict.text ≠ 0 := by
    rw [counter_eq_ok hcounts]
    exact fun hzero => (List.countP_eq_zero.1 hzero) _ hmem (decide_eq_true rfl)
  have hfound := Json.str.inj hfound
  cases verdict with
  | success => rfl
  | failure =>
      rw [if_pos (show counts "verified_failure" ≠ 0 from hcount)] at hfound
      exact absurd hfound (by decide)
  | indeterminate =>
      split at hfound
      · exact absurd hfound (by decide)
      · rw [if_pos (show counts "indeterminate" ≠ 0 from hcount)] at hfound
        exact absurd hfound (by decide)

/-- The last offset of a window that is covered is at its end or after it. -/
theorem covers_last {items offsets : List Json}
    (hoffsets : items.mapM (subscript "offset_seconds") = .ok offsets)
    (hcovers : covers offsets window = true) :
    ∃ last offset q, items.getLast? = some last ∧ subscript "offset_seconds" last = .ok offset ∧
      offset? offset = some q ∧ window ≤ q := by
  unfold covers at hcovers
  split at hcovers
  · cases hcovers
  rename_i qs hqs
  obtain ⟨-, q, hq, hle⟩ := of_decide_eq_true hcovers
  have hread := congrArg List.getLast? (mapM_eq_ok.1 hoffsets)
  have hvalue := congrArg List.getLast? (mapM_eq_some.1 hqs)
  rw [List.getLast?_map, List.getLast?_map] at hread hvalue
  rw [Option.mem_def.1 hq, Option.map_some] at hvalue
  obtain ⟨offset, hoffset, hvalue⟩ := Option.map_eq_some_iff.1 hvalue
  rw [hoffset, Option.map_some] at hread
  obtain ⟨last, hlast, hread⟩ := Option.map_eq_some_iff.1 hread
  exact ⟨last, offset, q, hlast, hread, hvalue, hle⟩

/-- **What a record of a success has observed.** -/
theorem verifyRecord_sound (h : verifyRecord str expectations record window = .ok ())
    (hverdict : ∃ v, subscript "verdict" record = .ok v ∧ PyEq v (.str "verified_success")) :
    ∃ items, subscript "probes" record = .ok (.arr items) ∧ 2 ≤ items.length ∧
      (∀ item ∈ items, ∃ observations, subscript "observations" item = .ok observations ∧
        (evaluateSnapshot str expectations 8080 observations).verdict = .success) ∧
      ∃ last offset q, items.getLast? = some last ∧ subscript "offset_seconds" last = .ok offset ∧
        offset? offset = some q ∧ window ≤ q := by
  obtain ⟨items, offsets, found, h⟩ := verifyRecord_eq_ok.1 h
  obtain ⟨probes, hprobes, ⟨n, hn, htwo⟩, hitems⟩ := h.probes
  obtain ⟨rfl, rfl⟩ := iterate_eq_arr hitems hn htwo h.readOffsets
  refine ⟨items, hprobes, htwo, fun item hitem => ?_, covers_last h.readOffsets h.covered⟩
  have hfound : found.1 = .str "verified_success" := by
    obtain ⟨v, hv, hsuccess⟩ := hverdict
    obtain ⟨v', hv', hsame⟩ := h.verdict
    rw [hv] at hv'
    cases hv'
    exact pyEq_str_iff.1 (hsame.symm.trans hsuccess)
  obtain ⟨i, hi, rfl⟩ := List.getElem_of_mem hitem
  obtain ⟨observations, hobservations, hrecorded⟩ :=
    checkProbe_verdict (checkProbes_eq_ok.1 h.assessed i hi)
  exact ⟨observations, hobservations, summary_success h.summarised hfound _ hitem _ hrecorded⟩

end

/-! ## Rounding -/

theorem floor_le_roundHalfEven (q : ℚ) : ⌊q⌋ ≤ roundHalfEven q := by
  unfold roundHalfEven
  split_ifs <;> omega

theorem roundHalfEven_le (q : ℚ) : roundHalfEven q ≤ ⌊q⌋ + 1 := by
  unfold roundHalfEven
  split_ifs <;> omega

theorem roundHalfEven_mono {p q : ℚ} (h : p ≤ q) : roundHalfEven p ≤ roundHalfEven q := by
  rcases (Int.floor_mono h).lt_or_eq with hlt | heq
  · have hp := roundHalfEven_le p
    have hq := floor_le_roundHalfEven q
    omega
  · unfold roundHalfEven
    rw [heq]
    split_ifs with h₁ h₂ h₃ h₄ h₅ h₆ h₇ <;> first | omega | (exfalso; linarith)

@[simp] theorem roundHalfEven_intCast (n : ℤ) : roundHalfEven n = n := by
  unfold roundHalfEven
  rw [Int.floor_intCast, sub_self, if_pos (by norm_num)]

theorem roundMicro_mono {p q : ℚ} (h : p ≤ q) : roundMicro p ≤ roundMicro q := by
  have hround := roundHalfEven_mono (mul_le_mul_of_nonneg_right h (by norm_num : (0 : ℚ) ≤ 1000000))
  exact div_le_div_of_nonneg_right (Int.cast_le.2 hround) (by norm_num)

/-- A multiple of a microsecond is written as it is. -/
theorem roundMicro_micro (n : ℕ) : roundMicro (n / 1000000) = n / 1000000 := by
  unfold roundMicro
  rw [div_mul_cancel₀ _ (by norm_num), ← Int.cast_natCast (R := ℚ), roundHalfEven_intCast]

/-! ## The records of runs -/

section
variable {str : Json → String} {expectations : Expectations} {window interval : ℚ} {host : Host}

theorem map_str_injective : Function.Injective (List.map Json.str) :=
  List.map_injective_iff.2 fun _ _ h => Json.str.inj h

/-- A probe is accepted where its number is right and its assessment is found again. -/
theorem checkProbe_toJson {index : ℕ} {p : Probe} :
    checkProbe str expectations index p.toJson = .ok () ↔
      p.index = index ∧ evaluateSnapshot str expectations 8080 p.observations = p.assessment := by
  rw [checkProbe_eq_ok]
  constructor
  · rintro ⟨observations, value, verdict, reasons, hobservations, hvalue, hindex, hverdict, hreasons, hsame⟩
    cases hobservations
    cases hvalue
    cases hverdict
    cases hreasons
    obtain ⟨hverdict, hreasons⟩ := recorded hsame
    refine ⟨?_, ?_⟩
    · have hcast : ((p.index : ℤ) : ℚ) = ((index : ℤ) : ℚ) := Json.float.inj hindex
      exact Int.ofNat.inj (Int.cast_injective hcast)
    · have hv := Verdict.text_inj (Json.str.inj hverdict)
      have hr := map_str_injective (Json.arr.inj hreasons)
      cases hp : p.assessment with
      | mk verdict reasons =>
          rw [hp] at hv hr
          dsimp only at hv hr
          subst hv hr
          rfl
  · rintro ⟨rfl, hassessed⟩
    refine ⟨_, _, _, _, rfl, rfl, PyEq.refl _, rfl, rfl, ?_⟩
    rw [hassessed]
    exact PyEq.refl _

/-- What is recorded in the place of a snapshot gives more reasons than the one that is
recorded with it. -/
theorem two_le_reasons (str : Json → String) (expectations : Expectations) (name : String) : 2 ≤ (evaluateSnapshot str expectations 8080
    (.obj [("collection_error", .str name)])).reasons.length := by
  have hunknown : ∀ control ∈ controlNames, ¬ controlHealthy (.obj [("collection_error", .str name)])
      control = true := by
    intro control hcontrol
    rw [controlHealthy_iff]
    intro h
    have hkind := h.kind
    simp only [controlNames, List.mem_cons, List.not_mem_nil, or_false] at hcontrol
    rcases hcontrol with rfl | rfl <;> cases hkind
  have hcontrols : (controlNames.flatMap fun control =>
      (controlFindings (.obj [("collection_error", .str name)]) control).unknowns).length = 2 := by
    rw [List.length_flatMap]
    have hone : ∀ control ∈ controlNames, (controlFindings (.obj [("collection_error", .str name)])
        control).unknowns.length = 1 := by
      intro control hcontrol
      rw [controlFindings, if_neg (hunknown control hcontrol)]
      rfl
    rw [List.map_congr_left hone]
    rfl
  have hreasons : (evaluateSnapshot str expectations 8080
      (.obj [("collection_error", .str name)])).reasons =
        (findings str expectations 8080 (.obj [("collection_error", .str name)])).failures ++
          (findings str expectations 8080 (.obj [("collection_error", .str name)])).unknowns := rfl
  rw [hreasons]
  simp only [findings, Findings.append_unknowns, unknowns_foldr, List.length_append, hcontrols]
  omega

/-- An assessment is found again exactly where the collector raised nothing. -/
theorem evaluate_assess {outcome : Except String Json} {p : Probe}
    (h : (p.observations, p.assessment) = assess host expectations 8080 outcome) :
    evaluateSnapshot host.str expectations 8080 p.observations = p.assessment ↔
      ∃ snapshot, outcome = .ok snapshot := by
  cases outcome with
  | ok snapshot =>
      obtain ⟨hobservations, hassessment⟩ := Prod.mk.inj h
      rw [hobservations, hassessment]
      exact ⟨fun _ => ⟨snapshot, rfl⟩, fun _ => rfl⟩
  | error name =>
      obtain ⟨hobservations, hassessment⟩ := Prod.mk.inj h
      refine ⟨fun hsame => ?_, nofun⟩
      have htwo := two_le_reasons host.str expectations name
      rw [← hobservations, hsame, hassessment] at htwo
      cases htwo with
      | step h => cases h

/-! What the check reads of the record of a window. -/

theorem fromkeysOf_str (texts : List String) :
    fromkeysOf (texts.map .str) = .ok ((fromkeys texts).map .str) := by
  have hall : (texts.map Json.str).all hashable = true := by
    rw [List.all_map]
    exact List.all_eq_true.2 fun _ _ => rfl
  have hin : ∀ (keys : List String) (text : String),
      isIn (.str text) (keys.map .str) = decide (text ∈ keys) := by
    intro keys text
    rw [Bool.eq_iff_iff, isIn, List.any_map, List.any_eq_true, decide_eq_true_eq]
    constructor
    · rintro ⟨key, hkey, heq⟩
      cases pyEq_str_iff.1 (of_decide_eq_true heq)
      exact hkey
    · exact fun h => ⟨text, h, decide_eq_true (PyEq.refl _)⟩
  have hfold : ∀ (texts keys : List String),
      (texts.map Json.str).foldl (fun keys value => if isIn value keys then keys else keys ++ [value])
        (keys.map .str) =
      (texts.foldl (fun keys value => if value ∈ keys then keys else keys ++ [value]) keys).map .str := by
    intro texts
    induction texts with
    | nil => exact fun _ => rfl
    | cons text texts ih =>
        intro keys
        rw [List.map_cons, List.foldl_cons, List.foldl_cons, hin]
        by_cases hmem : text ∈ keys
        · rw [if_pos (decide_eq_true hmem), if_pos hmem]
          exact ih keys
        · rw [if_neg (by simpa using hmem), if_neg hmem]
          have hstep := ih (keys ++ [text])
          rw [List.map_append] at hstep
          exact hstep
  unfold fromkeysOf
  rw [if_pos hall]
  exact congrArg Except.ok (hfold texts [])

/-- The counts, the verdict and the reasons that are found are those that are recorded. -/
theorem summary_toJson (probes : List Probe) : summary (probes.map Probe.toJson) =
    .ok (.str (windowVerdict probes).text,
      .arr ((fromkeys (probes.flatMap fun p => p.assessment.reasons)).map .str),
      .obj [("total", .int probes.length), ("verified_success", .int (countOf probes .success)),
        ("verified_failure", .int (countOf probes .failure)),
        ("indeterminate", .int (countOf probes .indeterminate))]) := by
  have hverdicts : (probes.map Probe.toJson).mapM (subscript "verdict") =
      .ok (probes.map fun p => .str p.assessment.verdict.text) := by
    rw [mapM_eq_ok, List.map_map, List.map_map]
    rfl
  have hcounter : counter (probes.map fun p => .str p.assessment.verdict.text) =
      .ok fun key => probes.countP fun p => p.assessment.verdict.text = key := by
    unfold counter
    rw [if_pos]
    · congr 1
      funext key
      rw [List.countP_map]
      refine List.countP_congr fun p _ => ?_
      simp
    · rw [List.all_map]
      exact List.all_eq_true.2 fun _ _ => rfl
  have hcount : ∀ verdict : Verdict, (probes.countP fun p => p.assessment.verdict.text = verdict.text) =
      countOf probes verdict := by
    intro verdict
    refine List.countP_congr fun p _ => ?_
    rw [decide_eq_true_eq, decide_eq_true_eq]
    exact ⟨Verdict.text_inj, fun h => h ▸ rfl⟩
  have hreasons : (probes.map Probe.toJson).mapM (fun probe => do
      iterate (← subscript "reasons" probe)) =
        .ok (probes.map fun p => p.assessment.reasons.map .str) := by
    rw [mapM_eq_ok, List.map_map, List.map_map]
    rfl
  have hflat : (probes.map fun p => p.assessment.reasons.map Json.str).flatten =
      (probes.flatMap fun p => p.assessment.reasons).map .str := by
    rw [List.map_flatMap, List.flatMap_def]
  unfold summary
  refine bind_eq_ok.2 ⟨_, hverdicts, bind_eq_ok.2 ⟨_, hcounter, bind_eq_ok.2 ⟨_, hreasons, ?_⟩⟩⟩
  rw [hflat, fromkeysOf_str]
  refine bind_eq_ok.2 ⟨_, rfl, ?_⟩
  have hfailure : (probes.countP fun p => p.assessment.verdict.text = "verified_failure") =
      countOf probes .failure := hcount .failure
  have hindeterminate : (probes.countP fun p => p.assessment.verdict.text = "indeterminate") =
      countOf probes .indeterminate := hcount .indeterminate
  have hsuccess : (probes.countP fun p => p.assessment.verdict.text = "verified_success") =
      countOf probes .success := hcount .success
  have hverdict : (if countOf probes .failure ≠ 0 then "verified_failure"
      else if countOf probes .indeterminate ≠ 0 then "indeterminate" else "verified_success") =
        (windowVerdict probes).text := by
    unfold windowVerdict
    split
    · rfl
    split <;> rfl
  rw [hfailure, hindeterminate, hsuccess, hverdict, List.length_map]
  rfl

/-- Floats have no integer among them. -/
theorem checkFinite_floats (qs : List ℚ) : checkFinite (qs.map .float) = .ok () := by
  induction qs with
  | nil => rfl
  | cons q qs ih =>
      rw [List.map_cons, checkFinite]
      split
      · exact ih
      · rfl

/-- The offsets that are recorded cover the window. -/
theorem covers_toJson {probes : List Probe} {n : ℕ}
    (h : Completed host expectations (n / 1000000) interval 8080 probes) :
    covers (probes.map fun p => .float (roundMicro p.offset)) (n / 1000000) = true := by
  have hzero : roundMicro 0 = 0 := by
    have := roundMicro_micro 0
    rwa [Nat.cast_zero, zero_div] at this
  have hread : (probes.map fun p => Json.float (roundMicro p.offset)).mapM offset? =
      some (probes.map fun p => roundMicro p.offset) := by
    rw [mapM_eq_some, List.map_map, List.map_map]
    refine List.map_congr_left fun p hp => ?_
    have hnonneg : 0 ≤ roundMicro p.offset := hzero ▸ roundMicro_mono (h.nonneg p hp)
    exact if_pos hnonneg
  have hsorted : (probes.map fun p => roundMicro p.offset).Pairwise (· ≤ ·) := by
    have hmap := h.sorted.map roundMicro fun _ _ hle => roundMicro_mono hle
    rwa [List.map_map] at hmap
  obtain ⟨last, hlast, hend⟩ := h.last
  unfold covers
  rw [hread]
  refine decide_eq_true ⟨?_, roundMicro last.offset, ?_, ?_⟩
  · exact hsorted.insertionSort_eq.symm
  · rw [Option.mem_def, List.getLast?_map, hlast]
    rfl
  · have hround := roundMicro_mono hend
    rwa [roundMicro_micro] at hround

/-- **Of the records of runs, those are accepted in which the collector raised nothing.** -/
theorem verifyRecord_record {record : WindowRecord} {n : ℕ}
    (h : Completed host expectations (n / 1000000) interval 8080 record.probes)
    (hverdict : record.verdict = windowVerdict record.probes)
    (hreasons : record.reasons = fromkeys (record.probes.flatMap fun p => p.assessment.reasons))
    (hwindow : record.windowSeconds = n / 1000000)
    (hversion : record.expectationVersion = expectations.version) :
    verifyRecord host.str expectations record.toJson (n / 1000000) = .ok () ↔
      ∀ call < record.probes.length, ∃ snapshot, host.collector call = .ok snapshot := by
  have hindex : ∀ i (hi : i < record.probes.length), record.probes[i].index = i := by
    intro i hi
    have hget := congrArg (·[i]?) h.indices
    simpa [hi] using hget
  have hprobes : checkProbes host.str expectations 0 (record.probes.map Probe.toJson) = .ok () ↔
      ∀ call < record.probes.length, ∃ snapshot, host.collector call = .ok snapshot := by
    have hprobe : ∀ i (hi : i < record.probes.length),
        checkProbe host.str expectations i record.probes[i].toJson = .ok () ↔
          ∃ snapshot, host.collector i = .ok snapshot := by
      intro i hi
      have hassessed := evaluate_assess (h.assessed record.probes[i] (List.getElem_mem hi))
      rw [hindex i hi] at hassessed
      rw [checkProbe_toJson, and_iff_right (hindex i hi)]
      exact hassessed
    rw [checkProbes_eq_ok]
    constructor
    · intro hall i hi
      have hitem := hall i (by rw [List.length_map]; exact hi)
      rw [List.getElem_map, Nat.zero_add] at hitem
      exact (hprobe i hi).1 hitem
    · intro hall i hi
      have hi' : i < record.probes.length := by rwa [List.length_map] at hi
      rw [List.getElem_map, Nat.zero_add]
      exact (hprobe i hi').2 (hall i hi')
  rw [← hprobes, verifyRecord_eq_ok]
  constructor
  · rintro ⟨items, offsets, found, haccepted⟩
    obtain ⟨probes, hread, -, hitems⟩ := haccepted.probes
    cases hread
    cases hitems
    exact haccepted.assessed
  · intro hassessed
    have hfinite := checkFinite_floats (record.probes.map fun p => roundMicro p.offset)
    rw [List.map_map] at hfinite
    refine ⟨_, _, _, ⟨_, rfl, ⟨_, rfl, ?_⟩, rfl⟩, ⟨_, rfl, ?_⟩, ⟨_, rfl, ?_⟩, ?_, hfinite, covers_toJson h,
      hassessed, summary_toJson _, ⟨_, rfl, ?_⟩, ⟨_, rfl, ?_⟩, ⟨_, rfl, PyEq.refl _⟩⟩
    · rw [List.length_map]
      exact h.two
    · rw [hwindow]
    · rw [hversion]
    · rw [mapM_eq_ok, List.map_map, List.map_map]
      rfl
    · rw [hverdict]
    · rw [hreasons]

end

/-- **The check accepts the records of runs in which the collector raised nothing, and those
only; and a record of a success that it accepts is one.** -/
theorem verify_record_agrees (host : Host) (expectations : Expectations) {n : ℕ} {interval : ℚ}
    (hwindow : 0 < n) (hinterval : 0 < interval) (hproducts : expectations.products.truthy = true)
    (hquotes : expectations.quotes ≠ []) (t : Instant) :
    (∃ record : WindowRecord,
      (∀ fuel, ⌈(n / 1000000 : ℚ) / interval⌉₊ + 1 ≤ fuel →
        runWindow host expectations (n / 1000000) interval 8080 fuel t = some (.ok record)) ∧
      (verifyRecord host.str expectations record.toJson (n / 1000000) = .ok () ↔
        ∀ call < record.probes.length, ∃ snapshot, host.collector call = .ok snapshot)) ∧
    ∀ (record : Json) (window : ℚ), verifyRecord host.str expectations record window = .ok () →
      (∃ v, subscript "verdict" record = .ok v ∧ PyEq v (.str "verified_success")) →
      ∃ items, subscript "probes" record = .ok (.arr items) ∧ 2 ≤ items.length ∧
        (∀ item ∈ items, ∃ observations, subscript "observations" item = .ok observations ∧
          (evaluateSnapshot host.str expectations 8080 observations).verdict = .success) ∧
        ∃ last offset q, items.getLast? = some last ∧ subscript "offset_seconds" last = .ok offset ∧
          offset? offset = some q ∧ window ≤ q := by
  refine ⟨?_, fun record window h hverdict => verifyRecord_sound h hverdict⟩
  have hpositive : (0 : ℚ) < n / 1000000 := div_pos (Nat.cast_pos.2 hwindow) (by norm_num)
  obtain ⟨record, hrun, hcompleted, hverdict, hreasons, hsame, hversion⟩ :=
    runWindow_eq hpositive hinterval (by decide : (1 : ℤ) ≤ 8080 ∧ (8080 : ℤ) ≤ 65535) hproducts
      hquotes t
  exact ⟨record, hrun, verifyRecord_record hcompleted hverdict hreasons hsame hversion⟩

/-- A host whose collector returns what is no snapshot. -/
def emptyHost : Host := { brokenHost with collector := fun _ => .ok .null }

theorem verify_record_agrees_empty : ∃ record : WindowRecord,
    runWindow emptyHost fixture 1 1 8080 2 ⟨0, 0⟩ = some (.ok record) ∧
      verifyRecord emptyHost.str fixture record.toJson 1 = .ok () := by
  obtain ⟨⟨record, hrun, haccepted⟩, -⟩ := @verify_record_agrees emptyHost fixture 1000000 1
    (by decide) (by norm_num) (by decide) (by decide) ⟨0, 0⟩
  have hone : ((1000000 : ℕ) : ℚ) / 1000000 = 1 := by norm_num
  rw [hone] at hrun haccepted
  refine ⟨record, hrun 2 ?_, haccepted.2 fun call _ => ⟨.null, rfl⟩⟩
  rw [div_one, Nat.ceil_one]

/-- **The record of a window in which the collector raised is refused.** -/
theorem verify_record_refuses_broken : ∃ record : WindowRecord,
    runWindow brokenHost fixture 1 1 8080 2 ⟨0, 0⟩ = some (.ok record) ∧
      verifyRecord brokenHost.str fixture record.toJson 1 =
        .error (.refused "Probe assessment does not reproduce") := by
  have hrun : (runWindow brokenHost fixture 1 1 8080 2 ⟨0, 0⟩).map (fun result => result.map
      fun record => verifyRecord brokenHost.str fixture record.toJson 1) =
      some (.ok (.error (.refused "Probe assessment does not reproduce"))) := by decide +kernel
  obtain ⟨result, hresult, hrecord⟩ := Option.map_eq_some_iff.1 hrun
  obtain ⟨record, rfl, hrefused⟩ := map_eq_ok.1 hrecord
  exact ⟨record, hresult, hrefused⟩

end AutonomyLab.Verifier
