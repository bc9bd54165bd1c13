import AutonomyLab.Check.Refusal
import AutonomyLab.Interval.Sweep
import AutonomyLab.Json.RoundTrip

/-!
# What a batch of recorded requests is worth

The learning experiments reconstruct the feedback of a batch from the records of its
requests: each record is checked by itself, then a sweep over the starts and ends checks
that no more requests were in flight than the action allowed.

* `Dispatch` — a request that was sent, with its interval.
* `Experience.classify`, `Opportunity.classify` — the two reconstructions.
* `sweep`, `checkConcurrency` — the sweep, and `checkConcurrency_iff`, what it accepts.
* `concurrency_exact` — when the sweep checks exactly the number of requests in flight.
-/

namespace AutonomyLab.Learning

open Json Interval Check

/-! ## What one record says -/

/-- `number`. -/
def number (value : Json) : Except Failure ℚ := do
  match ← finite? value with
  | some q => if 0 ≤ q then return q else throw (.refused "Invalid timestamp")
  | none => throw (.refused "Invalid timestamp")

/-- `cases[index % len(cases)]`. -/
def caseAt (cases : List Json) (index : ℕ) : Except Failure Json :=
  match cases[index % cases.length]? with
  | some case => .ok case
  | none => .error .zeroDivisionError

/-- A record is that of its place in the batch, and of the case of this place. -/
def sameIdentity (record case : Json) (index : ℕ) : Except PyError Bool :=
  allTrue [(record.subscript "index").map fun value => decide (PyEq value (.int index)),
    do return decide (PyEq (← record.subscript "case_id") (← case.subscript "id"))]

/-- The record of a request that was not sent. -/
def undispatched (index : ℕ) (caseId : Json) : Json :=
  .obj [("index", .int index), ("case_id", caseId), ("start", .null), ("end", .null),
    ("status", .null), ("body", .null)]

/-- `a.keys() == b.keys()`. -/
def sameKeys (fs gs : List (String × Json)) : Bool :=
  (fs.all fun p => gs.any fun q => q.1 = p.1) && gs.all fun p => fs.any fun q => q.1 = p.1

mutual

/-- `strict_equal`. -/
def strictEqual : Json → Json → Bool
  | .obj fs, .obj gs => sameKeys fs gs && membersEqual fs gs
  | .arr xs, .arr ys => itemsEqual xs ys
  | .null, .null => true
  | .bool a, .bool b => a = b
  | .int a, .int b => a = b
  | .float a, .float b => a = b
  | .str a, .str b => a = b
  | _, _ => false

def membersEqual : List (String × Json) → List (String × Json) → Bool
  | [], _ => true
  | (k, v) :: fs, gs =>
      (match gs.lookup k with
        | some w => strictEqual v w
        | none => false) && membersEqual fs gs

def itemsEqual : List Json → List Json → Bool
  | [], [] => true
  | x :: xs, y :: ys => strictEqual x y && itemsEqual xs ys
  | _, _ => false

end

/-- The response is the one of the case: its status, and its body where the case has one. -/
def isCorrect (sameBody : Json → Json → Bool) (case : Json) (status : ℤ) (body : Json) :
    Except PyError Bool := do
  if PyEq (.int status) (← case.subscript "status_code") then
    if ← case.contains "body" then return sameBody body (← case.subscript "body")
    else return true
  else return false

/-! ## The sweep -/

/-- A request that was sent, and what its response is worth. -/
structure Dispatch where
  start : ℚ
  finish : ℚ
  ordered : start ≤ finish
  /-- `end - start`. -/
  seconds : ℚ
  /-- The status, if there is a response. -/
  status : Option ℤ
  correct : Bool
  deriving DecidableEq

def Dispatch.interval (d : Dispatch) : ℚ × ℚ := (d.start, d.finish)

def Dispatch.timely (d : Dispatch) : Bool := d.correct && d.finish ≤ 1

def Dispatch.serverError (d : Dispatch) : Bool := d.status.any fun status => 500 ≤ status

/-- The loop over the sorted events. -/
def sweep (bound : ℕ) (reason : String) : ℤ → List (Change ℚ) → Except Failure ℤ
  | active, [] => .ok active
  | active, e :: es => do
      let active := active + (ofLex e).2
      require (0 ≤ active ∧ active ≤ bound) reason
      sweep bound reason active es

/-- No more than `bound` requests were in flight, and none is left. -/
def checkConcurrency (bound : ℕ) (exceeded outstanding : String) (xs : List (ℚ × ℚ)) :
    Except Failure Unit := do
  let active ← sweep bound exceeded 0 (sorted xs)
  require (active = 0) outstanding

/-! ## The records of the learning study -/

def BATCH_SIZE : ℕ := 128

namespace Experience

structure Feedback where
  offered : ℕ
  timelyCorrect : ℕ
  correct : ℕ
  serverErrors : ℕ
  dispatchSeconds : List ℚ
  deriving DecidableEq

section
variable (parseFloat : String → Option ℚ) (minus : ℚ → ℚ → ℚ)

/-- The checks of one record. -/
def checkRecord (cases : List Json) (index : ℕ) (item : Json) : Except Failure (Option Dispatch) := do
  let case ← caseAt cases index
  require (← walk (sameIdentity item case index)) "Request identity differs"
  if (← walk (item.subscript "start")) = .null then
    require (PyEq item (undispatched index (← walk (case.subscript "id"))))
      "Undispatched request has output"
    return none
  else do
    let start ← number (← walk (item.subscript "start"))
    let finish ← number (← walk (item.subscript "end"))
    if h : start < 1 ∧ start ≤ finish then do
      require (minus finish start < 5 / 2) "Possible upstream timeout; drain uncertain"
      match ← walk (item.subscript "status") with
      | .int status => do
          require (100 ≤ status ∧ status ≤ 599) "Missing response; trial incomplete"
          match ← walk (item.subscript "body") with
          | .str text => do
              let body := (loads parseFloat text.toList).getD .null
              let correct ← walk (isCorrect strictEqual case status body)
              return some ⟨start, finish, h.2, minus finish start, some status, correct⟩
          | _ => throw (.refused "Missing raw body")
      | _ => throw (.refused "Missing response; trial incomplete")
    else throw (.refused "Invalid dispatch interval")

/-- The checks of all records, one after the other. -/
def checkRecords (records cases : List Json) : Except Failure (List Dispatch) := do
  require (records.length = BATCH_SIZE) "Offered population missing"
  let checked ← records.zipIdx.mapM fun p => checkRecord parseFloat minus cases p.2 p.1
  return checked.reduceOption

/-- `classify`. -/
def classify (records cases : List Json) (concurrency : ℕ) : Except Failure Feedback := do
  let sent ← checkRecords parseFloat minus records cases
  checkConcurrency concurrency "Concurrency bound violated" "Outstanding request"
    (sent.map Dispatch.interval)
  return {
    offered := BATCH_SIZE
    timelyCorrect := sent.countP Dispatch.timely
    correct := sent.countP Dispatch.correct
    serverErrors := sent.countP Dispatch.serverError
    dispatchSeconds := sent.map Dispatch.seconds }

end

end Experience

/-! ## The records of the settlement study -/

namespace Opportunity

def ACTIONS : List ℕ := [1, 2, 4, 8, 16]

structure Counts where
  offered : ℕ
  dispatched : ℕ
  timelyCorrect : ℕ
  correct : ℕ
  serverErrors : ℕ
  transportErrors : ℕ

/-- `set(record) == set(names)`. -/
def hasNames (names : List String) : Json → Bool
  | .obj fs => fs.all (fun p => names.contains p.1) && names.all fun name => (fs.lookup name).isSome
  | _ => false

section
variable (reprFloat : ℚ → String) (parseFloat : String → Option ℚ)

/-- `json.dumps(…, sort_keys=True) == json.dumps(…, sort_keys=True)`. -/
def sameText (a b : Json) : Bool :=
  decide (dumps reprFloat { sortKeys := true } a = dumps reprFloat { sortKeys := true } b)

/-- A request without a response. -/
def isUnanswered (record : Json) : Except PyError Bool :=
  allTrue [.ok (hasNames ["index", "case_id", "start", "end", "status", "body", "error_type"] record),
    (record.subscript "body").map fun body => decide (body = .null),
    (record.subscript "error_type").map isText]

/-- The checks of one record. -/
def checkRecord (cases : List Json) (index : ℕ) (record : Json) : Except Failure (Option Dispatch) := do
  let case ← caseAt cases index
  require (← walk (sameIdentity record case index)) "Request identity differs"
  if (← walk (record.subscript "start")) = .null then
    require (PyEq record (undispatched index (← walk (case.subscript "id")))) "Undispatched output"
    return none
  else
    match ← finite? (← walk (record.subscript "start")) with
    | none => throw (.refused "Invalid response timing")
    | some start =>
        match ← finite? (← walk (record.subscript "end")) with
        | none => throw (.refused "Invalid response timing")
        | some finish =>
            if h : (0 ≤ start ∧ start < 1) ∧ start ≤ finish then
              match ← walk (record.subscript "status") with
              | .null => do
                  require (← walk (isUnanswered record)) "Unexplained missing response"
                  return some ⟨start, finish, h.2, finish - start, none, false⟩
              | .int status => do
                  require (100 ≤ status ∧ status ≤ 599) "Invalid response"
                  match ← walk (record.subscript "body") with
                  | .str text => do
                      require (hasNames ["index", "case_id", "start", "end", "status", "body"] record)
                        "Invalid response"
                      let body := (loads parseFloat text.toList).getD .null
                      let correct ← walk (isCorrect (sameText reprFloat) case status body)
                      return some ⟨start, finish, h.2, finish - start, some status, correct⟩
                  | _ => throw (.refused "Invalid response")
              | _ => throw (.refused "Invalid response")
            else throw (.refused "Invalid response timing")

/-- The checks of all records, one after the other: the requests that were sent, each with
its place in the batch. -/
def checkRecords (records cases : List Json) (action : ℕ) : Except Failure (List (ℕ × Dispatch)) := do
  require (records.length = 128 ∧ action ∈ ACTIONS) "Population or action differs"
  let checked ← records.zipIdx.mapM fun p => do
    let sent ← checkRecord reprFloat parseFloat cases p.2 p.1
    return sent.map fun d => (p.2, d)
  return checked.reduceOption

/-- `classify`: the counts, the requests that were sent, and those that Quote has answered. -/
def classify (records cases : List Json) (action : ℕ) :
    Except Failure (Counts × List ℕ × List ℕ) := do
  let sent ← checkRecords reprFloat parseFloat records cases action
  checkConcurrency action "Concurrency exceeded" "Client work outstanding"
    (sent.map fun p => p.2.interval)
  let counts : Counts := {
    offered := 128
    dispatched := sent.length
    timelyCorrect := sent.countP fun p => p.2.timely
    correct := sent.countP fun p => p.2.correct
    serverErrors := sent.countP fun p => p.2.serverError
    transportErrors := sent.countP fun p => p.2.status.isNone }
  let known := sent.filter fun p => [some 200, some 404, some 503].contains p.2.status
  return (counts, sent.map Prod.fst, known.map Prod.fst)

end

end Opportunity

/-! ## What the sweep accepts -/

/-- The loop passes if the count stays within its bounds. -/
theorem sweep_eq_ok {bound : ℕ} {reason : String} {es : List (Change ℚ)} {active left : ℤ} :
    sweep bound reason active es = .ok left ↔
      (∀ p, p <+: es → p ≠ [] → 0 ≤ active + total p ∧ active + total p ≤ bound) ∧
        left = active + total es := by
  induction es generalizing active with
  | nil =>
      rw [sweep, Except.ok.injEq, total_nil, add_zero, eq_comm]
      exact ⟨fun h => ⟨fun p hp hne => absurd (List.prefix_nil.1 hp) hne, h⟩, fun h => h.2⟩
  | cons e es ih =>
      rw [sweep, bind_eq_ok]
      simp only [require_eq_ok, exists_and_left, ih, total_cons, ← add_assoc, exists_const]
      constructor
      · rintro ⟨hfirst, hrest, hleft⟩
        refine ⟨fun p hp hne => ?_, hleft⟩
        cases p with
        | nil => exact absurd rfl hne
        | cons f p =>
            obtain ⟨rfl, hrestp⟩ := List.cons_prefix_cons.1 hp
            by_cases hnil : p = []
            · subst hnil
              simpa using hfirst
            · simpa [add_assoc] using hrest p hrestp hnil
      · rintro ⟨hall, hleft⟩
        refine ⟨?_, fun p hp hne => ?_, hleft⟩
        · simpa using hall [e] (List.cons_prefix_cons.2 ⟨rfl, List.nil_prefix⟩) (List.cons_ne_nil _ _)
        · simpa [add_assoc] using hall (e :: p) (List.cons_prefix_cons.2 ⟨rfl, hp⟩) (List.cons_ne_nil _ _)

/-- **What the sweep accepts**: nowhere more requests in flight than the bound, and nowhere
more momentary requests than there are requests around them. -/
theorem checkConcurrency_iff {bound : ℕ} {exceeded outstanding : String} {xs : List (ℚ × ℚ)}
    (h : ∀ x ∈ xs, x.1 ≤ x.2) : checkConcurrency bound exceeded outstanding xs = .ok () ↔
      (∀ t, inFlight t xs ≤ bound) ∧ ∀ t, momentary t xs ≤ spanning t xs := by
  rw [← within_iff h, checkConcurrency, bind_eq_ok]
  simp only [sweep_eq_ok, require_eq_ok, zero_add, total_sorted]
  exact ⟨fun ⟨_, h, _⟩ => h.1, fun h => ⟨0, ⟨h, rfl⟩, rfl⟩⟩

theorem ordered_intervals (sent : List Dispatch) : ∀ x ∈ sent.map Dispatch.interval, x.1 ≤ x.2 := by
  intro x hx
  obtain ⟨d, -, rfl⟩ := List.mem_map.1 hx
  exact d.ordered

/-- No more than `bound` requests are in flight at any instant. -/
def Bounded (bound : ℕ) (sent : List Dispatch) : Prop :=
  ∀ t, inFlight t (sent.map Dispatch.interval) ≤ bound

/-- Wherever requests take no time, at least as many are on their way around them. -/
def Covered (sent : List Dispatch) : Prop :=
  ∀ t, momentary t (sent.map Dispatch.interval) ≤ spanning t (sent.map Dispatch.interval)

/-- A check that is followed by nothing that raises decides whether there is a result. -/
theorem exists_bind_pure {α ε : Type} {check : Except ε Unit} {a : α} :
    (∃ b, (check >>= fun _ => pure a) = .ok b) ↔ check = .ok () := by
  cases check with
  | error e => exact ⟨fun ⟨_, h⟩ => (nomatch h), nofun⟩
  | ok u => exact ⟨fun _ => rfl, fun _ => ⟨a, rfl⟩⟩

theorem Experience.classify_iff {parseFloat : String → Option ℚ} {minus : ℚ → ℚ → ℚ}
    {records cases : List Json} {concurrency : ℕ} {sent : List Dispatch}
    (h : checkRecords parseFloat minus records cases = .ok sent) :
    (∃ feedback, classify parseFloat minus records cases concurrency = .ok feedback) ↔
      Bounded concurrency sent ∧ Covered sent := by
  rw [classify, h]
  exact exists_bind_pure.trans (checkConcurrency_iff (ordered_intervals sent))

theorem Opportunity.classify_iff {reprFloat : ℚ → String} {parseFloat : String → Option ℚ}
    {records cases : List Json} {action : ℕ} {sent : List (ℕ × Dispatch)}
    (h : checkRecords reprFloat parseFloat records cases action = .ok sent) :
    (∃ result, classify reprFloat parseFloat records cases action = .ok result) ↔
      Bounded action (sent.map Prod.snd) ∧ Covered (sent.map Prod.snd) := by
  have hmap : sent.map (fun p => p.2.interval) = (sent.map Prod.snd).map Dispatch.interval := by
    rw [List.map_map]
    rfl
  rw [classify, h]
  refine exists_bind_pure.trans ?_
  rw [hmap]
  exact checkConcurrency_iff (ordered_intervals _)

/-! ## Requests that take no time -/

/-- **When the sweep checks exactly the number of requests in flight.**  For records that pass
the checks of their own, there is a result just in case at most the given number of requests
are in flight at every instant — unless that is so and somewhere more requests take no time
than there are requests around them. -/
theorem concurrency_exact (records cases : List Json) (bound : ℕ) :
    (∀ parseFloat minus sent, Experience.checkRecords parseFloat minus records cases = .ok sent →
      (((∃ feedback, Experience.classify parseFloat minus records cases bound = .ok feedback) ↔
        Bounded bound sent) ↔ (Bounded bound sent → Covered sent))) ∧
    (∀ reprFloat parseFloat sent,
      Opportunity.checkRecords reprFloat parseFloat records cases bound = .ok sent →
        (((∃ result, Opportunity.classify reprFloat parseFloat records cases bound = .ok result) ↔
          Bounded bound (sent.map Prod.snd)) ↔
            (Bounded bound (sent.map Prod.snd) → Covered (sent.map Prod.snd)))) := by
  have hexact : ∀ {accepted bounded covered : Prop}, (accepted ↔ bounded ∧ covered) →
      ((accepted ↔ bounded) ↔ (bounded → covered)) := by
    intro accepted bounded covered h
    rw [h]
    exact ⟨fun h' hb => (h'.2 hb).2, fun h' => ⟨fun hb => hb.1, fun hb => ⟨hb, h' hb⟩⟩⟩
  constructor
  · intro parseFloat minus sent h
    exact hexact (Experience.classify_iff h)
  · intro reprFloat parseFloat sent h
    exact hexact (Opportunity.classify_iff h)

/-- A batch whose first request has the given start and end, and whose others are not sent. -/
def sampleRecords (start finish : ℚ) : List Json :=
  .obj [("index", .int 0), ("case_id", .str "quote"), ("start", .float start), ("end", .float finish),
    ("status", .int 200), ("body", .str "null")] ::
    (List.range' 1 127).map fun i => undispatched i (.str "quote")

def sampleCases : List Json := [.obj [("id", .str "quote"), ("status_code", .int 200)] ]

/-- A request that is on its way for a quarter of a second. -/
def sampleDispatch : Dispatch := ⟨1 / 4, 1 / 2, by decide +kernel, 1 / 4, some 200, true⟩

theorem concurrency_exact_sample :
    (((∃ feedback, Experience.classify parseFraction (fun a b => a - b) (sampleRecords (1 / 4) (1 / 2))
      sampleCases 1 = .ok feedback) ↔ Bounded 1 [sampleDispatch]) ↔
        (Bounded 1 [sampleDispatch] → Covered [sampleDispatch])) ∧
    (((∃ result, Opportunity.classify fractionText parseFraction (sampleRecords (1 / 4) (1 / 2))
      sampleCases 1 = .ok result) ↔ Bounded 1 [sampleDispatch]) ↔
        (Bounded 1 [sampleDispatch] → Covered [sampleDispatch])) :=
  ⟨(concurrency_exact _ _ _).1 _ _ _ (by decide +kernel),
    (concurrency_exact _ _ _).2 _ _ [(0, sampleDispatch)] (by decide +kernel)⟩

/-- A request that takes no time is refused, although no request is ever in flight. -/
theorem momentary_refused :
    ∃ sent, Experience.checkRecords parseFraction (fun a b => a - b) (sampleRecords (1 / 2) (1 / 2))
        sampleCases = .ok sent ∧
      Experience.classify parseFraction (fun a b => a - b) (sampleRecords (1 / 2) (1 / 2)) sampleCases 1 =
        .error (.refused "Concurrency bound violated") ∧ Bounded 1 sent := by
  refine ⟨[⟨1 / 2, 1 / 2, le_rfl, 0, some 200, true⟩], by decide +kernel, by decide +kernel, ?_⟩
  intro t
  exact List.countP_le_length

end AutonomyLab.Learning
