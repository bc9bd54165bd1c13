import AutonomyLab.Interval.Lanes
import AutonomyLab.Learning.Requests
import AutonomyLab.Process.Stable

/-!
# One batch of requests

The requests of a batch arrive at once.  A few workers take them from one iterator; each
awaits the response to a request before it takes the next, and requests that are taken after
the deadline are not sent.

* `Item` — the record of a request, `Item.toJson` — as it is kept.
* `worker`, `system` — the program of a worker, and the workers together on one clock.
* `Finished` — `gather` has returned: every worker has come to the end of the iterator.
-/

namespace AutonomyLab.Learning.Batch

open Json Check Process

/-! ## The records -/

/-- A response, with a status of HTTP. -/
structure Response where
  status : ℤ
  inRange : 100 ≤ status ∧ status ≤ 599
  text : String

/-- The name of a class. -/
abbrev ClassName := {name : String // name ≠ ""}

/-- What becomes of a request that was sent. -/
inductive Outcome
  | response (r : Response)
  /-- `httpx.HTTPError`. -/
  | httpError (name : ClassName)
  /-- Any other exception. -/
  | raised

/-- How far a request has come. -/
inductive Progress
  | undispatched
  /-- It was sent, and its worker awaits the response. -/
  | sent (start : ℚ)
  | settled (start finish : ℚ) (outcome : Outcome)

/-- The record of a request. -/
structure Item where
  index : ℕ
  caseId : Json
  progress : Progress

def Item.start? (item : Item) : Option ℚ :=
  match item.progress with
  | .undispatched => none
  | .sent start => some start
  | .settled start _ _ => some start

def Item.finish? (item : Item) : Option ℚ :=
  match item.progress with
  | .settled _ finish _ => some finish
  | _ => none

def Item.response? (item : Item) : Option Response :=
  match item.progress with
  | .settled _ _ (.response r) => some r
  | _ => none

def Item.error? (item : Item) : Option ClassName :=
  match item.progress with
  | .settled _ _ (.httpError name) => some name
  | _ => none

/-- `None`, or what there is. -/
def orNone {α : Type} (f : α → Json) (a : Option α) : Json := a.elim .null f

/-- The record as it is kept; the two studies name the member for an error differently. -/
def Item.toJson (errorKey : String) (item : Item) : Json :=
  .obj ([("index", .int item.index), ("case_id", item.caseId), ("start", orNone .float item.start?),
    ("end", orNone .float item.finish?), ("status", orNone (fun r => .int r.status) item.response?),
    ("body", orNone (fun r => .str r.text) item.response?)] ++
      item.error?.toList.map fun name => (errorKey, .str name))

/-- `records`, before any request is sent. -/
def blankItem (cases : List Json) (index : ℕ) : Except Failure Item := do
  let case ← caseAt cases index
  return ⟨index, ← walk (case.subscript "id"), .undispatched⟩

def blankItems (cases : List Json) : Except Failure (List Item) :=
  (List.range BATCH_SIZE).mapM (blankItem cases)

/-! ## The workers -/

structure World where
  /-- `time.monotonic()`. -/
  now : ℚ
  records : List Item
  /-- How many records were taken from the iterator. -/
  taken : ℕ

inductive Act
  | take
  | settle (index : ℕ) (outcome : Outcome)

abbrev Program := Proc World Act Unit

/-- A record with the progress of its request. -/
def World.put (w : World) (index : ℕ) (progress : Progress) : World :=
  { w with records := w.records.modify index fun item => { item with progress := progress } }

section
variable (minus : ℚ → ℚ → ℚ) (started : ℚ)

/-- `for item in pending`: the place of the next record, and when it is sent, if it still is. -/
def take : Program (Option (ℕ × Option ℚ)) := .perform .take fun _ w =>
  match w.records[w.taken]? with
  | none => some (none, w)
  | some _ =>
      let start := minus w.now started
      if 1 ≤ start then some (some (w.taken, none), { w with taken := w.taken + 1 })
      else some (some (w.taken, some start),
        { w.put w.taken (.sent start) with taken := w.taken + 1 })

/-- The response is recorded, or what was raised instead, and in any case when. -/
def settle (index : ℕ) (start : ℚ) (outcome : Outcome) : Program Unit :=
  .perform (.settle index outcome) fun _ w =>
    some ((), w.put index (.settled start (minus w.now started) outcome))

/-- A request of which the worker awaits the response. -/
def await (index : ℕ) (start : ℚ) : Program Unit := do
  let outcome ← Proc.ask Outcome
  settle minus started index start outcome
  match outcome with
  | .raised => throw ()
  | _ => pure ()

/-- `worker`.  No worker goes around the loop more often than there are records, and then once. -/
def worker : ℕ → Program Unit
  | 0 => pure ()
  | rounds + 1 => do
      match ← take minus started with
      | none => pure ()
      | some (_, none) => worker rounds
      | some (index, some start) => do
          await minus started index start
          worker rounds

/-- `action` workers over the records of one batch. -/
def system (cases : List Json) (action : ℕ) : System World Act Unit Unit Unit where
  init w := ∃ records, blankItems cases = .ok records ∧ w = ⟨started, records, 0⟩
  calls c _ p := c.next < action ∧ p = worker minus started (BATCH_SIZE + 1)
  stop _ _ _ := False
  env w w' := ∃ now, w.now ≤ now ∧ w' = { w with now := now }

end

/-- All workers were started, and have come to the end of the records. -/
structure Finished (action : ℕ) (c : Conf World Act Unit Unit Unit) : Prop where
  started : c.next = action
  done : ∀ t < action, c.threads t = some ((), .done ())

/-! ## Records -/

@[simp] theorem put_now (w : World) (index : ℕ) (progress : Progress) : (w.put index progress).now = w.now := rfl

@[simp] theorem put_taken (w : World) (index : ℕ) (progress : Progress) :
    (w.put index progress).taken = w.taken := rfl

theorem getElem?_put (w : World) (index : ℕ) (progress : Progress) (j : ℕ) :
    (w.put index progress).records[j]? =
      if index = j then w.records[j]?.map fun item => { item with progress := progress }
      else w.records[j]? := by
  rw [World.put, List.getElem?_modify]
  by_cases h : index = j
  · simp [h]
  · simp [h]

theorem length_put (w : World) (index : ℕ) (progress : Progress) :
    (w.put index progress).records.length = w.records.length := List.length_modify _ _ _

theorem blankItem_eq_ok {cases : List Json} {index : ℕ} {item : Item} (h : blankItem cases index = .ok item) :
    item.index = index ∧ item.progress = .undispatched ∧
      ∃ case, caseAt cases index = .ok case ∧ case.subscript "id" = .ok item.caseId := by
  obtain ⟨case, hcase, h⟩ := bind_eq_ok.1 h
  obtain ⟨id, hid, h⟩ := bind_eq_ok.1 h
  cases h
  exact ⟨rfl, rfl, case, hcase, walk_eq_ok.1 hid⟩

end AutonomyLab.Learning.Batch
