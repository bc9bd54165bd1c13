import AutonomyLab.Broker.Dispatch

/-!
# The status of an operation

The state machine that the status of an operation goes through, whoever acts on it.

* `Status.next` — the status changes there are.  `Act.status_change` says that no act
  makes any other.
* `Act.of_uncertain` — an operation leaves `uncertain` only by the outcome that the
  instance that claimed it has been answered.
* `Act.reconcile_status` — what a reconciliation changes.
-/

namespace AutonomyLab.Broker

open Json Contract Process

variable {ρ Λ : Type} {P : Platform} {E : Ext ρ Λ} {j₀ : Journal} {t : ℕ} {o id : String}
  {v : Seen ρ Λ} {l : Label Λ} {w : World ρ}

/-- What may become of a status; nothing becomes of an acknowledgement or a rejection. -/
def Status.next : Status → List Status
  | .prepared => [.dispatching, .rejected]
  | .dispatching => [.acknowledged, .rejected, .uncertain]
  | .uncertain => [.acknowledged, .rejected]
  | .acknowledged | .rejected => []

/-- An outcome follows on a dispatch in either of its states. -/
theorem mem_next_of_isOutcome {s s' : Status} (h : s = .dispatching ∨ s = .uncertain)
    (h' : s'.isOutcome = true) : s' = s ∨ s' ∈ s.next := by
  rcases h with rfl | rfl <;> cases s' <;> simp_all [Status.isOutcome, Status.next]

/-- Every change of a record is a step of the state machine. -/
theorem Effect.status_change {r r' : Record} {s : Status} (h : Effect P o id l r r')
    (hr : r.status? = some s) : ∃ s', r'.status? = some s' ∧ (s' = s ∨ s' ∈ s.next) := by
  cases h with
  | same _ => exact ⟨s, hr, .inl rfl⟩
  | proposed _ _ _ => cases hr
  | noted => exact ⟨s, hr, .inl rfl⟩
  | recorded _ _ _ => exact ⟨s, hr, .inl rfl⟩
  | rejected _ hs =>
      obtain rfl : s = .prepared := (Option.some.inj hr).symm.trans hs
      exact ⟨.rejected, rfl, .inr (by simp [Status.next])⟩
  | claimed hs =>
      obtain rfl : s = .prepared := (Option.some.inj hr).symm.trans hs
      exact ⟨.dispatching, rfl, .inr (by simp [Status.next])⟩
  | @finished out row _ _ hout hs _ =>
      obtain rfl : row.status = s := Option.some.inj hr
      exact ⟨out.status, rfl, mem_next_of_isOutcome hs hout⟩
  | @reconciled observed row _ _ =>
      obtain rfl : row.status = s := Option.some.inj hr
      refine ⟨_, rfl, ?_⟩
      by_cases hd : row.status = .dispatching
      · simp [hd, Status.next]
      · simp [hd]

/-- Only the record of an outcome takes an operation out of `uncertain`. -/
theorem Effect.finish_of_uncertain {r r' : Record} {s : Status} (h : Effect P o id l r r')
    (hr : r.status? = some .uncertain) (hr' : r'.status? = some s) (hne : s ≠ .uncertain) :
    ∃ out, l = .finish id out ∧ out.status = s := by
  cases h with
  | same _ => exact absurd (Option.some.inj (hr'.symm.trans hr)) hne
  | proposed _ _ _ => cases hr
  | noted => exact absurd (Option.some.inj (hr'.symm.trans hr)) hne
  | recorded _ _ _ => exact absurd (Option.some.inj (hr'.symm.trans hr)) hne
  | rejected _ hs => cases hs.symm.trans (Option.some.inj hr)
  | claimed hs => cases hs.symm.trans (Option.some.inj hr)
  | @finished out _ _ _ _ _ _ => exact ⟨out, rfl, Option.some.inj hr'⟩
  | @reconciled observed row _ _ =>
      have hrow : row.status = .uncertain := Option.some.inj hr
      have hs : s = .uncertain := by simpa [Record.status?, hrow, eq_comm] using hr'
      exact absurd hs hne

/-! ## Acts -/

/-- **No act makes any other change of a status**, and none takes a row away. -/
theorem Act.status_change {s : Status} (h : Act P E t o v l w)
    (hs : v.world.journal.status? id = some s) :
    ∃ s', w.journal.status? id = some s' ∧ (s' = s ∨ s' ∈ s.next) :=
  (h.effect id).status_change hs

/-- **An operation leaves `uncertain` only by the outcome of its dispatch**: the act is of
the instance that claimed the operation, and records the answer it was given. -/
theorem Act.of_uncertain {s : Status} (ht : Trace P E j₀ v.hist v.world.journal)
    (h : Act P E t o v l w) (hs : v.world.journal.status? id = some .uncertain)
    (hs' : w.journal.status? id = some s) (hne : s ≠ .uncertain) :
    ∃ p answer, l = .finish id (outcome p answer) ∧ (outcome p answer).status = s ∧
      (∃ e ∈ v.hist, e.tid = t ∧ e.actor = o ∧ e.label = .patchReturned id p answer) ∧
      ∃ c ∈ claims id v.hist, c.tid = t ∧ c.actor = o := by
  obtain ⟨out, rfl, hout⟩ := (h.effect id).finish_of_uncertain hs hs' hne
  have hclaim := Trace.claim_of_finish ht h
  obtain ⟨p, answer, rfl, hreturned⟩ := h.return_of_finish
  exact ⟨p, answer, rfl, hout, hreturned, hclaim⟩

/-- **A reconciliation makes a dispatch uncertain and changes no other status.** -/
theorem Act.reconcile_status {observed : List (String × Json)} {s s' : Status}
    (h : Act P E t o v (.reconcile id observed) w) {k : String}
    (hs : v.world.journal.status? k = some s) (hs' : w.journal.status? k = some s') :
    s' = s ∨ s = .dispatching ∧ s' = .uncertain := by
  have heff := h.effect k
  rw [← Journal.record_status?] at hs hs'
  generalize v.world.journal.record k = r at heff hs
  generalize w.journal.record k = r' at heff hs'
  cases heff with
  | same _ => exact .inl (Option.some.inj (hs'.symm.trans hs))
  | rejected hl _ => rcases hl with ⟨_, hl⟩ | hl <;> cases hl
  | @reconciled _ row _ _ =>
      obtain rfl : row.status = s := Option.some.inj hs
      have hrow := Option.some.inj hs'
      by_cases hd : row.status = .dispatching
      · exact .inr ⟨hd, by simpa [hd, eq_comm] using hrow⟩
      · exact .inl (by simpa [hd, eq_comm] using hrow)

end AutonomyLab.Broker
