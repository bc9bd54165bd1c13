import AutonomyLab.Broker.Protocol

/-!
# At most one dispatch

What a history of protocol acts says about the dispatch of one operation.

* `Trace.claims_le_one` — an operation is claimed at most once, since a claim finds it
  prepared and leaves it not prepared, which it then stays (`Trace.left_of_claim`).
* `Trace.claim_of_dispatch` — whoever sends the patch of an operation, or is answered,
  has claimed it.
* `Trace.patches_le_one` — so the patch of an operation is sent at most once.
-/

namespace AutonomyLab.Broker

open Json Contract Process

variable {ρ Λ : Type} {P : Platform} {E : Ext ρ Λ} {j₀ j : Journal} {hist past : List (Did ρ Λ)}
  {e : Did ρ Λ} {id : String}

/-- The claims of an operation. -/
def claims (id : String) (hist : List (Did ρ Λ)) : List (Did ρ Λ) :=
  hist.filter fun e => e.label.claimOf = some id

/-- The operation whose patch a label sends. -/
def Label.patchOf : Label Λ → Option String
  | .patchService id _ => some id
  | _ => none

/-- The calls of `patch_service` for an operation. -/
def patches (id : String) (hist : List (Did ρ Λ)) : List (Did ρ Λ) :=
  hist.filter fun e => e.label.patchOf = some id

theorem claimOf_eq_some {l : Label Λ} : l.claimOf = some id ↔ l = .endClaim id none := by
  unfold Label.claimOf
  split
  · simp
  · rename_i hne
    constructor
    · nofun
    · rintro rfl
      exact absurd rfl (hne id)

theorem mem_claims : e ∈ claims id hist ↔ e ∈ hist ∧ e.label = .endClaim id none := by
  rw [claims, List.mem_filter, decide_eq_true_eq, claimOf_eq_some]

theorem patchOf_eq_some {l : Label Λ} :
    l.patchOf = some id ↔ ∃ patch, l = .patchService id patch := by
  unfold Label.patchOf
  split
  · rename_i k patch
    constructor
    · rintro ⟨⟩
      exact ⟨patch, rfl⟩
    · rintro ⟨patch', h⟩
      cases h
      rfl
  · rename_i hne
    constructor
    · nofun
    · rintro ⟨patch, rfl⟩
      exact absurd rfl (hne id patch)

theorem mem_patches :
    e ∈ patches id hist ↔ e ∈ hist ∧ ∃ patch, e.label = .patchService id patch := by
  rw [patches, List.mem_filter, decide_eq_true_eq, patchOf_eq_some]

/-- A claim finds the operation prepared, and moves it to `dispatching`. -/
theorem Act.claim_status {t : ℕ} {o : String} {v : Seen ρ Λ} {w : World ρ}
    (h : Act P E t o v (.endClaim id none) w) :
    v.world.journal.status? id = some .prepared ∧ w.journal.status? id = some .dispatching := by
  obtain ⟨row, hrow, hs, hrow'⟩ := (h.effect id).of_claim
  rw [← Journal.record_status?, ← Journal.record_status?, Record.status?, Record.status?, hrow,
    hrow']
  exact ⟨congrArg some hs, rfl⟩

theorem Act.claimable_of_claim {t : ℕ} {o : String} {v : Seen ρ Λ} {w : World ρ}
    (h : Act P E t o v (.endClaim id none) w) : ∃ p patch, Claimable P E t o id p patch v := by
  cases h with
  | read hl => cases hl
  | claim _ hc => exact ⟨_, _, hc⟩

/-! ## Claims -/

theorem claims_cons_of_ne (h : e.label.claimOf ≠ some id) : claims id (e :: hist) = claims id hist :=
  List.filter_cons_of_neg (by rwa [decide_eq_true_eq])

/-- An operation that has been claimed is not prepared, and is claimed once. -/
theorem Trace.claims_step (h : Trace P E j₀ hist j) (id : String) :
    (claims id hist).length ≤ 1 ∧
      (claims id hist ≠ [] → ∃ s, j.status? id = some s ∧ s ≠ .prepared) := by
  induction h with
  | nil => exact ⟨Nat.zero_le _, fun hn => absurd rfl hn⟩
  | @cons e past ht ha ih =>
      obtain ⟨hle, hleft⟩ := ih
      by_cases hl : e.label = .endClaim id none
      · -- a claim finds the operation prepared, so it is the first one
        rw [hl] at ha
        obtain ⟨hpre, hpost⟩ := ha.claim_status
        have hnil : claims id past = [] := by
          by_contra hn
          obtain ⟨s, hs, hsn⟩ := hleft hn
          rw [hpre, Option.some.injEq] at hs
          exact hsn hs.symm
        have hcons : claims id (e :: past) = [e] := by
          rw [claims, List.filter_cons_of_pos (by rw [hl]; exact decide_eq_true rfl)]
          exact congrArg (e :: ·) hnil
        rw [hcons]
        exact ⟨le_refl _, fun _ => ⟨_, hpost, nofun⟩⟩
      · rw [claims_cons_of_ne (mt claimOf_eq_some.1 hl)]
        refine ⟨hle, fun hn => ?_⟩
        obtain ⟨s, hs, hsn⟩ := hleft hn
        exact (ha.effect id).keeps_left hs hsn

theorem Trace.claims_le_one (h : Trace P E j₀ hist j) (id : String) :
    (claims id hist).length ≤ 1 := (h.claims_step id).1

/-- Two claims of one operation are one. -/
theorem Trace.claim_unique (h : Trace P E j₀ hist j) {e' : Did ρ Λ} (he : e ∈ claims id hist)
    (he' : e' ∈ claims id hist) : e = e' := by
  obtain ⟨x, hx⟩ : ∃ x, claims id hist = [x] := by
    rw [← List.length_eq_one_iff]
    exact Nat.le_antisymm (h.claims_le_one id) (List.length_pos_of_mem he)
  rw [hx, List.mem_singleton] at he he'
  rw [he, he']

/-- An operation that has been claimed is not prepared any more. -/
theorem Trace.left_of_claim (h : Trace P E j₀ hist j) (he : e ∈ claims id hist) :
    ∃ s, j.status? id = some s ∧ s ≠ .prepared :=
  (h.claims_step id).2 (List.ne_nil_of_mem he)

theorem Trace.claims_of_prepared (h : Trace P E j₀ hist j)
    (hs : j.status? id = some .prepared) : claims id hist = [] := by
  rw [List.eq_nil_iff_forall_not_mem]
  intro e he
  obtain ⟨s, hs', hne⟩ := h.left_of_claim he
  rw [hs, Option.some.injEq] at hs'
  exact hne hs'.symm

/-- The event moved the operation from `prepared` to `dispatching`. -/
def Starts (id : String) (e : Did ρ Λ) : Prop :=
  e.pre.journal.status? id = some .prepared ∧ e.post.journal.status? id = some .dispatching

instance : Decidable (Starts id e) := inferInstanceAs (Decidable (_ ∧ _))

/-- The claims are the events that move the operation to `dispatching`. -/
theorem Trace.starts_iff (h : Trace P E j₀ hist j) (he : e ∈ hist) :
    Starts id e ↔ e ∈ claims id hist := by
  obtain ⟨past, -, ha⟩ := h.act_of_mem he
  constructor
  · rintro ⟨hpre, hpost⟩
    exact List.mem_filter.2 ⟨he, decide_eq_true ((ha.effect id).claimOf_of_start hpre hpost)⟩
  · intro hc
    rw [(mem_claims.1 hc).2] at ha
    exact ha.claim_status

/-! ## Dispatches -/

theorem claim_of_claimed {t : ℕ} {o : String} {p : Proposal} {patch : List Op}
    (h : Claimed P E t o id p patch hist) :
    ∃ c ∈ claims id hist, c.tid = t ∧ c.actor = o := by
  obtain ⟨c, past, hs, ht, ho, hl, -⟩ := h
  exact ⟨c, mem_claims.2 ⟨hs.subset List.mem_cons_self, hl⟩, ht, ho⟩

theorem claims_mono (h : past <:+ hist) (he : e ∈ claims id past) : e ∈ claims id hist :=
  (h.filter _).subset he

/-- Whoever has to do with the dispatch of an operation has claimed it before. -/
theorem Act.claim_of_dispatch {t : ℕ} {o : String} {v : Seen ρ Λ} {l : Label Λ} {w : World ρ}
    (h : Act P E t o v l w) (hl : l.dispatchOf = some id) :
    ∃ c ∈ claims id v.hist, c.tid = t ∧ c.actor = o := by
  cases h with
  | read hr => cases l <;> simp_all [Label.isRead, Label.dispatchOf]
  | patchService hc _ =>
      cases hl
      exact claim_of_claimed hc
  | patchReturned hc _ =>
      cases hl
      exact claim_of_claimed hc
  | _ => cases hl

/-- An outcome is recorded by the thread to which the patch was answered. -/
theorem Act.return_of_finish {t : ℕ} {o : String} {v : Seen ρ Λ} {out : Journal.Outcome}
    {w : World ρ} (h : Act P E t o v (.finish id out) w) :
    ∃ p answer, out = outcome p answer ∧
      ∃ e ∈ v.hist, e.tid = t ∧ e.actor = o ∧ e.label = .patchReturned id p answer := by
  cases h with
  | read hl => cases hl
  | finish _ he => exact ⟨_, _, rfl, he⟩

/-- Whoever sends the patch of an operation, or is answered, has claimed it before. -/
theorem Trace.claim_of_dispatch (h : Trace P E j₀ hist j) (hs : e :: past <:+ hist)
    (hl : e.label.dispatchOf = some id) :
    ∃ c ∈ claims id past, c.tid = e.tid ∧ c.actor = e.actor :=
  (h.suffix hs).2.2.claim_of_dispatch hl

/-- Whoever records the outcome of an operation has claimed it. -/
theorem Trace.claim_of_finish {v : Seen ρ Λ} (ht : Trace P E j₀ v.hist v.world.journal) {t : ℕ}
    {o : String} {out : Journal.Outcome} {w : World ρ} (h : Act P E t o v (.finish id out) w) :
    ∃ c ∈ claims id v.hist, c.tid = t ∧ c.actor = o := by
  obtain ⟨p, answer, -, e, he, rfl, rfl, hl⟩ := h.return_of_finish
  obtain ⟨past, hs, -⟩ := ht.act_of_mem he
  obtain ⟨c, hc, hct, hco⟩ := ht.claim_of_dispatch hs (by rw [hl]; rfl : e.label.dispatchOf = some id)
  exact ⟨c, claims_mono ((List.suffix_cons _ _).trans hs) hc, hct, hco⟩

/-- Nothing has been sent for an operation that is prepared. -/
theorem Trace.dispatches_of_prepared (h : Trace P E j₀ hist j)
    (hs : j.status? id = some .prepared) : dispatches id hist = [] := by
  rw [List.eq_nil_iff_forall_not_mem]
  intro e he
  obtain ⟨hmem, hl⟩ := List.mem_filter.1 he
  obtain ⟨past, hsuf, -⟩ := h.act_of_mem hmem
  obtain ⟨c, hc, -⟩ := h.claim_of_dispatch hsuf (of_decide_eq_true hl)
  obtain ⟨s, hs', hne⟩ := h.left_of_claim (claims_mono ((List.suffix_cons _ _).trans hsuf) hc)
  rw [hs, Option.some.injEq] at hs'
  exact hne hs'.symm

/-- A patch is sent on the claim of its sender. -/
theorem Act.claimed_of_patch {t : ℕ} {o : String} {v : Seen ρ Λ} {patch : List Op} {w : World ρ}
    (h : Act P E t o v (.patchService id patch) w) : ∃ p, Claimed P E t o id p patch v.hist := by
  cases h with
  | read hl => cases hl
  | patchService hc _ => exact ⟨_, hc⟩

/-- A patch is sent where none has been sent before. -/
theorem Act.dispatches_eq_nil {t : ℕ} {o : String} {v : Seen ρ Λ} {patch : List Op} {w : World ρ}
    (h : Act P E t o v (.patchService id patch) w) : dispatches id v.hist = [] := by
  cases h with
  | read hl => cases hl
  | patchService _ hd => exact hd

theorem patches_subset_dispatches (id : String) (hist : List (Did ρ Λ)) :
    patches id hist ⊆ dispatches id hist := by
  intro e he
  obtain ⟨hmem, patch, hl⟩ := mem_patches.1 he
  exact List.mem_filter.2 ⟨hmem, by rw [hl]; exact decide_eq_true rfl⟩

/-- **The patch of an operation is sent at most once.** -/
theorem Trace.patches_le_one (h : Trace P E j₀ hist j) (id : String) :
    (patches id hist).length ≤ 1 := by
  induction h with
  | nil => exact Nat.zero_le _
  | @cons e past ht ha ih =>
      by_cases hl : e.label.patchOf = some id
      · obtain ⟨patch, hpatch⟩ := patchOf_eq_some.1 hl
        rw [hpatch] at ha
        have hnil : patches id past = [] :=
          List.eq_nil_of_subset_nil (ha.dispatches_eq_nil ▸ patches_subset_dispatches id past)
        have hcons : patches id (e :: past) = e :: patches id past :=
          List.filter_cons_of_pos (by rwa [decide_eq_true_eq])
        rw [hcons, hnil]
        exact le_refl 1
      · rw [patches, List.filter_cons_of_neg (by rwa [decide_eq_true_eq])]
        exact ih

end AutonomyLab.Broker
