import Mathlib.Data.List.Perm.Basic

/-!
# Loops that stop early

A loop over a list that ends with `false` at the first entry that says so, and raises at the
first entry that raises, says `true` where every entry does.  What it raises is left out here:
`Except.toOption` keeps only that it does.

* `allM_eq_true`, `allM_ne_none`, `allM_ne_false` — the result, by the entries there are.
* `allM_perm_iff` — **the result does not depend on the order** just in case there is not both
  an entry that says `false` and an entry that raises; `allM_filter_perm_iff`, for a loop over
  some of the entries.
-/

namespace ShortCircuit

variable {α ε : Type} {f : α → Except ε Bool} {a : α} {l : List α}

/-- An entry that says `true` leaves the result to the rest. -/
theorem allM_cons_true (h : (f a).toOption = some true) : (a :: l).allM f = l.allM f := by
  rw [List.allM_cons]
  cases ha : f a with
  | error e => rw [ha] at h; cases h
  | ok b =>
      rw [ha] at h
      cases h
      rfl

/-- Any other entry decides. -/
theorem allM_cons_of_ne (h : (f a).toOption ≠ some true) :
    ((a :: l).allM f).toOption = (f a).toOption := by
  rw [List.allM_cons]
  cases ha : f a with
  | error e => rfl
  | ok b =>
      cases b with
      | true => exact absurd (by rw [ha]; rfl) h
      | false => rfl

theorem allM_eq_true : (l.allM f).toOption = some true ↔ ∀ a ∈ l, (f a).toOption = some true := by
  induction l with
  | nil => exact ⟨fun _ => List.forall_mem_nil _, fun _ => rfl⟩
  | cons a l ih =>
      rw [List.forall_mem_cons]
      by_cases h : (f a).toOption = some true
      · rw [allM_cons_true h, ih]
        exact ⟨fun hl => ⟨h, hl⟩, And.right⟩
      · rw [allM_cons_of_ne h]
        exact ⟨fun h' => absurd h' h, fun h' => absurd h'.1 h⟩

/-- What the result is, apart from `true`, some entry is. -/
theorem allM_ne {r : Option Bool} (hr : r ≠ some true) (h : ∀ a ∈ l, (f a).toOption ≠ r) :
    (l.allM f).toOption ≠ r := by
  induction l with
  | nil => exact fun h' => hr h'.symm
  | cons a l ih =>
      obtain ⟨ha, hl⟩ := List.forall_mem_cons.1 h
      by_cases htrue : (f a).toOption = some true
      · rw [allM_cons_true htrue]
        exact ih hl
      · rw [allM_cons_of_ne htrue]
        exact ha

/-- The result that remains where two of the three are excluded, and `true` is decided. -/
theorem eq_of_excluded {r x y : Option Bool} (htrue : x = some true ↔ y = some true)
    (hr : r = none ∨ r = some false) (hx : x ≠ r) (hy : y ≠ r) : x = y := by
  rcases hr with rfl | rfl <;> rcases x with _ | _ | _ <;> rcases y with _ | _ | _ <;> simp_all

theorem exists_perm_cons (h : a ∈ l) : ∃ l', (a :: l').Perm l := by
  obtain ⟨s, t, rfl⟩ := List.append_of_mem h
  exact ⟨s ++ t, List.perm_middle.symm⟩

/-- **The result does not depend on the order** just in case there is not both an entry that
says `false` and an entry that raises. -/
theorem allM_perm_iff :
    (∀ l' : List α, l'.Perm l → (l'.allM f).toOption = (l.allM f).toOption) ↔
      ¬ ((∃ a ∈ l, (f a).toOption = some false) ∧ ∃ a ∈ l, (f a).toOption = none) := by
  constructor
  · -- each of the two entries may come first, and then decides
    rintro h ⟨⟨a, ha, hfalse⟩, b, hb, hnone⟩
    obtain ⟨l₁, hl₁⟩ := exists_perm_cons ha
    obtain ⟨l₂, hl₂⟩ := exists_perm_cons hb
    have h₁ := h _ hl₁
    have h₂ := h _ hl₂
    rw [allM_cons_of_ne (by rw [hfalse]; decide), hfalse] at h₁
    rw [allM_cons_of_ne (by rw [hnone]; decide), hnone, ← h₁] at h₂
    cases h₂
  · intro h l' hperm
    have htrue : (l'.allM f).toOption = some true ↔ (l.allM f).toOption = some true := by
      rw [allM_eq_true, allM_eq_true]
      exact ⟨fun h' a ha => h' a (hperm.mem_iff.2 ha), fun h' a ha => h' a (hperm.mem_iff.1 ha)⟩
    have hexcluded : ∀ r : Option Bool, r = none ∨ r = some false →
        (∀ a ∈ l, (f a).toOption ≠ r) → (l'.allM f).toOption = (l.allM f).toOption := by
      intro r hr hne
      have hr' : r ≠ some true := by rcases hr with rfl | rfl <;> decide
      exact eq_of_excluded htrue hr (allM_ne hr' fun a ha => hne a (hperm.mem_iff.1 ha)) (allM_ne hr' hne)
    by_cases hfalse : ∃ a ∈ l, (f a).toOption = some false
    · exact hexcluded none (.inl rfl) fun a ha hnone => h ⟨hfalse, a, ha, hnone⟩
    · exact hexcluded (some false) (.inr rfl) fun a ha hf => hfalse ⟨a, ha, hf⟩

/-- The same for the entries that satisfy a condition, in the order of the whole list. -/
theorem allM_filter_perm_iff {p : α → Bool} :
    (∀ l' : List α, l'.Perm l → ((l'.filter p).allM f).toOption = ((l.filter p).allM f).toOption) ↔
      ¬ ((∃ a ∈ l.filter p, (f a).toOption = some false) ∧
        ∃ a ∈ l.filter p, (f a).toOption = none) := by
  rw [← allM_perm_iff]
  constructor
  · intro h l₁ hl₁
    have hfilter : (l₁ ++ l.filter fun a => !p a).filter p = l₁ := by
      rw [List.filter_append, List.filter_filter, List.filter_eq_self.2, List.filter_eq_nil_iff.2,
        List.append_nil]
      · intro a _
        cases p a <;> decide
      · intro a ha
        exact (List.mem_filter.1 (hl₁.mem_iff.1 ha)).2
    have := h _ ((hl₁.append_right _).trans (List.filter_append_perm p l))
    rwa [hfilter] at this
  · intro h l' hperm
    exact h _ (hperm.filter p)

end ShortCircuit
