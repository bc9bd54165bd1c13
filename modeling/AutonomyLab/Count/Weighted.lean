import Mathlib.Algebra.Order.BigOperators.Group.List
import Mathlib.Algebra.Order.Ring.Nat
import Mathlib.Data.List.Count

/-!
# Sums in which elements count as often as they occur

A sum over a list in which each element is counted as often as one like it occurs among the
elements that are kept, against the plain sum over these.

* `occurrences` — how often an element occurs, up to a relation.
* `sum_le_weighted` — an element that is kept is counted at least once.
* `weighted_eq_iff` — the two sums are equal just if nothing that has a weight is like
  another element that is kept.
-/

namespace Count

variable {α : Type} (R : α → α → Prop) [DecidableRel R] {f : α → ℕ} {x y : α} {xs ys : List α}

/-- How often an element like `x` occurs. -/
def occurrences (ys : List α) (x : α) : ℕ := ys.countP fun y => R y x

variable {R}

theorem occurrences_cons : occurrences R (y :: ys) x = occurrences R ys x + if R y x then 1 else 0 := by
  simp [occurrences, List.countP_cons]

theorem occurrences_eq_zero : occurrences R ys x = 0 ↔ ∀ y ∈ ys, ¬R y x := by
  simp [occurrences, List.countP_eq_zero]

theorem occurrences_pos (hrefl : ∀ x, R x x) (hx : x ∈ ys) : 1 ≤ occurrences R ys x := by
  rw [Nat.one_le_iff_ne_zero, Ne, occurrences_eq_zero]
  intro h
  exact h x hx (hrefl x)

/-- Every element occurs once, where it has a weight. -/
theorem occurrences_eq_one_iff (hrefl : ∀ x, R x x) (hsymm : ∀ x y, R x y → R y x) :
    (∀ x ∈ ys, f x = 0 ∨ occurrences R ys x = 1) ↔
      ys.Pairwise fun x y => R x y → f x = 0 ∧ f y = 0 := by
  induction ys with
  | nil => simp
  | cons y ys ih =>
      rw [List.pairwise_cons, ← ih, List.forall_mem_cons, occurrences_cons, if_pos (hrefl y),
        Nat.add_eq_right, occurrences_eq_zero]
      constructor
      · rintro ⟨hy, hys⟩
        have hothers : ∀ x ∈ ys, R y x → f x = 0 := by
          intro x hx hR
          have hpos := occurrences_pos hrefl hx
          have hcount := hys x hx
          rw [occurrences_cons, if_pos hR] at hcount
          omega
        refine ⟨?_, ?_⟩
        · intro x hx hR
          refine ⟨?_, hothers x hx hR⟩
          rcases hy with hy | hy
          · exact hy
          · exact absurd (hsymm y x hR) (hy x hx)
        · intro x hx
          have hpos := occurrences_pos hrefl hx
          have hcount := hys x hx
          rw [occurrences_cons] at hcount
          split at hcount
          · omega
          · simpa using hcount
      · rintro ⟨hpair, hys⟩
        refine ⟨?_, ?_⟩
        · by_cases hy : f y = 0
          · exact .inl hy
          · refine .inr ?_
            intro x hx hR
            exact hy (hpair x hx (hsymm x y hR)).1
        · intro x hx
          rw [occurrences_cons]
          by_cases hR : R y x
          · exact .inl (hpair x hx hR).2
          · rw [if_neg hR]
            exact hys x hx

variable (R f) in
/-- The sum in which an element counts as often as it occurs among `ys`. -/
def weighted (ys xs : List α) : ℕ := (xs.map fun x => f x * occurrences R ys x).sum

theorem weighted_cons : weighted R f ys (x :: xs) = f x * occurrences R ys x + weighted R f ys xs := by
  simp [weighted]

theorem weighted_append (xs xs' : List α) :
    weighted R f ys (xs ++ xs') = weighted R f ys xs + weighted R f ys xs' := by
  simp [weighted]

theorem weighted_eq_zero : weighted R f ys xs = 0 ↔ ∀ x ∈ xs, ∀ y ∈ ys, R y x → f x = 0 := by
  simp only [weighted, List.sum_eq_zero_iff, List.mem_map, forall_exists_index, and_imp,
    forall_apply_eq_imp_iff₂, Nat.mul_eq_zero, occurrences_eq_zero]
  constructor
  · intro h x hx y hy hR
    rcases h x hx with h | h
    · exact h
    · exact absurd hR (h y hy)
  · intro h x hx
    by_cases hf : f x = 0
    · exact .inl hf
    · exact .inr fun y hy hR => hf (h x hx y hy hR)

/-- What is kept is counted at least once. -/
theorem sum_le_weighted (h : ∀ x ∈ xs, 1 ≤ occurrences R ys x) : (xs.map f).sum ≤ weighted R f ys xs := by
  refine List.sum_le_sum fun x hx => ?_
  exact Nat.le_mul_of_pos_right _ (h x hx)

theorem weighted_eq_sum_iff (h : ∀ x ∈ xs, 1 ≤ occurrences R ys x) :
    weighted R f ys xs = (xs.map f).sum ↔ ∀ x ∈ xs, f x = 0 ∨ occurrences R ys x = 1 := by
  induction xs with
  | nil => simp [weighted]
  | cons x xs ih =>
      rw [List.forall_mem_cons] at h
      have hle := sum_le_weighted (f := f) h.2
      have hx : f x ≤ f x * occurrences R ys x := Nat.le_mul_of_pos_right _ h.1
      have hone : f x * occurrences R ys x = f x ↔ f x = 0 ∨ occurrences R ys x = 1 := by
        constructor
        · intro heq
          rcases Nat.eq_zero_or_pos (f x) with hzero | hpos
          · exact .inl hzero
          · exact .inr (Nat.eq_of_mul_eq_mul_left hpos (heq.trans (Nat.mul_one _).symm))
        · rintro (hzero | hone)
          · simp [hzero]
          · simp [hone]
      rw [weighted_cons, List.map_cons, List.sum_cons, List.forall_mem_cons, ← ih h.2, ← hone]
      omega

/-- **The two sums are equal** just if no element with a weight, kept or not, is like another
one that is kept. -/
theorem weighted_eq_iff (hrefl : ∀ x, R x x) (hsymm : ∀ x y, R x y → R y x) :
    weighted R f ys (xs ++ ys) = (ys.map f).sum ↔
      (∀ x ∈ xs, ∀ y ∈ ys, R y x → f x = 0) ∧
        ys.Pairwise fun x y => R x y → f x = 0 ∧ f y = 0 := by
  have hpos : ∀ x ∈ ys, 1 ≤ occurrences R ys x := fun x hx => occurrences_pos hrefl hx
  have hle := sum_le_weighted (f := f) hpos
  rw [weighted_append, ← weighted_eq_zero, ← occurrences_eq_one_iff hrefl hsymm, ← weighted_eq_sum_iff hpos]
  omega

end Count
