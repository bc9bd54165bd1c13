import AutonomyLab.Interval.Sweep
import Mathlib.Data.Finset.Card
import Mathlib.Data.Finset.Range

/-!
# Intervals of a few owners

* `OneAtATime` — each owner has one interval after the other.
* `inFlight_le` — then no more intervals are in flight than there are owners.
* `momentary_eq_zero` — and none is momentary where each ends after it started.
-/

namespace Interval

variable {τ : Type} [LinearOrder τ]

/-- Of two intervals of one owner, the first ends before the second starts. -/
def OneAtATime (xs : List (ℕ × τ × τ)) : Prop := xs.Pairwise fun x y => x.1 = y.1 → x.2.2 ≤ y.2.1

/-- **No more intervals are in flight than there are owners.** -/
theorem inFlight_le {n : ℕ} {xs : List (ℕ × τ × τ)} (h : OneAtATime xs) (hn : ∀ x ∈ xs, x.1 < n) (t : τ) :
    inFlight t (xs.map Prod.snd) ≤ n := by
  let holds : ℕ × τ × τ → Bool := fun x => x.2.1 ≤ t ∧ t < x.2.2
  have hlength : inFlight t (xs.map Prod.snd) = ((xs.filter holds).map Prod.fst).length := by
    rw [inFlight, List.countP_map, List.countP_eq_length_filter, List.length_map]
    rfl
  have hnodup : ((xs.filter holds).map Prod.fst).Nodup := by
    rw [List.Nodup, List.pairwise_map]
    refine (h.filter holds).imp_of_mem ?_
    intro x y hx hy hxy heq
    have hx' := of_decide_eq_true (List.mem_filter.1 hx).2
    have hy' := of_decide_eq_true (List.mem_filter.1 hy).2
    exact absurd (hxy heq) (not_le.2 (lt_of_le_of_lt hy'.1 hx'.2))
  have hsubset : ((xs.filter holds).map Prod.fst).toFinset ⊆ Finset.range n := by
    intro k hk
    obtain ⟨x, hx, rfl⟩ := List.mem_map.1 (List.mem_toFinset.1 hk)
    exact Finset.mem_range.2 (hn x (List.mem_filter.1 hx).1)
  calc inFlight t (xs.map Prod.snd) = ((xs.filter holds).map Prod.fst).toFinset.card := by
        rw [hlength, List.toFinset_card_of_nodup hnodup]
    _ ≤ (Finset.range n).card := Finset.card_le_card hsubset
    _ = n := Finset.card_range n

/-- No interval is momentary that ends after it started. -/
theorem momentary_eq_zero {xs : List (τ × τ)} (h : ∀ x ∈ xs, x.1 < x.2) (t : τ) : momentary t xs = 0 := by
  rw [momentary, List.countP_eq_zero]
  intro x hx hd
  obtain ⟨hstart, hend⟩ := of_decide_eq_true hd
  exact absurd (h x hx) (by rw [hstart, hend]; exact lt_irrefl t)

end Interval
