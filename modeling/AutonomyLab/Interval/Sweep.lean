import Mathlib.Algebra.BigOperators.Group.List.Basic
import Mathlib.Algebra.Ring.Int.Defs
import Mathlib.Data.List.Induction
import Mathlib.Data.List.Sort
import Mathlib.Data.Prod.Lex

/-!
# Sweeping over the ends of intervals

Each interval of a list adds one where it starts and takes one away where it ends.  The
events are sorted, and a running count goes over them in that order: where an end and a
start fall together the end comes first.

* `events`, `sorted`, `Within` — the events, their order, and the bounds of the running count.
* `inFlight`, `spanning`, `momentary` — the intervals that hold an instant: as closed-open
  intervals, in their inside, and as intervals that are nothing but this instant.
* `within_iff` — **what the running count checks**: that nowhere more than `c` intervals are
  in flight, and that nowhere more intervals are momentary than there are around them.
-/

namespace Interval

variable {τ : Type}

/-! ## Events -/

/-- An instant and a change of the count, in the order of pairs. -/
abbrev Change (τ : Type) := τ ×ₗ ℤ

/-- The events of a list of intervals. -/
def events (xs : List (τ × τ)) : List (Change τ) := xs.flatMap fun x => [toLex (x.1, 1), toLex (x.2, -1)]

/-- The count after the events `es`. -/
def total (es : List (Change τ)) : ℤ := (es.map fun e => (ofLex e).2).sum

/-- The running count stays between zero and `c`. -/
def Within (c : ℤ) (es : List (Change τ)) : Prop := ∀ p, p <+: es → p ≠ [] → 0 ≤ total p ∧ total p ≤ c

@[simp] theorem total_nil : total ([] : List (Change τ)) = 0 := rfl

@[simp] theorem total_cons (e : Change τ) (es : List (Change τ)) :
    total (e :: es) = (ofLex e).2 + total es := by simp [total]

@[simp] theorem total_append (es fs : List (Change τ)) : total (es ++ fs) = total es + total fs := by
  simp [total]

theorem total_perm {es fs : List (Change τ)} (h : es.Perm fs) : total es = total fs :=
  (h.map _).sum_eq

theorem events_cons (x : τ × τ) (xs : List (τ × τ)) :
    events (x :: xs) = toLex (x.1, 1) :: toLex (x.2, -1) :: events xs := rfl

theorem change_eq {xs : List (τ × τ)} {e : Change τ} (h : e ∈ events xs) :
    (ofLex e).2 = 1 ∨ (ofLex e).2 = -1 := by
  obtain ⟨x, -, hx⟩ := List.mem_flatMap.1 h
  rcases List.mem_cons.1 hx with rfl | hx
  · exact .inl rfl
  · rw [List.mem_singleton.1 hx]
    exact .inr rfl

variable [LinearOrder τ]

/-- The events in the order in which they are swept over. -/
def sorted (xs : List (τ × τ)) : List (Change τ) := (events xs).insertionSort (· ≤ ·)

theorem pairwise_sorted (xs : List (τ × τ)) : (sorted xs).Pairwise (· ≤ ·) :=
  List.pairwise_insertionSort _ _

/-- In the end nothing is in flight. -/
theorem total_sorted (xs : List (τ × τ)) : total (sorted xs) = 0 := by
  rw [sorted, total_perm (List.perm_insertionSort _ _)]
  induction xs with
  | nil => rfl
  | cons x xs ih =>
      rw [events_cons, total_cons, total_cons, ih]
      rfl

/-! ## Intervals that hold an instant -/

/-- How many intervals hold `t`, where an interval does not hold its end. -/
def inFlight (t : τ) (xs : List (τ × τ)) : ℕ := xs.countP fun x => x.1 ≤ t ∧ t < x.2

/-- How many intervals start before `t` and end after it. -/
def spanning (t : τ) (xs : List (τ × τ)) : ℕ := xs.countP fun x => x.1 < t ∧ t < x.2

/-- How many intervals start and end at `t`. -/
def momentary (t : τ) (xs : List (τ × τ)) : ℕ := xs.countP fun x => x.1 = t ∧ x.2 = t

theorem inFlight_cons (t : τ) (x : τ × τ) (xs : List (τ × τ)) :
    inFlight t (x :: xs) = inFlight t xs + if x.1 ≤ t ∧ t < x.2 then 1 else 0 := by
  simp [inFlight, List.countP_cons]

theorem spanning_cons (t : τ) (x : τ × τ) (xs : List (τ × τ)) :
    spanning t (x :: xs) = spanning t xs + if x.1 < t ∧ t < x.2 then 1 else 0 := by
  simp [spanning, List.countP_cons]

theorem momentary_cons (t : τ) (x : τ × τ) (xs : List (τ × τ)) :
    momentary t (x :: xs) = momentary t xs + if x.1 = t ∧ x.2 = t then 1 else 0 := by
  simp [momentary, List.countP_cons]

/-! ## The count up to a point -/

/-- The count after the events up to `x`. -/
def upTo (x : Change τ) (es : List (Change τ)) : ℤ := total (es.filter (· ≤ x))

theorem upTo_perm {es fs : List (Change τ)} (h : es.Perm fs) (x : Change τ) : upTo x es = upTo x fs :=
  total_perm (h.filter _)

theorem upTo_sorted (x : Change τ) (xs : List (τ × τ)) : upTo x (sorted xs) = upTo x (events xs) :=
  upTo_perm (List.perm_insertionSort _ _) x

theorem upTo_cons (x e : Change τ) (es : List (Change τ)) :
    upTo x (e :: es) = (if e ≤ x then (ofLex e).2 else 0) + upTo x es := by
  unfold upTo
  by_cases h : e ≤ x
  · simp [h]
  · simp [h]

/-- After everything that happens at `t`, the count is that of the intervals in flight. -/
theorem upTo_start {xs : List (τ × τ)} (h : ∀ x ∈ xs, x.1 ≤ x.2) (t : τ) :
    upTo (toLex (t, 1)) (events xs) = inFlight t xs := by
  induction xs with
  | nil => rfl
  | cons x xs ih =>
      have hx := h x List.mem_cons_self
      have hrest := ih fun y hy => h y (List.mem_cons_of_mem _ hy)
      have hstart : (toLex (x.1, (1 : ℤ)) ≤ toLex (t, 1)) ↔ x.1 ≤ t := by
        rw [Prod.Lex.toLex_le_toLex]
        simp [le_iff_lt_or_eq]
      have hend : (toLex (x.2, (-1 : ℤ)) ≤ toLex (t, 1)) ↔ x.2 ≤ t := by
        rw [Prod.Lex.toLex_le_toLex]
        simp [le_iff_lt_or_eq]
      rw [events_cons, upTo_cons, upTo_cons, hrest, inFlight_cons]
      simp only [hstart, hend, ofLex_toLex]
      by_cases hs : x.1 ≤ t
      · by_cases he : x.2 ≤ t
        · simp [hs, he, not_lt.2 he]
        · simp [hs, he, not_le.1 he, add_comm]
      · have he : ¬x.2 ≤ t := fun he => hs (hx.trans he)
        simp [hs, he]

/-- After the ends at `t` and before the starts. -/
theorem upTo_end {xs : List (τ × τ)} (h : ∀ x ∈ xs, x.1 ≤ x.2) (t : τ) :
    upTo (toLex (t, -1)) (events xs) = (spanning t xs : ℤ) - momentary t xs := by
  induction xs with
  | nil => rfl
  | cons x xs ih =>
      have hx := h x List.mem_cons_self
      have hrest := ih fun y hy => h y (List.mem_cons_of_mem _ hy)
      have hstart : (toLex (x.1, (1 : ℤ)) ≤ toLex (t, -1)) ↔ x.1 < t := by
        rw [Prod.Lex.toLex_le_toLex]
        simp
      have hend : (toLex (x.2, (-1 : ℤ)) ≤ toLex (t, -1)) ↔ x.2 ≤ t := by
        rw [Prod.Lex.toLex_le_toLex]
        simp [le_iff_lt_or_eq]
      rw [events_cons, upTo_cons, upTo_cons, hrest, spanning_cons, momentary_cons]
      simp only [hstart, hend, ofLex_toLex]
      rcases lt_trichotomy x.1 t with hs | hs | hs
      · by_cases he : x.2 ≤ t
        · simp [hs, hs.ne, he, not_lt.2 he]
        · simp [hs, hs.ne, he, not_le.1 he]
          omega
      · by_cases he : x.2 ≤ t
        · have heq : x.2 = t := le_antisymm he (hs ▸ hx)
          simp [hs, heq]
          omega
        · have hne : x.2 ≠ t := fun heq => he heq.le
          simp [hs, he, hne]
      · have he : t < x.2 := hs.trans_le hx
        simp [hs.not_gt, hs.ne', not_le.2 he]

/-! ## The running count -/

/-- In a sorted list the events up to a point are the first ones. -/
theorem filter_le_isInitial {es : List (Change τ)} (h : es.Pairwise (· ≤ ·)) (x : Change τ) :
    es.filter (· ≤ x) <+: es := by
  induction es with
  | nil => exact List.prefix_rfl
  | cons e es ih =>
      rw [List.pairwise_cons] at h
      by_cases he : e ≤ x
      · rw [List.filter_cons_of_pos (by simpa using he)]
        exact (List.prefix_cons_inj e).2 (ih h.2)
      · have hnone : es.filter (· ≤ x) = [] := by
          rw [List.filter_eq_nil_iff]
          intro f hf hle
          exact he ((h.1 f hf).trans (by simpa using hle))
        rw [List.filter_cons_of_neg (by simpa using he), hnone]
        exact List.nil_prefix

/-- What a first part of a sorted list that ends with `x` lacks of the events up to `x` is
more of the same. -/
theorem upTo_last {p es : List (Change τ)} {x : Change τ} (h : es.Pairwise (· ≤ ·))
    (hp : p ++ [x] <+: es) : ∃ n : ℕ, upTo x es = total (p ++ [x]) + n * (ofLex x).2 := by
  obtain ⟨rest, rfl⟩ := hp
  obtain ⟨hfirst, hrest, hcross⟩ := List.pairwise_append.1 h
  have hle : ∀ e ∈ p ++ [x], e ≤ x := by
    intro e he
    rcases List.mem_append.1 he with he | he
    · exact (List.pairwise_append.1 hfirst).2.2 e he x List.mem_cons_self
    · exact (List.mem_singleton.1 he).le
  have hsame : ∀ e ∈ rest.filter (· ≤ x), e = x := by
    intro e he
    obtain ⟨hmem, hex⟩ := List.mem_filter.1 he
    exact le_antisymm (by simpa using hex) (hcross x (by simp) e hmem)
  refine ⟨(rest.filter (· ≤ x)).length, ?_⟩
  rw [upTo, List.filter_append, total_append, List.filter_eq_self.2 fun e he => by simpa using hle e he]
  rw [List.eq_replicate_of_mem hsame]
  simp [total]

/-- **What the running count checks.** -/
theorem within_iff {xs : List (τ × τ)} (h : ∀ x ∈ xs, x.1 ≤ x.2) (c : ℕ) :
    Within c (sorted xs) ↔ (∀ t, inFlight t xs ≤ c) ∧ ∀ t, momentary t xs ≤ spanning t xs := by
  have hsorted := pairwise_sorted xs
  constructor
  · intro hw
    have hup : ∀ x : Change τ, 0 ≤ upTo x (events xs) ∧ upTo x (events xs) ≤ c := by
      intro x
      rw [← upTo_sorted]
      by_cases hnil : (sorted xs).filter (· ≤ x) = []
      · rw [upTo, hnil]
        exact ⟨le_rfl, Int.natCast_nonneg c⟩
      · exact hw _ (filter_le_isInitial hsorted x) hnil
    refine ⟨fun t => ?_, fun t => ?_⟩
    · have := (hup (toLex (t, 1))).2
      rw [upTo_start h] at this
      exact_mod_cast this
    · have := (hup (toLex (t, -1))).1
      rw [upTo_end h] at this
      omega
  · rintro ⟨hflight, hmomentary⟩ p hp hne
    clear hne
    -- one event after the other: a start cannot take the count below zero, an end not above `c`
    induction p using List.reverseRecOn with
    | nil => exact ⟨le_rfl, Int.natCast_nonneg c⟩
    | append_singleton p x ih =>
        have hprev := ih ((List.prefix_append p [x]).trans hp)
        have hmem : x ∈ events xs :=
          (List.perm_insertionSort _ _).subset (hp.subset (by simp))
        obtain ⟨n, hn⟩ := upTo_last hsorted hp
        rw [upTo_sorted] at hn
        rw [total_append, total_cons, total_nil] at hn ⊢
        rcases change_eq hmem with hx | hx
        · have hstart := upTo_start h (ofLex x).1
          have hxeq : toLex ((ofLex x).1, 1) = x := by rw [← hx]; rfl
          have hbound := hflight (ofLex x).1
          rw [hxeq] at hstart
          rw [hx] at hn ⊢
          omega
        · have hend := upTo_end h (ofLex x).1
          have hxeq : toLex ((ofLex x).1, -1) = x := by rw [← hx]; rfl
          have hbound := hmomentary (ofLex x).1
          rw [hxeq] at hend
          rw [hx] at hn ⊢
          omega

end Interval
