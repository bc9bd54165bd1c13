import Mathlib.Data.List.Infix

/-!
# Readers that are called until they fail

A reader is called with a state and answers with a value or an error, or with nothing while
it still waits, and with the next state.

* `drain` — calling a reader up to a number of times, as long as it returns values.
* `Refines` — what one call of a reader has to do with one call of another; where an
  error is `Soft`, nothing was read and the call may be made again.
* `Refines.drain_values`, `Refines.drain_stop` — the two then return the same values and
  fail at the same call.
* `drain_waits`, `drain_total` — a reader that is drained to its end, unless it waits.
-/

namespace Process

/-- One call; nothing is returned while the reader waits. -/
abbrev Reader (σ α ε : Type) : Type := σ → Option (Except ε α) × σ

/-- What the calls returned, the error that ended them, and where they ended. -/
structure Drained (σ α ε : Type) where
  values : List α
  stop : Option ε
  state : σ

section
variable {σ τ α ε ε' : Type}

def Drained.cons (v : α) (d : Drained σ α ε) : Drained σ α ε := { d with values := v :: d.values }

@[simp] theorem Drained.values_cons (v : α) (d : Drained σ α ε) :
    (d.cons v).values = v :: d.values := rfl

@[simp] theorem Drained.stop_cons (v : α) (d : Drained σ α ε) : (d.cons v).stop = d.stop := rfl

@[simp] theorem Drained.state_cons (v : α) (d : Drained σ α ε) : (d.cons v).state = d.state := rfl

/-- At most so many calls, up to the first that fails or waits. -/
def drain (read : Reader σ α ε) : ℕ → σ → Drained σ α ε
  | 0, s => ⟨[], none, s⟩
  | k + 1, s => match read s with
    | (none, s') => ⟨[], none, s'⟩
    | (some (.error e), s') => ⟨[], some e, s'⟩
    | (some (.ok v), s') => (drain read k s').cons v

variable {read : Reader σ α ε} {s s' : σ}

theorem drain_zero (read : Reader σ α ε) (s : σ) : drain read 0 s = ⟨[], none, s⟩ := rfl

theorem drain_of_none (h : read s = (none, s')) (k : ℕ) :
    drain read (k + 1) s = ⟨[], none, s'⟩ := by
  rw [drain, h]

theorem drain_of_error {e : ε} (h : read s = (some (.error e), s')) (k : ℕ) :
    drain read (k + 1) s = ⟨[], some e, s'⟩ := by
  rw [drain, h]

theorem drain_of_ok {v : α} (h : read s = (some (.ok v), s')) (k : ℕ) :
    drain read (k + 1) s = (drain read k s').cons v := by
  rw [drain, h]

variable (read) in
theorem length_drain_le (k : ℕ) (s : σ) : (drain read k s).values.length ≤ k := by
  induction k generalizing s with
  | zero => exact Nat.le_refl 0
  | succ k ih =>
      match h : read s with
      | (none, s') => rw [drain_of_none h]; exact Nat.zero_le _
      | (some (.error e), s') => rw [drain_of_error h]; exact Nat.zero_le _
      | (some (.ok v), s') =>
          rw [drain_of_ok h]
          exact Nat.succ_le_succ (ih s')

/-- The call that fails is one of those that were asked for. -/
theorem length_drain_lt {k : ℕ} {e : ε} (h : (drain read k s).stop = some e) :
    (drain read k s).values.length < k := by
  induction k generalizing s with
  | zero => cases h
  | succ k ih =>
      match hread : read s with
      | (none, s') => rw [drain_of_none hread]; exact Nat.succ_pos k
      | (some (.error e), s') => rw [drain_of_error hread]; exact Nat.succ_pos k
      | (some (.ok v), s') =>
          rw [drain_of_ok hread] at h ⊢
          exact Nat.succ_lt_succ (ih h)

variable (read) in
/-- **Fewer calls than were asked for** return values where the reader fails, or where it waits
in a state of which `W` holds. -/
theorem drain_waits {W : σ → Prop} (hread : ∀ s s', read s = (none, s') → W s') {k : ℕ}
    (hstop : (drain read k s).stop = none) (hk : (drain read k s).values.length < k) :
    W (drain read k s).state := by
  induction k generalizing s with
  | zero => exact absurd hk (Nat.not_lt_zero _)
  | succ k ih =>
      match h : read s with
      | (none, s') =>
          rw [drain_of_none h]
          exact hread s s' h
      | (some (.error e), s') =>
          rw [drain_of_error h] at hstop
          exact absurd hstop (Option.some_ne_none e)
      | (some (.ok v), s') =>
          rw [drain_of_ok h] at hstop hk ⊢
          exact ih hstop (Nat.lt_of_succ_lt_succ hk)

/-- A reader fails with errors of a certain kind only, where `I` holds and is kept. -/
theorem drain_errors {I : σ → Prop} {H : ε → Prop}
    (hok : ∀ s v s', I s → read s = (some (.ok v), s') → I s')
    (herror : ∀ s e s', I s → read s = (some (.error e), s') → H e)
    {k : ℕ} {e : ε} (hs : I s) (hstop : (drain read k s).stop = some e) : H e := by
  induction k generalizing s with
  | zero => cases hstop
  | succ k ih =>
      match h : read s with
      | (none, s') =>
          rw [drain_of_none h] at hstop
          cases hstop
      | (some (.error d), s') =>
          rw [drain_of_error h] at hstop
          cases hstop
          exact herror s e s' hs h
      | (some (.ok v), s') =>
          rw [drain_of_ok h] at hstop
          exact ih (hok s v s' hs h) hstop

/-- **A reader that never waits** where `I` holds, and keeps it, is called as often as asked
unless it fails; and it fails with errors of a certain kind only. -/
theorem drain_total {I : σ → Prop} {Hard : ε → Prop}
    (hread : ∀ s, I s → (∃ v s', read s = (some (.ok v), s') ∧ I s') ∨
      ∃ e s', read s = (some (.error e), s') ∧ Hard e)
    (k : ℕ) (hs : I s) :
    ((drain read k s).stop = none ∧ (drain read k s).values.length = k) ∨
      ∃ e, (drain read k s).stop = some e ∧ Hard e := by
  induction k generalizing s with
  | zero => exact .inl ⟨rfl, rfl⟩
  | succ k ih =>
      rcases hread s hs with ⟨v, s', h, hs'⟩ | ⟨e, s', h, he⟩
      · rw [drain_of_ok h, Drained.stop_cons, Drained.values_cons, List.length_cons]
        rcases ih hs' with ⟨hstop, hlength⟩ | hstop
        · left
          exact ⟨hstop, by omega⟩
        · right
          exact hstop
      · right
        rw [drain_of_error h]
        exact ⟨e, rfl, he⟩

/-- Every call of `read` is a call of `read'` in a state that stands for its own: it returns
the same value, or fails where that fails.  What waits, or fails with a soft error, leaves the
state to be read again. -/
structure Refines (A : σ → τ → Prop) (Soft : ε → Prop) (same : ε → ε' → Prop)
    (read : Reader σ α ε) (read' : Reader τ α ε') : Prop where
  wait : ∀ s t s', A s t → read s = (none, s') → A s' t
  ok : ∀ s t v s', A s t → read s = (some (.ok v), s') →
    ∃ t', read' t = (some (.ok v), t') ∧ A s' t'
  soft : ∀ s t e s', A s t → read s = (some (.error e), s') → Soft e → A s' t
  hard : ∀ s t e s', A s t → read s = (some (.error e), s') → ¬Soft e →
    ∃ e' t', read' t = (some (.error e'), t') ∧ same e e'

variable {A : σ → τ → Prop} {Soft : ε → Prop} {same : ε → ε' → Prop} {read' : Reader τ α ε'}

/-- **The values that a reader returns are the first values of the one it refines.** -/
theorem Refines.drain_values (hr : Refines A Soft same read read') (k : ℕ) {t : τ} (hA : A s t)
    (hstop : ∀ e, (drain read k s).stop = some e → Soft e) :
    ∃ t', drain read' (drain read k s).values.length t = ⟨(drain read k s).values, none, t'⟩ ∧
      A (drain read k s).state t' := by
  induction k generalizing s t with
  | zero => exact ⟨t, rfl, hA⟩
  | succ k ih =>
      match h : read s with
      | (none, s') =>
          rw [drain_of_none h]
          exact ⟨t, rfl, hr.wait s t s' hA h⟩
      | (some (.error e), s') =>
          rw [drain_of_error h] at hstop ⊢
          exact ⟨t, rfl, hr.soft s t e s' hA h (hstop e rfl)⟩
      | (some (.ok v), s') =>
          obtain ⟨t', ht', hA'⟩ := hr.ok s t v s' hA h
          rw [drain_of_ok h] at hstop ⊢
          obtain ⟨t'', ht'', hA''⟩ := ih hA' hstop
          refine ⟨t'', ?_, hA''⟩
          rw [Drained.values_cons, List.length_cons, drain_of_ok ht', ht'']
          rfl

/-- **The two readers fail at the same call.** -/
theorem Refines.drain_stop (hr : Refines A Soft same read read') (k : ℕ) {t : τ} (hA : A s t)
    {e : ε} (hstop : (drain read k s).stop = some e) (he : ¬Soft e) :
    ∃ e' t', drain read' ((drain read k s).values.length + 1) t =
      ⟨(drain read k s).values, some e', t'⟩ ∧ same e e' := by
  induction k generalizing s t with
  | zero =>
      rw [drain_zero] at hstop
      exact absurd hstop (Option.some_ne_none e).symm
  | succ k ih =>
      match h : read s with
      | (none, s') =>
          rw [drain_of_none h] at hstop
          exact absurd hstop (Option.some_ne_none e).symm
      | (some (.error d), s') =>
          rw [drain_of_error h] at hstop ⊢
          cases hstop
          obtain ⟨e', t', ht', hsame⟩ := hr.hard s t e s' hA h he
          exact ⟨e', t', drain_of_error ht' 0, hsame⟩
      | (some (.ok v), s') =>
          obtain ⟨t', ht', hA'⟩ := hr.ok s t v s' hA h
          rw [drain_of_ok h] at hstop ⊢
          obtain ⟨e', t'', ht'', hsame⟩ := ih hA' hstop
          refine ⟨e', t'', ?_, hsame⟩
          rw [Drained.values_cons, List.length_cons, drain_of_ok ht', ht'']
          rfl

variable (read) in
/-- A reader that has failed is not called again. -/
theorem drain_of_stop {m k : ℕ} (hmk : m ≤ k) (hm : (drain read m s).stop ≠ none) :
    drain read k s = drain read m s := by
  induction m generalizing k s with
  | zero => exact absurd rfl hm
  | succ m ih =>
      obtain ⟨k, rfl⟩ : ∃ k', k = k' + 1 := ⟨k - 1, by omega⟩
      match h : read s with
      | (none, s') => rw [drain_of_none h, drain_of_none h]
      | (some (.error e), s') => rw [drain_of_error h, drain_of_error h]
      | (some (.ok v), s') =>
          rw [drain_of_ok h] at hm
          rw [drain_of_ok h, drain_of_ok h, ih (by omega) hm]

variable (read) in
/-- More calls return the same values first. -/
theorem drain_isPrefix {m k : ℕ} (hmk : m ≤ k) (s : σ) :
    (drain read m s).values <+: (drain read k s).values := by
  induction m generalizing k s with
  | zero => exact List.nil_prefix
  | succ m ih =>
      obtain ⟨k, rfl⟩ : ∃ k', k = k' + 1 := ⟨k - 1, by omega⟩
      match h : read s with
      | (none, s') => rw [drain_of_none h, drain_of_none h]
      | (some (.error e), s') => rw [drain_of_error h, drain_of_error h]
      | (some (.ok v), s') =>
          rw [drain_of_ok h, drain_of_ok h]
          exact List.cons_prefix_cons.2 ⟨rfl, ih (by omega) s'⟩

end

end Process
