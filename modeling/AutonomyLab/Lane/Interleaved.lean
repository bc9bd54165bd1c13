import Mathlib.Data.List.AList

/-!
# Machines that run side by side

A table holds a machine for each key, and each input goes to the machine of its key, which is
set up at its first input.  However the inputs of the keys are interleaved, a machine goes
through the states it goes through alone.

* `serveAt`, `seen` — an input to the table, and the states that a list of inputs is served in.
* `lane` — the states that the inputs of one machine are served in.
* `seen_at`, `lookup_serveAll` — **what one key sees of a run**, and is left with.
* `lane_infix`, `mem_lane` — a part of a lane is a lane, from a state that is reached.
-/

namespace Lane

variable {κ σ ι : Type} [DecidableEq κ]

abbrev Table (κ σ : Type) := AList fun _ : κ => σ

/-- The machine of a key. -/
def stateAt (start : σ) (table : Table κ σ) (key : κ) : σ := (table.lookup key).getD start

@[simp] theorem stateAt_insert (start s : σ) (table : Table κ σ) (key : κ) :
    stateAt start (table.insert key s) key = s := by simp [stateAt]

theorem stateAt_insert_ne {start s : σ} {table : Table κ σ} {key key' : κ} (h : key ≠ key') :
    stateAt start (table.insert key' s) key = stateAt start table key := by
  rw [stateAt, stateAt, AList.lookup_insert_ne h]

@[simp] theorem stateAt_empty (start : σ) (key : κ) : stateAt start (∅ : Table κ σ) key = start := rfl

section
variable (start : σ) (serve : σ → ι → σ)

/-- An input to the machine of its key. -/
def serveAt (table : Table κ σ) (input : κ × ι) : Table κ σ :=
  table.insert input.1 (serve (stateAt start table input.1) input.2)

/-- The states that the inputs are served in. -/
def seen (table : Table κ σ) : List (κ × ι) → List (κ × σ)
  | [] => []
  | input :: inputs =>
      (input.1, stateAt start table input.1) :: seen (serveAt start serve table input) inputs

/-- The table after the inputs. -/
def serveAll (table : Table κ σ) (inputs : List (κ × ι)) : Table κ σ :=
  inputs.foldl (serveAt start serve) table

end

/-- The states that the inputs of one machine are served in. -/
def lane (serve : σ → ι → σ) (s : σ) : List ι → List σ
  | [] => []
  | x :: xs => s :: lane serve (serve s x) xs

/-- The inputs of one key. -/
def inputsAt (key : κ) (inputs : List (κ × ι)) : List ι :=
  (inputs.filter fun input => input.1 = key).map Prod.snd

variable {start : σ} {serve : σ → ι → σ}

@[simp] theorem inputsAt_nil (key : κ) : inputsAt key ([] : List (κ × ι)) = [] := rfl

theorem inputsAt_cons (key : κ) (input : κ × ι) (inputs : List (κ × ι)) :
    inputsAt key (input :: inputs) =
      if input.1 = key then input.2 :: inputsAt key inputs else inputsAt key inputs := by
  unfold inputsAt
  by_cases h : input.1 = key <;> simp [h]

theorem inputsAt_filter (key : κ) (inputs : List (κ × ι)) :
    inputsAt key (inputs.filter fun input => input.1 = key) = inputsAt key inputs := by
  rw [inputsAt, inputsAt, List.filter_filter]
  simp

/-- **What one key sees of a run** is the lane of its own inputs. -/
theorem seen_at (key : κ) (table : Table κ σ) (inputs : List (κ × ι)) :
    ((seen start serve table inputs).filter fun p => p.1 = key).map Prod.snd =
      lane serve (stateAt start table key) (inputsAt key inputs) := by
  induction inputs generalizing table with
  | nil => rfl
  | cons input inputs ih =>
      rw [seen, inputsAt_cons, List.filter_cons]
      by_cases h : input.1 = key
      · subst h
        simp [lane, ih, serveAt]
      · have hne : key ≠ input.1 := fun h' => h h'.symm
        simp [h, ih, serveAt, stateAt_insert_ne hne]

/-- What one key is left with. -/
theorem lookup_serveAll (key : κ) (table : Table κ σ) (inputs : List (κ × ι)) :
    (serveAll start serve table inputs).lookup key =
      if inputsAt key inputs = [] then table.lookup key
      else some ((inputsAt key inputs).foldl serve (stateAt start table key)) := by
  unfold serveAll
  induction inputs generalizing table with
  | nil => rfl
  | cons input inputs ih =>
      rw [List.foldl_cons, ih, inputsAt_cons]
      by_cases h : input.1 = key
      · subst h
        by_cases hnil : inputsAt input.1 inputs = [] <;> simp [hnil, serveAt]
      · have hne : key ≠ input.1 := fun h' => h h'.symm
        simp [h, serveAt, stateAt_insert_ne hne, AList.lookup_insert_ne hne]

/-! ## One lane -/

@[simp] theorem length_lane (s : σ) (xs : List ι) : (lane serve s xs).length = xs.length := by
  induction xs generalizing s with
  | nil => rfl
  | cons x xs ih => rw [lane, List.length_cons, List.length_cons, ih]

theorem lane_append (s : σ) (xs ys : List ι) :
    lane serve s (xs ++ ys) = lane serve s xs ++ lane serve (xs.foldl serve s) ys := by
  induction xs generalizing s with
  | nil => rfl
  | cons x xs ih => rw [List.cons_append, lane, lane, ih, List.foldl_cons, List.cons_append]

/-- The state that the input of a place is served in. -/
theorem getElem_lane {s : σ} {xs : List ι} {i : ℕ} (h : i < (lane serve s xs).length) :
    (lane serve s xs)[i] = (xs.take i).foldl serve s := by
  induction xs generalizing s i with
  | nil => cases h
  | cons x xs ih =>
      cases i with
      | zero => rfl
      | succ i =>
          rw [List.take_succ_cons, List.foldl_cons, ← ih]
          rfl

/-- A part of a lane is a lane, from a state that is reached. -/
theorem lane_infix {s : σ} {xs : List ι} {part : List σ} (h : part <:+: lane serve s xs) :
    ∃ before during, before ++ during <+: xs ∧ part = lane serve (before.foldl serve s) during := by
  obtain ⟨front, back, h⟩ := h
  have hlength := congrArg List.length h
  rw [List.length_append, List.length_append, length_lane] at hlength
  refine ⟨xs.take front.length, (xs.drop front.length).take part.length, ?_, ?_⟩
  · rw [← List.take_add]
    exact List.take_prefix _ _
  · have hsplit : lane serve s xs = lane serve s (xs.take front.length) ++
        (lane serve ((xs.take front.length).foldl serve s) ((xs.drop front.length).take part.length) ++
          lane serve ((xs.take (front.length + part.length)).foldl serve s)
            (xs.drop (front.length + part.length))) := by
      rw [List.take_add, List.foldl_append, ← List.drop_drop, ← lane_append, List.take_append_drop,
        ← lane_append, List.take_append_drop]
    rw [hsplit, List.append_assoc] at h
    have hfront := (List.append_inj h (by simp; omega)).2
    exact (List.append_inj hfront (by simp; omega)).1

/-- What every input preserves holds in each state of the lane, and after it. -/
theorem lane_invariant {P : σ → Prop} (hserve : ∀ s x, P s → P (serve s x)) {s : σ} (hs : P s)
    (xs : List ι) : P (xs.foldl serve s) ∧ ∀ t ∈ lane serve s xs, P t := by
  induction xs generalizing s with
  | nil => exact ⟨hs, List.forall_mem_nil _⟩
  | cons x xs ih =>
      obtain ⟨hend, hall⟩ := ih (hserve s x hs)
      exact ⟨hend, List.forall_mem_cons.2 ⟨hs, hall⟩⟩

end Lane
