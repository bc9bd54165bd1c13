import Mathlib.Data.List.DropRight

/-!
# Files of terminated entries

An append-only file is a list of symbols in which a separator ends every entry.  An
append that was cut short leaves symbols after the last separator; they belong to no
entry.

* `complete`, `tail` — a file up to its last separator, and what follows it.
* `entries` — what the separators end.
* `complete_append`, `tail_append` — symbols without a separator only make the tail
  longer.
* `entries_concat` — a separator turns the tail into one more entry.
-/

namespace Store.Lines

variable {β : Type} [DecidableEq β] (sep : β)

/-- The file up to its last separator. -/
def complete (d : List β) : List β := d.rdropWhile fun b => b ≠ sep

/-- What follows the last separator. -/
def tail (d : List β) : List β := d.rtakeWhile fun b => b ≠ sep

/-- The entries the separators end. -/
def entries (d : List β) : List (List β) := ((complete sep d).splitOn sep).dropLast

variable {sep} {d xs : List β}

theorem complete_append_tail (sep : β) (d : List β) : complete sep d ++ tail sep d = d := by
  rw [complete, tail, List.rdropWhile, List.rtakeWhile, ← List.reverse_append,
    List.takeWhile_append_dropWhile, List.reverse_reverse]

theorem not_mem_tail (d : List β) : sep ∉ tail sep d := by
  intro h
  simpa using List.mem_rtakeWhile_imp h

/-- Symbols without a separator complete nothing. -/
theorem complete_append (h : sep ∉ xs) : complete sep (d ++ xs) = complete sep d := by
  induction xs using List.reverseRecOn with
  | nil => rw [List.append_nil]
  | append_singleton xs x ih =>
      rw [List.mem_append, not_or, List.mem_singleton] at h
      rw [← List.append_assoc, complete, List.rdropWhile_concat, if_pos (by simpa using Ne.symm h.2)]
      exact ih h.1

theorem tail_append (h : sep ∉ xs) : tail sep (d ++ xs) = tail sep d ++ xs := by
  induction xs using List.reverseRecOn with
  | nil => rw [List.append_nil, List.append_nil]
  | append_singleton xs x ih =>
      rw [List.mem_append, not_or, List.mem_singleton] at h
      rw [← List.append_assoc, tail, List.rtakeWhile_concat, if_pos (by simpa using Ne.symm h.2),
        ← List.append_assoc]
      exact congrArg (· ++ [x]) (ih h.1)

/-- A separator completes everything before it. -/
theorem complete_concat (d : List β) : complete sep (d ++ [sep]) = d ++ [sep] :=
  List.rdropWhile_concat_neg _ _ _ (by simp)

theorem tail_concat (d : List β) : tail sep (d ++ [sep]) = [] :=
  List.rtakeWhile_concat_neg _ _ _ (by simp)

@[simp] theorem complete_complete (d : List β) : complete sep (complete sep d) = complete sep d :=
  List.rdropWhile_idempotent _ _

@[simp] theorem tail_complete (d : List β) : tail sep (complete sep d) = [] := by
  have h := complete_append_tail sep (complete sep d)
  rw [complete_complete] at h
  exact List.append_right_eq_self.1 h

theorem complete_of_tail (h : tail sep d = []) : complete sep d = d := by
  have hd := complete_append_tail sep d
  rwa [h, List.append_nil] at hd

/-- A file that is complete is empty or ends with a separator. -/
theorem complete_eq_nil_or (sep : β) (d : List β) : complete sep d = [] ∨ ∃ e, complete sep d = e ++ [sep] := by
  rcases List.eq_nil_or_concat (complete sep d) with h | ⟨e, x, h⟩
  · exact .inl h
  · have hself := List.rdropWhile_eq_self_iff.1 (List.rdropWhile_idempotent (fun b => b ≠ sep) d)
    rw [← complete, h] at hself
    have hx : x = sep := by simpa using hself (by simp)
    exact .inr ⟨e, by rw [h, hx, List.concat_eq_append]⟩

@[simp] theorem entries_complete (d : List β) : entries sep (complete sep d) = entries sep d := by
  rw [entries, complete_complete, entries]

theorem take_complete (d : List β) : d.take (complete sep d).length = complete sep d := by
  have hd := complete_append_tail sep d
  calc d.take (complete sep d).length
      = (complete sep d ++ tail sep d).take (complete sep d).length := by rw [hd]
    _ = complete sep d := List.take_left' rfl

theorem entries_append (h : sep ∉ xs) : entries sep (d ++ xs) = entries sep d := by
  rw [entries, complete_append h, entries]

/-- **A separator turns the tail into one more entry.** -/
theorem entries_concat (d : List β) : entries sep (d ++ [sep]) = entries sep d ++ [tail sep d] := by
  have hsplit : d.splitOn sep = entries sep d ++ [tail sep d] := by
    have hd := complete_append_tail sep d
    rcases complete_eq_nil_or sep d with h | ⟨e, h⟩
    · rw [h, List.nil_append] at hd
      have hnot : sep ∉ d := by
        rw [← hd]
        exact not_mem_tail d
      rw [entries, h, hd, List.splitOn_eq_singleton hnot, List.splitOn_nil]
      rfl
    · rw [entries, h]
      rw [h] at hd
      rw [List.splitOn_append_cons_self, List.splitOn_nil, List.dropLast_concat]
      conv_lhs => rw [← hd, List.append_assoc, List.singleton_append, List.splitOn_append_cons_self,
        List.splitOn_eq_singleton (not_mem_tail d)]
  rw [entries, complete_concat, List.splitOn_append_cons_self, List.splitOn_nil, List.dropLast_concat,
    hsplit]

/-- The file that consists of the given entries. -/
def file (sep : β) (es : List (List β)) : List β := es.flatMap fun e => e ++ [sep]

omit [DecidableEq β] in
theorem file_concat (es : List (List β)) (e : List β) :
    file sep (es ++ [e]) = file sep es ++ e ++ [sep] := by
  rw [file, List.flatMap_append, List.flatMap_singleton, List.append_assoc, file]

/-- **A complete file consists of its entries.** -/
theorem file_entries (d : List β) : file sep (entries sep d) = complete sep d := by
  induction d using List.reverseRecOn with
  | nil => rfl
  | append_singleton d x ih =>
      by_cases hx : x = sep
      · subst hx
        rw [entries_concat, file_concat, ih, complete_append_tail, complete_concat]
      · have hx' : sep ∉ [x] := by simpa using Ne.symm hx
        rw [entries_append hx', complete_append hx', ih]

/-- The entries of a file are the ones it consists of. -/
theorem entries_file {es : List (List β)} (h : ∀ e ∈ es, sep ∉ e) :
    entries sep (file sep es) = es ∧ tail sep (file sep es) = [] := by
  induction es using List.reverseRecOn with
  | nil => exact ⟨rfl, rfl⟩
  | append_singleton es e ih =>
      obtain ⟨hes, htail⟩ := ih fun e' he' => h e' (List.mem_append_left _ he')
      have he : sep ∉ e := h e (List.mem_append_right _ (List.mem_singleton_self e))
      rw [file_concat]
      refine ⟨?_, tail_concat _⟩
      rw [entries_concat, entries_append he, tail_append he, hes, htail, List.nil_append]

end Store.Lines
