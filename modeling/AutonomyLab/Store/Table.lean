import Mathlib.Data.List.Nodup
import Mathlib.Data.List.Perm.Subperm
import Mathlib.Data.Nat.Notation

/-!
# Tables with a primary key

`Table κ ρ` is a table of rows `ρ` under keys `κ`, in the order of insertion.  That
no key occurs twice is part of the type, so two rows of one key cannot be built.

* `find?`, `insert`, `update` — selection by key, insertion that fails on a key in
  use, and an update of the row of one key.
* `find?_insert`, `find?_update` — what is found afterwards.
* `count_le_count` — a count is compared key by key, so that a bound on a count can be
  carried from one table to the next.
-/

namespace Store

/-- Rows under keys, no key twice. -/
structure Table (κ ρ : Type) where
  rows : List (κ × ρ)
  /-- The primary key. -/
  nodup : (rows.map Prod.fst).Nodup

namespace Table

variable {κ ρ : Type} [DecidableEq κ]

instance : EmptyCollection (Table κ ρ) := ⟨⟨[], List.nodup_nil⟩⟩

/-- The row of a key. -/
def find? (k : κ) (t : Table κ ρ) : Option ρ := t.rows.lookup k

/-- The number of rows with `p`. -/
def count (p : κ → ρ → Bool) (t : Table κ ρ) : ℕ := t.rows.countP fun row => p row.1 row.2

theorem find?_eq_none {k : κ} {t : Table κ ρ} : t.find? k = none ↔ k ∉ t.rows.map Prod.fst := by
  rw [find?, List.lookup_eq_none_iff]
  simp only [bne_iff_ne, List.mem_map, not_exists, not_and]
  exact ⟨fun h p hp hk => h p hp hk.symm, fun h p hp hk => h p hp hk.symm⟩

theorem find?_eq_some {k : κ} {r : ρ} {t : Table κ ρ} : t.find? k = some r ↔ (k, r) ∈ t.rows := by
  obtain ⟨rows, hn⟩ := t
  simp only [find?]
  induction rows with
  | nil => simp
  | cons p rows ih =>
      obtain ⟨l, s⟩ := p
      rw [List.map_cons, List.nodup_cons] at hn
      by_cases hk : k = l
      · subst hk
        simp only [List.lookup_cons_self, Option.some.injEq, List.mem_cons, Prod.mk.injEq, true_and]
        constructor
        · exact fun h => .inl h.symm
        · rintro (rfl | hmem)
          · rfl
          · exact absurd (List.mem_map_of_mem hmem) hn.1
      · rw [List.lookup_cons, beq_false_of_ne hk, List.mem_cons, ih hn.2]
        simp [hk]

/-- Insert a row; `none` where the key is in use. -/
def insert (k : κ) (r : ρ) (t : Table κ ρ) : Option (Table κ ρ) :=
  if h : k ∈ t.rows.map Prod.fst then none
  else some ⟨t.rows ++ [(k, r)], by
    rw [List.map_append, List.map_cons, List.map_nil, List.nodup_append]
    exact ⟨t.nodup, List.nodup_singleton k, fun a ha b hb => by
      rw [List.mem_singleton.1 hb]; rintro rfl; exact h ha⟩⟩

theorem map_fst_update (k : κ) (f : ρ → ρ) (rows : List (κ × ρ)) :
    (rows.map fun p => if p.1 = k then (k, f p.2) else p).map Prod.fst = rows.map Prod.fst := by
  rw [List.map_map]
  refine List.map_congr_left fun p _ => ?_
  by_cases h : p.1 = k <;> simp [h]

/-- Change the row of one key. -/
def update (k : κ) (f : ρ → ρ) (t : Table κ ρ) : Table κ ρ :=
  ⟨t.rows.map fun p => if p.1 = k then (k, f p.2) else p, by
    rw [map_fst_update]
    exact t.nodup⟩

theorem keys_update (k : κ) (f : ρ → ρ) (t : Table κ ρ) :
    (t.update k f).rows.map Prod.fst = t.rows.map Prod.fst := map_fst_update k f t.rows

theorem insert_eq_some {k : κ} {r : ρ} {t t' : Table κ ρ} (h : t.insert k r = some t') :
    t.find? k = none ∧ t'.rows = t.rows ++ [(k, r)] := by
  unfold insert at h
  split at h
  · cases h
  · rename_i hk
    cases h
    exact ⟨find?_eq_none.2 hk, rfl⟩

theorem insert_isSome {k : κ} {r : ρ} {t : Table κ ρ} :
    (t.insert k r).isSome ↔ t.find? k = none := by
  rw [find?_eq_none, insert]
  split <;> simp_all

theorem find?_insert {k k' : κ} {r : ρ} {t t' : Table κ ρ} (h : t.insert k r = some t') :
    t'.find? k' = if k' = k then some r else t.find? k' := by
  obtain ⟨hn, hr⟩ := insert_eq_some h
  rw [find?, hr, List.lookup_append]
  by_cases hk : k' = k
  · subst hk
    have : t.rows.lookup k' = none := hn
    rw [this, if_pos rfl, List.lookup_cons_self, Option.none_or]
  · rw [if_neg hk, List.lookup_cons, beq_false_of_ne hk, List.lookup_nil, Option.or_none, find?]

/-- A row that may be there already. -/
theorem find?_insert_getD (k k' : κ) (r : ρ) (t : Table κ ρ) :
    ((t.insert k r).getD t).find? k' = if k' = k then some ((t.find? k').getD r) else t.find? k' := by
  cases hinsert : t.insert k r with
  | some t' =>
      rw [Option.getD_some, find?_insert hinsert]
      split
      · next h => rw [h, (insert_eq_some hinsert).1, Option.getD_none]
      · rfl
  | none =>
      rw [Option.getD_none]
      split
      · next h =>
          subst h
          cases hfind : t.find? k' with
          | none =>
              have hsome := (insert_isSome (r := r)).2 hfind
              rw [hinsert] at hsome
              cases hsome
          | some r' => rw [Option.getD_some]
      · rfl

theorem find?_update (k k' : κ) (f : ρ → ρ) (t : Table κ ρ) :
    (t.update k f).find? k' = if k' = k then (t.find? k).map f else t.find? k' := by
  obtain ⟨rows, hn⟩ := t
  simp only [find?, update]
  clear hn
  induction rows with
  | nil => simp
  | cons p rows ih =>
      obtain ⟨l, s⟩ := p
      rw [List.map_cons]
      by_cases hl : l = k
      · subst hl
        rw [if_pos rfl, List.lookup_cons_self]
        by_cases hk : k' = l
        · rw [if_pos hk, hk, List.lookup_cons_self, Option.map_some]
        · rw [if_neg hk] at ih ⊢
          rw [List.lookup_cons, List.lookup_cons, beq_false_of_ne hk, ih]
      · rw [if_neg hl, List.lookup_cons, List.lookup_cons, ih]
        by_cases hk : k' = l
        · subst hk
          simp [hl]
        · rw [beq_false_of_ne hk, List.lookup_cons, beq_false_of_ne (Ne.symm hl),
            beq_false_of_ne hk]

@[simp] theorem find?_update_self (k : κ) (f : ρ → ρ) (t : Table κ ρ) :
    (t.update k f).find? k = (t.find? k).map f := by rw [find?_update, if_pos rfl]

theorem find?_update_of_ne {k k' : κ} (h : k' ≠ k) (f : ρ → ρ) (t : Table κ ρ) :
    (t.update k f).find? k' = t.find? k' := by rw [find?_update, if_neg h]

theorem mem_update {k l : κ} {r : ρ} {f : ρ → ρ} {t : Table κ ρ} (h : (l, r) ∈ (t.update k f).rows) :
    ∃ s, (l, s) ∈ t.rows ∧ r = if l = k then f s else s := by
  obtain ⟨⟨l', s⟩, hmem, heq⟩ := List.mem_map.1 h
  dsimp only at heq
  split at heq
  · rename_i hl
    cases heq
    exact ⟨s, hl ▸ hmem, (if_pos rfl).symm⟩
  · rename_i hl
    cases heq
    exact ⟨r, hmem, (if_neg hl).symm⟩

theorem length_update (k : κ) (f : ρ → ρ) (t : Table κ ρ) :
    (t.update k f).rows.length = t.rows.length := List.length_map _

/-! ## Counts -/

/-- Different keys whose rows have `p` are at most as many as the rows that have it. -/
theorem length_le_count {p : κ → ρ → Bool} {ks : List κ} {t : Table κ ρ} (hn : ks.Nodup)
    (h : ∀ k ∈ ks, ∃ r, t.find? k = some r ∧ p k r = true) : ks.length ≤ t.count p := by
  have hsub : ks ⊆ (t.rows.filter fun row => p row.1 row.2).map Prod.fst := by
    intro k hk
    obtain ⟨r, hr, hp⟩ := h k hk
    exact List.mem_map.2 ⟨(k, r), List.mem_filter.2 ⟨find?_eq_some.1 hr, hp⟩, rfl⟩
  calc ks.length ≤ ((t.rows.filter fun row => p row.1 row.2).map Prod.fst).length :=
        (List.subperm_of_subset hn hsub).length_le
    _ = t.count p := by rw [List.length_map, ← List.countP_eq_length_filter, count]

/-- A count does not grow where every row that counts afterwards counted before. -/
theorem count_le_count {p p' : κ → ρ → Bool} {t t' : Table κ ρ}
    (h : ∀ k r', t'.find? k = some r' → p' k r' = true → ∃ r, t.find? k = some r ∧ p k r = true) :
    t'.count p' ≤ t.count p := by
  have hn : ((t'.rows.filter fun row => p' row.1 row.2).map Prod.fst).Nodup :=
    t'.nodup.sublist (List.filter_sublist.map _)
  calc t'.count p' = ((t'.rows.filter fun row => p' row.1 row.2).map Prod.fst).length := by
        rw [List.length_map, ← List.countP_eq_length_filter, count]
    _ ≤ t.count p := length_le_count hn fun k hk => by
        obtain ⟨⟨k', r'⟩, hmem, rfl⟩ := List.mem_map.1 hk
        obtain ⟨hrow, hp⟩ := List.mem_filter.1 hmem
        exact h k' r' (find?_eq_some.2 hrow) hp

theorem count_insert {p : κ → ρ → Bool} {k : κ} {r : ρ} {t t' : Table κ ρ}
    (h : t.insert k r = some t') : t'.count p = t.count p + if p k r then 1 else 0 := by
  rw [count, (insert_eq_some h).2, List.countP_append, List.countP_singleton, count]

/-- An update moves one row at most from one side of a count to the other. -/
theorem count_update {p : κ → ρ → Bool} {k : κ} {r : ρ} {f : ρ → ρ} {t : Table κ ρ}
    (h : t.find? k = some r) :
    (t.update k f).count p + (if p k r then 1 else 0) = t.count p + if p k (f r) then 1 else 0 := by
  obtain ⟨rows, hn⟩ := t
  simp only [find?, count, update] at h ⊢
  induction rows with
  | nil => cases h
  | cons row rows ih =>
      obtain ⟨l, s⟩ := row
      rw [List.map_cons, List.nodup_cons] at hn
      rw [List.map_cons, List.countP_cons, List.countP_cons]
      by_cases hk : l = k
      · subst hk
        rw [List.lookup_cons_self, Option.some.injEq] at h
        subst h
        have hrest : rows.map (fun q => if q.1 = l then (l, f q.2) else q) = rows := by
          refine (List.map_congr_left fun q hq => if_neg ?_).trans (List.map_id _)
          intro hq'
          exact hn.1 (List.mem_map.2 ⟨q, hq, hq'⟩)
        rw [hrest, if_pos rfl]
        dsimp only
        omega
      · rw [List.lookup_cons, beq_false_of_ne (Ne.symm hk)] at h
        rw [if_neg hk]
        have := ih hn.2 h
        dsimp only at this ⊢
        omega

end Table

end Store
