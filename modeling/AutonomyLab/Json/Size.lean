import Mathlib.Algebra.BigOperators.Group.List.Basic
import AutonomyLab.Json.Ascii

/-!
# How long a text is

* `textLength` — the length of a string as it is written, without its quotes; that of a
  `Plain` one is its own.
* `size` — the length of the text of a value; `size_obj` and `size_arr` say it of the parts,
  and do not depend on their order.
* `length_encode` — a printable text has as many bytes.
-/

namespace Json

/-- Texts with a separator between each two of them. -/
theorem length_intercalate (sep : List Char) {ts : List (List Char)} (h : ts ≠ []) :
    (sep.intercalate ts).length + sep.length = (ts.map fun t => t.length + sep.length).sum := by
  induction ts with
  | nil => exact absurd rfl h
  | cons t ts ih =>
      rw [List.map_cons, List.sum_cons]
      by_cases hts : ts = []
      · subst hts
        rw [List.intercalate_singleton, List.map_nil, List.sum_nil, Nat.add_zero]
      · rw [length_intercalate_cons ts hts, ← ih hts]
        omega

/-- The length of a string as it is written, without its quotes. -/
def textLength (s : String) : ℕ := (s.toList.flatMap escaped).length

theorem textLength_eq_sum (s : String) :
    textLength s = (s.toList.map fun c => (escaped c).length).sum := List.length_flatMap

/-- A character that is written as it is. -/
def Plain (c : Char) : Prop := 32 ≤ c.toNat ∧ c.toNat ≤ 126 ∧ c ≠ quote ∧ c ≠ backslash

instance (c : Char) : Decidable (Plain c) := by unfold Plain; infer_instance

theorem plain_of_all {cs : List Char} (h : (cs.all fun c => decide (Plain c)) = true) :
    ∀ c ∈ cs, Plain c := fun c hc => of_decide_eq_true (List.all_eq_true.1 h c hc)

theorem escaped_of_plain {c : Char} (h : Plain c) : escaped c = [c] := by
  obtain ⟨hlo, hhi, hquote, hbackslash⟩ := h
  rw [escaped, if_neg (not_or.2 ⟨hquote, hbackslash⟩)]
  split
  any_goals omega
  · exact if_pos ⟨hlo, hhi⟩

/-- A string that is written as it is. -/
theorem textLength_of_plain {s : String} (h : ∀ c ∈ s.toList, Plain c) : textLength s = s.length := by
  have hmap : s.toList.map (fun c => (escaped c).length) = s.toList.map fun _ => 1 :=
    List.map_congr_left fun c hc => by rw [escaped_of_plain (h c hc), List.length_singleton]
  rw [textLength_eq_sum, hmap, List.map_const', List.sum_replicate, Nat.nsmul_eq_mul, Nat.mul_one,
    String.length_toList]

section
variable (reprFloat : ℚ → String) (L : Layout)

/-- The length of the text of a value. -/
def size (v : Json) : ℕ := (dumps reprFloat L v).toList.length

variable {reprFloat L}

@[simp] theorem size_str (s : String) : size reprFloat L (.str s) = textLength s + 2 := by
  rw [size, dumps, toList_dumpsString, List.length_cons, List.length_append, List.length_singleton]
  rfl

@[simp] theorem size_int (n : ℤ) : size reprFloat L (.int n) = (toString n).toList.length := rfl

/-- Items, with a separator after each but the last. -/
theorem size_arr {xs : List Json} (h : xs ≠ []) : size reprFloat L (.arr xs) + L.item.toList.length =
    (xs.map fun x => size reprFloat L x + L.item.toList.length).sum + 2 := by
  have hne : (dumpsItems reprFloat L xs).map String.toList ≠ [] := by
    rw [dumpsItems_eq]
    simpa using h
  have hlength := length_intercalate L.item.toList hne
  rw [dumpsItems_eq, List.map_map, List.map_map] at hlength
  rw [size, dumps, String.toList_append, String.toList_append, String.toList_intercalate,
    List.length_append, List.length_append, dumpsItems_eq, List.map_map]
  change 1 + _ + 1 + _ = _
  rw [show (xs.map fun x => size reprFloat L x + L.item.toList.length) = xs.map
    ((fun t : List Char => t.length + L.item.toList.length) ∘ String.toList ∘ dumps reprFloat L)
      from rfl, ← hlength]
  omega

/-- Members, whatever their order. -/
theorem size_obj {fs : List (String × Json)} (h : fs ≠ []) :
    size reprFloat L (.obj fs) + L.item.toList.length = (fs.map fun p =>
      textLength p.1 + size reprFloat L p.2 + L.key.toList.length + L.item.toList.length + 2).sum + 2 := by
  have hperm : (if L.sortKeys then
      (dumpsMembers reprFloat L fs).insertionSort fun p q => p.1 ≤ q.1
      else dumpsMembers reprFloat L fs).Perm (fs.map fun p => (p.1, dumps reprFloat L p.2)) := by
    rw [← dumpsMembers_eq]
    split
    · exact List.perm_insertionSort _ _
    · exact .refl _
  rw [size, dumps, String.toList_append, String.toList_append, dumpsFields,
    String.toList_intercalate, List.length_append, List.length_append]
  generalize (if L.sortKeys then (dumpsMembers reprFloat L fs).insertionSort fun p q => p.1 ≤ q.1
    else dumpsMembers reprFloat L fs) = ms at hperm
  have hne : (ms.map fun p => dumpsString p.1 ++ L.key ++ p.2).map String.toList ≠ [] := by
    intro hnil
    rw [List.map_eq_nil_iff, List.map_eq_nil_iff] at hnil
    subst hnil
    exact h (List.map_eq_nil_iff.1 (List.nil_perm.1 hperm))
  have hlength := length_intercalate L.item.toList hne
  rw [List.map_map, List.map_map, (hperm.map _).sum_eq, List.map_map] at hlength
  have hmember : (((fun t : List Char => t.length + L.item.toList.length) ∘ String.toList ∘
      fun p : String × String => dumpsString p.1 ++ L.key ++ p.2) ∘
        fun p : String × Json => (p.1, dumps reprFloat L p.2)) = fun p =>
      textLength p.1 + size reprFloat L p.2 + L.key.toList.length + L.item.toList.length + 2 := by
    funext p
    simp only [Function.comp, String.toList_append, toList_dumpsString, List.length_append,
      List.length_cons, List.length_nil]
    change textLength p.1 + 1 + 1 + _ + size reprFloat L p.2 + _ = _
    omega
  rw [hmember] at hlength
  rw [List.map_map, ← hlength]
  change 1 + _ + 1 + _ = _
  omega

end

/-- **A printable text has as many bytes as characters.** -/
theorem length_encode {text : List Char} (h : Printable text) : (encode text).length = text.length := by
  have hmap := congrArg List.length (map_encode h)
  rwa [List.length_map] at hmap

end Json
