import Mathlib.Algebra.Order.Ring.Rat
import Mathlib.Data.String.Basic
import Mathlib.Data.List.Forall2

/-!
# JSON values and their equalities

`Json` is the type of values a JSON text denotes, with the integers kept apart
from the other numbers as a dynamic language keeps them apart.  An object is the
association list of its members in the order they were put in; the first entry
under a name is the member of that name.

Equality of objects does not depend on the order of their members, and equality
of numbers not on how they are written, so it is not equality of representations.
Both equalities in use here are equality of a normal form (`canon`), and therefore
equivalences for free:

* `Json.JsonEq` — the equality of a JSON Patch `test`: numbers are compared by
  value, and no boolean is a number.
* `Json.PyEq` — equality of the decoded Python values, where `true` equals `1` and
  `false` equals `0`.

`canonFields_ext` is the fact that makes the normal form usable: two objects are
equal exactly when they have equal members under every name.
-/

/-- A JSON value. -/
inductive Json where
  | null
  | bool (b : Bool)
  | int (n : Int)
  /-- A number written with a fraction or an exponent. -/
  | float (q : ℚ)
  | str (s : String)
  | arr (xs : List Json)
  | obj (fs : List (String × Json))
  deriving Repr, Inhabited

namespace Json

/-- Induction on a value, with the entries of arrays and objects taken together. -/
@[elab_as_elim]
theorem induct {motive : Json → Prop} (null : motive .null) (bool : ∀ b, motive (.bool b))
    (int : ∀ n, motive (.int n)) (float : ∀ q, motive (.float q)) (str : ∀ s, motive (.str s))
    (arr : ∀ xs, (∀ x ∈ xs, motive x) → motive (.arr xs))
    (obj : ∀ fs, (∀ p ∈ fs, motive p.2) → motive (.obj fs)) (v : Json) : motive v := by
  have hcons : ∀ x xs, motive x → (∀ y ∈ xs, motive y) → ∀ y ∈ x :: xs, motive y :=
    fun _ _ hx hxs => List.forall_mem_cons.2 ⟨hx, hxs⟩
  have hfields : ∀ (p : String × Json) fs, motive p.2 → (∀ q ∈ fs, motive q.2) →
      ∀ q ∈ p :: fs, motive q.2 :=
    fun _ _ hp hfs => List.forall_mem_cons.2 ⟨hp, hfs⟩
  exact @Json.rec motive (fun xs => ∀ x ∈ xs, motive x) (fun fs => ∀ p ∈ fs, motive p.2)
    (fun p => motive p.2) null bool int float str arr obj (fun _ h => nomatch h) hcons
    (fun _ h => nomatch h) hfields (fun _ _ hv => hv) v

/-! ## Decidable equality of representations -/

mutual

def decEq : (a b : Json) → Decidable (a = b)
  | .null, b => by cases b with | null => exact isTrue rfl | _ => exact isFalse nofun
  | .bool x, b => by
      cases b with | bool y => exact decidable_of_iff (x = y) (by simp) | _ => exact isFalse nofun
  | .int x, b => by
      cases b with | int y => exact decidable_of_iff (x = y) (by simp) | _ => exact isFalse nofun
  | .float x, b => by
      cases b with | float y => exact decidable_of_iff (x = y) (by simp) | _ => exact isFalse nofun
  | .str x, b => by
      cases b with | str y => exact decidable_of_iff (x = y) (by simp) | _ => exact isFalse nofun
  | .arr xs, .arr ys => match decEqList xs ys with
      | isTrue h => isTrue (by rw [h])
      | isFalse h => isFalse fun hc => h (by injection hc)
  | .arr _, .null | .arr _, .bool _ | .arr _, .int _ | .arr _, .float _ | .arr _, .str _
  | .arr _, .obj _ => isFalse nofun
  | .obj fs, .obj gs => match decEqFields fs gs with
      | isTrue h => isTrue (by rw [h])
      | isFalse h => isFalse fun hc => h (by injection hc)
  | .obj _, .null | .obj _, .bool _ | .obj _, .int _ | .obj _, .float _ | .obj _, .str _
  | .obj _, .arr _ => isFalse nofun

def decEqList : (xs ys : List Json) → Decidable (xs = ys)
  | [], [] => isTrue rfl
  | [], _ :: _ => isFalse nofun
  | _ :: _, [] => isFalse nofun
  | x :: xs, y :: ys => match decEq x y, decEqList xs ys with
      | isTrue h, isTrue h' => isTrue (by rw [h, h'])
      | isFalse h, _ => isFalse fun hc => h (by injection hc)
      | _, isFalse h => isFalse fun hc => h (by injection hc)

def decEqFields : (fs gs : List (String × Json)) → Decidable (fs = gs)
  | [], [] => isTrue rfl
  | [], _ :: _ => isFalse nofun
  | _ :: _, [] => isFalse nofun
  | (k, v) :: fs, (k', v') :: gs =>
      if hk : k = k' then match decEq v v', decEqFields fs gs with
        | isTrue h, isTrue h' => isTrue (by rw [hk, h, h'])
        | isFalse h, _ => isFalse fun hc => h (by injection hc with hc _; injection hc)
        | _, isFalse h => isFalse fun hc => h (by injection hc)
      else isFalse fun hc => hk (by injection hc with hc _; injection hc)

end

instance : DecidableEq Json := decEq

/-! ## Members of an object -/

/-- Give the member `k` the value `v`: in place where there is one, else last. -/
def setField (k : String) (v : Json) : List (String × Json) → List (String × Json)
  | [] => [(k, v)]
  | (k', w) :: fs => if k' = k then (k, v) :: fs else (k', w) :: setField k v fs

/-- Remove the member `k`. -/
def eraseField (k : String) (fs : List (String × Json)) : List (String × Json) :=
  fs.filter fun p => p.1 ≠ k

/-- The member `k` of an object; nothing is a member of anything else. -/
def field? (k : String) : Json → Option Json
  | .obj fs => fs.lookup k
  | _ => none

@[simp] theorem field?_obj (k : String) (fs : List (String × Json)) :
    field? k (.obj fs) = fs.lookup k := rfl

theorem lookup_cons_eq {α β : Type} [DecidableEq α] [BEq α] [LawfulBEq α] (k k' : α) (v : β)
    (fs : List (α × β)) : ((k', v) :: fs).lookup k = if k' = k then some v else fs.lookup k := by
  by_cases h : k' = k
  · subst h; simp
  · rw [List.lookup_cons, if_neg h, beq_false_of_ne (Ne.symm h)]

theorem lookup_setField (k k' : String) (v : Json) (fs : List (String × Json)) :
    (setField k v fs).lookup k' = if k = k' then some v else fs.lookup k' := by
  induction fs with
  | nil => simp [setField, lookup_cons_eq]
  | cons p fs ih =>
      obtain ⟨l, w⟩ := p
      by_cases hl : l = k
      · subst hl
        by_cases hk : l = k' <;> simp [setField, lookup_cons_eq, hk]
      · rw [setField, if_neg hl, lookup_cons_eq, lookup_cons_eq, ih]
        by_cases hk : k = k'
        · subst hk; simp [hl]
        · simp [hk]

@[simp] theorem lookup_setField_self (k : String) (v : Json) (fs : List (String × Json)) :
    (setField k v fs).lookup k = some v := by simp [lookup_setField]

theorem lookup_setField_ne {k k' : String} (h : k ≠ k') (v : Json) (fs : List (String × Json)) :
    (setField k v fs).lookup k' = fs.lookup k' := by simp [lookup_setField, h]

theorem lookup_eraseField (k k' : String) (fs : List (String × Json)) :
    (eraseField k fs).lookup k' = if k = k' then none else fs.lookup k' := by
  induction fs with
  | nil => simp [eraseField]
  | cons p fs ih =>
      obtain ⟨l, w⟩ := p
      simp only [eraseField] at ih ⊢
      by_cases hl : l = k
      · subst hl
        simp only [ne_eq, not_true_eq_false, decide_false, Bool.false_eq_true, not_false_eq_true,
          List.filter_cons_of_neg, ih, lookup_cons_eq]
        by_cases hk : l = k' <;> simp [hk]
      · simp only [ne_eq, hl, not_false_eq_true, decide_true, List.filter_cons_of_pos,
          lookup_cons_eq, ih]
        by_cases hk : k = k'
        · subst hk; simp [hl]
        · simp [hk]

/-- Putting a value back where it was changes nothing. -/
theorem setField_of_lookup {k : String} {v : Json} {fs : List (String × Json)}
    (h : fs.lookup k = some v) : setField k v fs = fs := by
  induction fs with
  | nil => simp at h
  | cons p fs ih =>
      obtain ⟨l, w⟩ := p
      rw [lookup_cons_eq] at h
      by_cases hl : l = k
      · subst hl
        simp only [if_pos, Option.some.injEq] at h
        simp [setField, h]
      · rw [if_neg hl] at h
        rw [setField, if_neg hl, ih h]

theorem setField_setField (k : String) (v w : Json) (fs : List (String × Json)) :
    setField k w (setField k v fs) = setField k w fs := by
  induction fs with
  | nil => simp [setField]
  | cons p fs ih =>
      obtain ⟨l, u⟩ := p
      by_cases hl : l = k
      · simp [setField, hl]
      · simp [setField, hl, ih]

/-- A new member goes last. -/
theorem setField_of_absent {k : String} {v : Json} {fs : List (String × Json)}
    (h : fs.lookup k = none) : setField k v fs = fs ++ [(k, v)] := by
  induction fs with
  | nil => rfl
  | cons p fs ih =>
      obtain ⟨l, w⟩ := p
      rw [lookup_cons_eq] at h
      by_cases hl : l = k
      · simp [hl] at h
      · rw [if_neg hl] at h
        rw [setField, if_neg hl, ih h, List.cons_append]

/-- A member that is there is set in place. -/
theorem setField_append {k : String} {v : Json} {fs gs : List (String × Json)}
    (h : (fs.lookup k).isSome) : setField k v (fs ++ gs) = setField k v fs ++ gs := by
  induction fs with
  | nil => simp at h
  | cons p fs ih =>
      obtain ⟨l, w⟩ := p
      rw [lookup_cons_eq] at h
      by_cases hl : l = k
      · simp [setField, hl]
      · rw [if_neg hl] at h
        simp [setField, hl, ih h]

theorem eraseField_append_single {k : String} {v : Json} {fs : List (String × Json)}
    (h : fs.lookup k = none) : eraseField k (fs ++ [(k, v)]) = fs := by
  have hfs : ∀ p ∈ fs, p.1 ≠ k := by
    intro p hp hk
    have : (fs.lookup k).isSome := by
      rw [List.lookup_isSome_iff]
      exact ⟨p, hp, by simp [hk]⟩
    simp [h] at this
  simp only [eraseField, List.filter_append]
  rw [List.filter_eq_self.2 fun p hp => by simpa using hfs p hp]
  simp

/-! ## Normal forms -/

/-- Put a member into a list sorted by name, in place of one of the same name. -/
def insertField (k : String) (v : Json) : List (String × Json) → List (String × Json)
  | [] => [(k, v)]
  | (k', w) :: fs =>
      if k < k' then (k, v) :: (k', w) :: fs
      else if k = k' then (k, v) :: fs
      else (k', w) :: insertField k v fs

mutual

/-- The normal form of a value: members sorted by name, numbers by value, and, where
`boolNum` says so, booleans as numbers. -/
def canon (boolNum : Bool) : Json → Json
  | .null => .null
  | .bool b => if boolNum then .float (if b then 1 else 0) else .bool b
  | .int n => .float n
  | .float q => .float q
  | .str s => .str s
  | .arr xs => .arr (canonList boolNum xs)
  | .obj fs => .obj (canonFields boolNum fs)

def canonList (boolNum : Bool) : List Json → List Json
  | [] => []
  | x :: xs => canon boolNum x :: canonList boolNum xs

def canonFields (boolNum : Bool) : List (String × Json) → List (String × Json)
  | [] => []
  | (k, v) :: fs => insertField k (canon boolNum v) (canonFields boolNum fs)

end

/-- Members in order of their names, no name twice. -/
def Sorted (fs : List (String × Json)) : Prop := fs.Pairwise fun p q => p.1 < q.1

theorem lookup_insertField (k k' : String) (v : Json) (fs : List (String × Json)) :
    (insertField k v fs).lookup k' = if k = k' then some v else fs.lookup k' := by
  induction fs with
  | nil => simp [insertField, lookup_cons_eq]
  | cons p fs ih =>
      obtain ⟨l, w⟩ := p
      unfold insertField
      split
      · rw [lookup_cons_eq]
      · split
        · rename_i _ hkl
          subst hkl
          by_cases hk : k = k' <;> simp [lookup_cons_eq, hk]
        · rename_i _ hkl
          rw [lookup_cons_eq, lookup_cons_eq, ih]
          by_cases hk : k = k'
          · subst hk; simp [Ne.symm hkl]
          · simp [hk]

theorem fst_mem_insertField {k l : String} {v : Json} {fs : List (String × Json)}
    (h : ∃ p ∈ insertField k v fs, p.1 = l) : l = k ∨ ∃ p ∈ fs, p.1 = l := by
  induction fs with
  | nil => simpa [insertField, eq_comm] using h
  | cons q fs ih =>
      unfold insertField at h
      split at h
      · simpa [eq_comm] using h
      · split at h
        · rcases h with ⟨p, hp, rfl⟩
          rcases List.mem_cons.1 hp with rfl | hp
          · exact .inl rfl
          · exact .inr ⟨p, List.mem_cons_of_mem _ hp, rfl⟩
        · rcases h with ⟨p, hp, rfl⟩
          rcases List.mem_cons.1 hp with rfl | hp
          · exact .inr ⟨_, List.mem_cons_self, rfl⟩
          · rcases ih ⟨p, hp, rfl⟩ with h | ⟨p', hp', h⟩
            · exact .inl h
            · exact .inr ⟨p', List.mem_cons_of_mem _ hp', h⟩

theorem Sorted.insertField {k : String} {v : Json} {fs : List (String × Json)} (h : Sorted fs) :
    Sorted (insertField k v fs) := by
  induction fs with
  | nil => simp [Json.insertField, Sorted]
  | cons q fs ih =>
      obtain ⟨l, w⟩ := q
      have htail : Sorted fs := List.Pairwise.of_cons h
      have hhead : ∀ p ∈ fs, l < p.1 := (List.pairwise_cons.1 h).1
      unfold Json.insertField
      split
      · rename_i hkl
        refine List.pairwise_cons.2 ⟨fun p hp => ?_, h⟩
        rcases List.mem_cons.1 hp with rfl | hp
        · exact hkl
        · exact hkl.trans (hhead p hp)
      · split
        · rename_i _ hkl
          subst hkl
          exact List.pairwise_cons.2 ⟨hhead, htail⟩
        · rename_i hlt hne
          refine List.pairwise_cons.2 ⟨fun p hp => ?_, ih htail⟩
          rcases fst_mem_insertField ⟨p, hp, rfl⟩ with hk | ⟨p', hp', hpp⟩
          · rw [hk]
            exact lt_of_le_of_ne (not_lt.1 hlt) (Ne.symm hne)
          · exact hpp ▸ hhead p' hp'

theorem sorted_canonFields (b : Bool) (fs : List (String × Json)) : Sorted (canonFields b fs) := by
  induction fs with
  | nil => simp [canonFields, Sorted]
  | cons p fs ih =>
      rw [canonFields]
      exact ih.insertField

/-- Normal forms have the members of the object, in normal form. -/
theorem lookup_canonFields (b : Bool) (k : String) (fs : List (String × Json)) :
    (canonFields b fs).lookup k = (fs.lookup k).map (canon b) := by
  induction fs with
  | nil => simp [canonFields]
  | cons p fs ih =>
      obtain ⟨l, w⟩ := p
      rw [canonFields, lookup_insertField, ih, lookup_cons_eq]
      by_cases h : l = k <;> simp [h]

theorem lookup_none_of_lt {k : String} {fs : List (String × Json)} (h : ∀ p ∈ fs, k < p.1) :
    fs.lookup k = none := by
  rw [List.lookup_eq_none_iff]
  intro p hp
  simpa using ne_of_lt (h p hp)

/-- Sorted lists of members are determined by what they have under each name. -/
theorem Sorted.ext {fs gs : List (String × Json)} (hf : Sorted fs) (hg : Sorted gs)
    (h : ∀ k, fs.lookup k = gs.lookup k) : fs = gs := by
  induction fs generalizing gs with
  | nil =>
      cases gs with
      | nil => rfl
      | cons q gs =>
          obtain ⟨l, w⟩ := q
          simpa [lookup_cons_eq] using h l
  | cons p fs ih =>
      obtain ⟨k, v⟩ := p
      cases gs with
      | nil => simpa [lookup_cons_eq] using h k
      | cons q gs =>
          obtain ⟨l, w⟩ := q
          have hfk := (List.pairwise_cons.1 hf).1
          have hgl := (List.pairwise_cons.1 hg).1
          have hkl : k = l := by
            rcases lt_trichotomy k l with hlt | heq | hgt
            · have hn : ((l, w) :: gs).lookup k = none := lookup_none_of_lt fun p hp => by
                rcases List.mem_cons.1 hp with rfl | hp
                · exact hlt
                · exact hlt.trans (hgl p hp)
              simpa [lookup_cons_eq, hn] using h k
            · exact heq
            · have hn : ((k, v) :: fs).lookup l = none := lookup_none_of_lt fun p hp => by
                rcases List.mem_cons.1 hp with rfl | hp
                · exact hgt
                · exact hgt.trans (hfk p hp)
              simpa [lookup_cons_eq, hn] using h l
          subst hkl
          have hvw : v = w := by simpa [lookup_cons_eq] using h k
          have hrest : fs = gs := by
            refine ih (List.Pairwise.of_cons hf) (List.Pairwise.of_cons hg) fun m => ?_
            by_cases hm : k = m
            · subst hm
              rw [lookup_none_of_lt hfk, lookup_none_of_lt hgl]
            · simpa [lookup_cons_eq, hm] using h m
          rw [hvw, hrest]

/-- **Objects are equal exactly when they have equal members under every name.** -/
theorem canonFields_ext {b : Bool} {fs gs : List (String × Json)} :
    canonFields b fs = canonFields b gs ↔
      ∀ k, (fs.lookup k).map (canon b) = (gs.lookup k).map (canon b) := by
  constructor
  · intro h k
    rw [← lookup_canonFields, ← lookup_canonFields, h]
  · intro h
    refine (sorted_canonFields b fs).ext (sorted_canonFields b gs) fun k => ?_
    rw [lookup_canonFields, lookup_canonFields, h]

theorem canonList_eq_map (b : Bool) (xs : List Json) : canonList b xs = xs.map (canon b) := by
  induction xs with
  | nil => simp [canonList]
  | cons x xs ih => simp [canonList, ih]

/-! ## The equalities -/

/-- Equality of JSON values as a JSON Patch `test` sees it. -/
def JsonEq (a b : Json) : Prop := canon false a = canon false b

/-- Equality of the Python values two JSON values decode to. -/
def PyEq (a b : Json) : Prop := canon true a = canon true b

instance (a b : Json) : Decidable (JsonEq a b) := inferInstanceAs (Decidable (_ = _))

instance (a b : Json) : Decidable (PyEq a b) := inferInstanceAs (Decidable (_ = _))

@[refl] theorem JsonEq.refl (a : Json) : JsonEq a a := rfl

@[symm] theorem JsonEq.symm {a b : Json} (h : JsonEq a b) : JsonEq b a := Eq.symm h

@[trans] theorem JsonEq.trans {a b c : Json} (h : JsonEq a b) (h' : JsonEq b c) : JsonEq a c :=
  Eq.trans h h'

@[refl] theorem PyEq.refl (a : Json) : PyEq a a := rfl

@[symm] theorem PyEq.symm {a b : Json} (h : PyEq a b) : PyEq b a := Eq.symm h

@[trans] theorem PyEq.trans {a b c : Json} (h : PyEq a b) (h' : PyEq b c) : PyEq a c :=
  Eq.trans h h'

theorem jsonEq_obj_iff {fs gs : List (String × Json)} : JsonEq (.obj fs) (.obj gs) ↔
    ∀ k, (fs.lookup k).map (canon false) = (gs.lookup k).map (canon false) := by
  rw [JsonEq, canon, canon, obj.injEq, canonFields_ext]

theorem pyEq_obj_iff {fs gs : List (String × Json)} : PyEq (.obj fs) (.obj gs) ↔
    ∀ k, (fs.lookup k).map (canon true) = (gs.lookup k).map (canon true) := by
  rw [PyEq, canon, canon, obj.injEq, canonFields_ext]

/-- An object equal to one with the member `k` has an equal member `k`. -/
theorem JsonEq.lookup {fs gs : List (String × Json)} (h : JsonEq (.obj fs) (.obj gs)) {k : String}
    {v : Json} (hv : gs.lookup k = some v) : ∃ w, fs.lookup k = some w ∧ JsonEq w v := by
  have := jsonEq_obj_iff.1 h k
  rw [hv, Option.map_some, Option.map_eq_some_iff] at this
  exact this

theorem PyEq.lookup {fs gs : List (String × Json)} (h : PyEq (.obj fs) (.obj gs)) {k : String}
    {v : Json} (hv : gs.lookup k = some v) : ∃ w, fs.lookup k = some w ∧ PyEq w v := by
  have := pyEq_obj_iff.1 h k
  rw [hv, Option.map_some, Option.map_eq_some_iff] at this
  exact this

/-- Only objects equal objects. -/
theorem JsonEq.obj_right {a : Json} {gs : List (String × Json)} (h : JsonEq a (.obj gs)) :
    ∃ fs, a = .obj fs := by
  cases a <;> simp_all [JsonEq, canon]

theorem PyEq.obj_right {a : Json} {gs : List (String × Json)} (h : PyEq a (.obj gs)) :
    ∃ fs, a = .obj fs := by
  cases a <;> simp_all [PyEq, canon]

/-- Only arrays equal arrays, entry by entry. -/
theorem JsonEq.arr_right {a : Json} {ys : List Json} (h : JsonEq a (.arr ys)) :
    ∃ xs, a = .arr xs ∧ List.Forall₂ JsonEq xs ys := by
  cases a with
  | arr xs =>
      refine ⟨xs, rfl, ?_⟩
      simp only [JsonEq, canon, arr.injEq, canonList_eq_map] at h
      rw [← List.forall₂_eq_eq_eq, List.forall₂_map_left_iff, List.forall₂_map_right_iff] at h
      exact h
  | _ => simp_all [JsonEq, canon]

theorem PyEq.arr_right {a : Json} {ys : List Json} (h : PyEq a (.arr ys)) :
    ∃ xs, a = .arr xs ∧ List.Forall₂ PyEq xs ys := by
  cases a with
  | arr xs =>
      refine ⟨xs, rfl, ?_⟩
      simp only [PyEq, canon, arr.injEq, canonList_eq_map] at h
      rw [← List.forall₂_eq_eq_eq, List.forall₂_map_left_iff, List.forall₂_map_right_iff] at h
      exact h
  | _ => simp_all [PyEq, canon]

/-- Only the string itself equals a string. -/
theorem pyEq_str_iff {a : Json} {s : String} : PyEq a (.str s) ↔ a = .str s := by
  cases a <;> simp [PyEq, canon]

theorem jsonEq_str_iff {a : Json} {s : String} : JsonEq a (.str s) ↔ a = .str s := by
  cases a <;> simp [JsonEq, canon]

end Json
