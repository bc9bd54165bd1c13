import AutonomyLab.Json.Python
import AutonomyLab.Json.Size
import AutonomyLab.Json.Str

/-!
# Documents and their canonical text

A `Doc` is a JSON value whose strings are those of Python.

* `dumps` — `json.dumps(value, sort_keys=True)`: the text of a value whose members were sorted.
* `render_inj` — a value can be read off its text; so values with the same canonical text are
  the same once their members are sorted (`sorted_of_dumps_eq`).
* `size` — the length of the canonical text, by the parts of the value.
-/

namespace Json

/-- A JSON value. -/
inductive Doc where
  | null
  | bool (b : Bool)
  | int (n : ℤ)
  | float (q : ℚ)
  | str (s : Str)
  | arr (xs : List Doc)
  | obj (fs : List (Str × Doc))

namespace Doc

/-- Induction on a value, with the entries of arrays and objects taken together. -/
@[elab_as_elim]
theorem induct {motive : Doc → Prop} (null : motive .null) (bool : ∀ b, motive (.bool b))
    (int : ∀ n, motive (.int n)) (float : ∀ q, motive (.float q)) (str : ∀ s, motive (.str s))
    (arr : ∀ xs, (∀ x ∈ xs, motive x) → motive (.arr xs))
    (obj : ∀ fs, (∀ p ∈ fs, motive p.2) → motive (.obj fs)) (v : Doc) : motive v := by
  have hcons : ∀ x xs, motive x → (∀ y ∈ xs, motive y) → ∀ y ∈ x :: xs, motive y :=
    fun _ _ hx hxs => List.forall_mem_cons.2 ⟨hx, hxs⟩
  have hfields : ∀ (p : Str × Doc) fs, motive p.2 → (∀ q ∈ fs, motive q.2) →
      ∀ q ∈ p :: fs, motive q.2 :=
    fun _ _ hp hfs => List.forall_mem_cons.2 ⟨hp, hfs⟩
  exact @Doc.rec motive (fun xs => ∀ x ∈ xs, motive x) (fun fs => ∀ p ∈ fs, motive p.2)
    (fun p => motive p.2) null bool int float str arr obj (fun _ h => nomatch h) hcons
    (fun _ h => nomatch h) hfields (fun _ _ hv => hv) v

/-! ## Texts -/

/-- The default separators. -/
def separator : List Char := [',', ' ']

def renderStr (s : Str) : List Char := quote :: (s.escaped ++ [quote])

section
variable (reprFloat : ℚ → String)

mutual

/-- The text of a value, with the members of objects as they come. -/
def render : Doc → List Char
  | .null => ['n', 'u', 'l', 'l']
  | .bool true => ['t', 'r', 'u', 'e']
  | .bool false => ['f', 'a', 'l', 's', 'e']
  | .int n => (toString n).toList
  | .float q => (reprFloat q).toList
  | .str s => renderStr s
  | .arr xs => '[' :: (separator.intercalate (renderItems xs) ++ [']'])
  | .obj fs => lbrace :: (separator.intercalate (renderMembers fs) ++ [rbrace])

def renderItems : List Doc → List (List Char)
  | [] => []
  | x :: xs => render x :: renderItems xs

def renderMembers : List (Str × Doc) → List (List Char)
  | [] => []
  | (k, v) :: fs => (renderStr k ++ ':' :: ' ' :: render v) :: renderMembers fs

end

/-- The text of a member. -/
def renderMember (p : Str × Doc) : List Char := renderStr p.1 ++ ':' :: ' ' :: render reprFloat p.2

end

mutual

/-- The value with the members of its objects in the order of their names. -/
def sorted : Doc → Doc
  | .arr xs => .arr (sortedItems xs)
  | .obj fs => .obj ((sortedMembers fs).insertionSort fun p q => p.1.points ≤ q.1.points)
  | v => v

def sortedItems : List Doc → List Doc
  | [] => []
  | x :: xs => sorted x :: sortedItems xs

def sortedMembers : List (Str × Doc) → List (Str × Doc)
  | [] => []
  | (k, v) :: fs => (k, sorted v) :: sortedMembers fs

end

/-- `json.dumps(value, sort_keys=True)`. -/
def dumps (reprFloat : ℚ → String) (v : Doc) : List Char := render reprFloat (sorted v)

section
variable {reprFloat : ℚ → String} {parseFloat : String → Option ℚ}

theorem renderItems_eq (xs : List Doc) : renderItems reprFloat xs = xs.map (render reprFloat) := by
  induction xs with
  | nil => rfl
  | cons x xs ih => rw [renderItems, ih, List.map_cons]

theorem renderMembers_eq (fs : List (Str × Doc)) :
    renderMembers reprFloat fs = fs.map (renderMember reprFloat) := by
  induction fs with
  | nil => rfl
  | cons p fs ih => rw [renderMembers, ih, List.map_cons, renderMember]

theorem sortedItems_eq (xs : List Doc) : sortedItems xs = xs.map sorted := by
  induction xs with
  | nil => rfl
  | cons x xs ih => rw [sortedItems, ih, List.map_cons]

theorem sortedMembers_eq (fs : List (Str × Doc)) :
    sortedMembers fs = fs.map fun p => (p.1, sorted p.2) := by
  induction fs with
  | nil => rfl
  | cons p fs ih => rw [sortedMembers, ih, List.map_cons]

/-! ## Values read off their texts -/

/-- `x` can be read off its text, where what follows cannot be a part of it. -/
def Reads {α : Type} (f : α → List Char) (x : α) : Prop :=
  ∀ y r s, Stops r → Stops s → f x ++ r = f y ++ s → x = y ∧ r = s

theorem intercalate_cons {sep t : List Char} (ts : List (List Char)) :
    sep.intercalate (t :: ts) = t ++ ts.flatMap (sep ++ ·) := by
  induction ts generalizing t with
  | nil => rw [List.intercalate_singleton, List.flatMap_nil, List.append_nil]
  | cons u ts ih =>
      rw [List.intercalate_cons_of_ne_nil (List.cons_ne_nil u ts), ih, List.flatMap_cons,
        List.append_assoc, List.append_assoc]

section
variable {α : Type} {f : α → List Char} {close : Char} {r s : List Char}

theorem stops_rest (hclose : close = ']' ∨ close = rbrace) (xs : List α) :
    Stops ((xs.map f).flatMap (separator ++ ·) ++ close :: r) := by
  cases xs with
  | nil => exact stops_delimiter (.inr hclose) r
  | cons x xs => exact stops_delimiter (.inl rfl) _

/-- The entries after the first one. -/
theorem rest_inj (hclose : close = ']' ∨ close = rbrace) {xs ys : List α}
    (h : ∀ x ∈ xs, Reads f x) (heq : (xs.map f).flatMap (separator ++ ·) ++ close :: r =
      (ys.map f).flatMap (separator ++ ·) ++ close :: s) : xs = ys ∧ r = s := by
  have hcomma : ',' ≠ close := by
    rintro rfl
    revert hclose
    decide
  induction xs generalizing ys with
  | nil =>
      cases ys with
      | nil => exact ⟨rfl, List.tail_eq_of_cons_eq heq⟩
      | cons y ys => exact absurd (List.head_eq_of_cons_eq heq).symm hcomma
  | cons x xs ih =>
      cases ys with
      | nil => exact absurd (List.head_eq_of_cons_eq heq) hcomma
      | cons y ys =>
          rw [List.map_cons, List.map_cons, List.flatMap_cons, List.flatMap_cons, List.append_assoc,
            List.append_assoc, List.append_assoc, List.append_assoc, List.append_cancel_left_eq] at heq
          obtain ⟨rfl, hrest⟩ := h x List.mem_cons_self y _ _ (stops_rest hclose xs)
            (stops_rest hclose ys) heq
          obtain ⟨rfl, rfl⟩ := ih (fun z hz => h z (List.mem_cons_of_mem x hz)) hrest
          exact ⟨rfl, rfl⟩

/-- **Entries between separators** can be read off their text. -/
theorem intercalate_inj (hclose : close = ']' ∨ close = rbrace)
    (hne : ∀ x r s, f x ++ r ≠ close :: s) {xs ys : List α} (h : ∀ x ∈ xs, Reads f x)
    (heq : separator.intercalate (xs.map f) ++ close :: r =
      separator.intercalate (ys.map f) ++ close :: s) : xs = ys ∧ r = s := by
  cases xs with
  | nil =>
      cases ys with
      | nil => exact ⟨rfl, List.tail_eq_of_cons_eq heq⟩
      | cons y ys =>
          rw [List.map_cons, intercalate_cons, List.append_assoc] at heq
          exact absurd heq.symm (hne y _ _)
  | cons x xs =>
      cases ys with
      | nil =>
          rw [List.map_cons, intercalate_cons, List.append_assoc] at heq
          exact absurd heq (hne x _ _)
      | cons y ys =>
          rw [List.map_cons, List.map_cons, intercalate_cons, intercalate_cons, List.append_assoc,
            List.append_assoc] at heq
          obtain ⟨rfl, hrest⟩ := h x List.mem_cons_self y _ _ (stops_rest hclose xs)
            (stops_rest hclose ys) heq
          obtain ⟨rfl, rfl⟩ := rest_inj hclose (fun z hz => h z (List.mem_cons_of_mem x hz)) hrest
          exact ⟨rfl, rfl⟩

end

/-- What a value is, as its text begins. -/
def kind : Doc → ℕ
  | .null => 0
  | .bool true => 1
  | .bool false => 2
  | .int _ => 3
  | .float _ => 3
  | .str _ => 4
  | .arr _ => 5
  | .obj _ => 6

/-- The kind of the values whose text begins with `c`. -/
def kindOf (c : Char) : ℕ :=
  if c = 'n' then 0 else if c = 't' then 1 else if c = 'f' then 2 else if c = quote then 4
  else if c = '[' then 5 else if c = lbrace then 6 else 3

theorem kindOf_number {c : Char} (h : c = '-' ∨ c.isDigit = true) : kindOf c = 3 ∧ c ≠ ']' := by
  have hne : ∀ d : Char, d ≠ '-' → d.isDigit = false → c ≠ d := by
    rintro d hminus hdigit rfl
    rcases h with h | h
    · exact hminus h
    · rw [hdigit] at h
      cases h
  refine ⟨?_, hne _ (by decide) (by decide)⟩
  rw [kindOf, if_neg (hne _ (by decide) (by decide)), if_neg (hne _ (by decide) (by decide)),
    if_neg (hne _ (by decide) (by decide)), if_neg (hne _ (by decide) (by decide)),
    if_neg (hne _ (by decide) (by decide)), if_neg (hne _ (by decide) (by decide))]

theorem render_head (hf : FloatText reprFloat parseFloat) (v : Doc) :
    ∃ c cs, render reprFloat v = c :: cs ∧ kindOf c = kind v ∧ c ≠ ']' := by
  have hnumber : ∀ cs w, scanNumber parseFloat (cs ++ []) = some (w, []) →
      ∃ c cs', cs = c :: cs' ∧ kindOf c = 3 ∧ c ≠ ']' := by
    intro cs w h
    rw [List.append_nil] at h
    obtain ⟨c, cs', hcs, hc⟩ := head_of_scanNumber h
    exact ⟨c, cs', hcs, kindOf_number hc⟩
  cases v with
  | null => exact ⟨_, _, rfl, rfl, by decide⟩
  | bool b => cases b <;> exact ⟨_, _, rfl, rfl, by decide⟩
  | int n => exact hnumber _ _ (scanNumber_int n stops_nil)
  | float q => exact hnumber _ _ (hf q [] stops_nil)
  | str s => exact ⟨_, _, rfl, rfl, by decide⟩
  | arr xs => exact ⟨_, _, rfl, rfl, by decide⟩
  | obj fs => exact ⟨_, _, rfl, rfl, by decide⟩

theorem kind_eq (hf : FloatText reprFloat parseFloat) {v w : Doc} {r s : List Char}
    (h : render reprFloat v ++ r = render reprFloat w ++ s) : kind v = kind w := by
  obtain ⟨c, cs, hv, hkv, -⟩ := render_head hf v
  obtain ⟨d, ds, hw, hkw, -⟩ := render_head hf w
  rw [hv, hw, List.cons_append, List.cons_append] at h
  obtain ⟨rfl, -⟩ := List.cons_eq_cons.1 h
  rw [← hkv, hkw]

theorem renderStr_inj {s t : Str} {r r' : List Char} (h : renderStr s ++ r = renderStr t ++ r') :
    s = t ∧ r = r' := by
  rw [renderStr, renderStr, List.cons_append, List.cons_append, List.append_assoc,
    List.append_assoc] at h
  exact escapedStr_inj (List.tail_eq_of_cons_eq h)

/-- **A value can be read off its text.** -/
theorem render_inj (hf : FloatText reprFloat parseFloat) (v : Doc) :
    Reads (render reprFloat) v := by
  induction v using induct with
  | null =>
      intro w r s _ _ h
      have hkind := kind_eq hf h
      cases w with
      | null => exact ⟨rfl, List.append_cancel_left h⟩
      | bool b => cases b <;> cases hkind
      | _ => cases hkind
  | bool b =>
      intro w r s _ _ h
      have hkind := kind_eq hf h
      cases w with
      | bool b' =>
          cases b <;> cases b' <;> first
            | exact ⟨rfl, List.append_cancel_left h⟩
            | cases hkind
      | _ => cases b <;> cases hkind
  | int n =>
      intro w r s hr hs h
      have hkind := kind_eq hf h
      have hscan := @scanNumber_int parseFloat n r hr
      change scanNumber parseFloat (render reprFloat (.int n) ++ r) = _ at hscan
      rw [h] at hscan
      cases w with
      | int m =>
          cases (scanNumber_int m hs).symm.trans hscan
          exact ⟨rfl, rfl⟩
      | float q => cases (hf q s hs).symm.trans hscan
      | bool b => cases b <;> cases hkind
      | _ => cases hkind
  | float q =>
      intro w r s hr hs h
      have hkind := kind_eq hf h
      have hscan := hf q r hr
      change scanNumber parseFloat (render reprFloat (.float q) ++ r) = _ at hscan
      rw [h] at hscan
      cases w with
      | int m => cases (scanNumber_int m hs).symm.trans hscan
      | float q' =>
          cases (hf q' s hs).symm.trans hscan
          exact ⟨rfl, rfl⟩
      | bool b => cases b <;> cases hkind
      | _ => cases hkind
  | str t =>
      intro w r s _ _ h
      have hkind := kind_eq hf h
      cases w with
      | str t' =>
          obtain ⟨rfl, rfl⟩ := renderStr_inj h
          exact ⟨rfl, rfl⟩
      | bool b => cases b <;> cases hkind
      | _ => cases hkind
  | arr xs ih =>
      intro w r s _ _ h
      have hkind := kind_eq hf h
      cases w with
      | arr ys =>
          rw [render, render, renderItems_eq, renderItems_eq, List.cons_append, List.cons_append,
            List.append_assoc, List.append_assoc] at h
          have hne : ∀ x r s, render reprFloat x ++ r ≠ ']' :: s := by
            intro x r s heq
            obtain ⟨c, cs, hx, -, hc⟩ := render_head hf x
            rw [hx] at heq
            exact hc (List.head_eq_of_cons_eq heq)
          obtain ⟨rfl, rfl⟩ := intercalate_inj (.inl rfl) hne ih (List.tail_eq_of_cons_eq h)
          exact ⟨rfl, rfl⟩
      | bool b => cases b <;> cases hkind
      | _ => cases hkind
  | obj fs ih =>
      intro w r s _ _ h
      have hkind := kind_eq hf h
      cases w with
      | obj gs =>
          rw [render, render, renderMembers_eq, renderMembers_eq, List.cons_append,
            List.cons_append, List.append_assoc, List.append_assoc] at h
          have hne : ∀ p r s, renderMember reprFloat p ++ r ≠ rbrace :: s := by
            intro p r s heq
            have hquote : quote = rbrace := List.head_eq_of_cons_eq heq
            revert hquote
            decide
          have hmembers : ∀ p ∈ fs, Reads (renderMember reprFloat) p := by
            intro p hp q r s hr hs hpq
            rw [renderMember, renderMember, List.append_assoc, List.append_assoc] at hpq
            obtain ⟨hname, hrest⟩ := renderStr_inj hpq
            obtain ⟨hvalue, hrs⟩ := ih p hp q.2 r s hr hs
              (List.tail_eq_of_cons_eq (List.tail_eq_of_cons_eq hrest))
            exact ⟨Prod.ext hname hvalue, hrs⟩
          obtain ⟨rfl, rfl⟩ := intercalate_inj (.inr rfl) hne hmembers (List.tail_eq_of_cons_eq h)
          exact ⟨rfl, rfl⟩
      | bool b => cases b <;> cases hkind
      | _ => cases hkind

/-- **Values with one canonical text** are the same once their members are sorted. -/
theorem sorted_of_dumps_eq (hf : FloatText reprFloat parseFloat) {v w : Doc}
    (h : dumps reprFloat v = dumps reprFloat w) : sorted v = sorted w := by
  have htexts : render reprFloat (sorted v) ++ [] = render reprFloat (sorted w) ++ [] := by
    rw [List.append_nil, List.append_nil]
    exact h
  exact (render_inj hf (sorted v) _ _ _ stops_nil stops_nil htexts).1

end

/-! ## Members -/

/-- `value.get(key, default)`. -/
def getD (key : String) (default : Doc) : Doc → Except PyError Doc
  | .obj fs => .ok ((fs.lookup (.ofString key)).getD default)
  | _ => .error .attributeError

/-- `value.get(key)`. -/
def get (key : String) (value : Doc) : Except PyError Doc := getD key .null value

/-- What a value counts as in a condition. -/
def truthy : Doc → Bool
  | .null => false
  | .bool b => b
  | .int n => n ≠ 0
  | .float q => q ≠ 0
  | .str s => s.points ≠ []
  | .arr xs => !xs.isEmpty
  | .obj fs => !fs.isEmpty

/-- A value without parts. -/
def Scalar : Doc → Prop
  | .arr _ => False
  | .obj _ => False
  | _ => True

theorem sorted_of_scalar {v : Doc} (h : Scalar v) : sorted v = v := by
  cases v with
  | arr xs => exact absurd h id
  | obj fs => exact absurd h id
  | _ => rfl

/-- Values that are the same once their members are sorted, one of them without parts. -/
theorem eq_of_sorted_eq {v w : Doc} (hv : Scalar v) (hw : Scalar w) (h : sorted v = sorted w) :
    v = w := by
  rwa [sorted_of_scalar hv, sorted_of_scalar hw] at h

/-- The members of a dictionary after they were sorted. -/
theorem lookup_sorted {fs : List (Str × Doc)} (h : (fs.map Prod.fst).Nodup) :
    ∃ gs, sorted (.obj fs) = .obj gs ∧ ∀ k, gs.lookup k = (fs.lookup k).map sorted := by
  have hnodup : ((fs.map fun p => (p.1, sorted p.2)).map Prod.fst).Nodup := by
    rw [map_fst_map]
    exact h
  refine ⟨_, rfl, fun k => ?_⟩
  have hperm := List.perm_insertionSort (fun p q : Str × Doc => p.1.points ≤ q.1.points)
    (sortedMembers fs)
  rw [← sortedMembers_eq] at hnodup
  rw [← lookup_perm hperm.symm hnodup, sortedMembers_eq, lookup_map]

/-- **Dictionaries with one canonical text** have the same under each name. -/
theorem lookup_of_sorted_eq {fs gs : List (Str × Doc)} (hf : (fs.map Prod.fst).Nodup)
    (hg : (gs.map Prod.fst).Nodup) (h : sorted (.obj fs) = sorted (.obj gs)) (k : Str) :
    (fs.lookup k).map sorted = (gs.lookup k).map sorted := by
  obtain ⟨fs', hfs, hlookup⟩ := lookup_sorted hf
  obtain ⟨gs', hgs, hlookup'⟩ := lookup_sorted hg
  rw [hfs, hgs] at h
  cases h
  rw [← hlookup, hlookup']

/-! ## The length of a text -/

section
variable (reprFloat : ℚ → String)

/-- The length of the canonical text of a value. -/
def size (v : Doc) : ℕ := (dumps reprFloat v).length

variable {reprFloat}

theorem length_renderStr (s : Str) : (renderStr s).length = s.escaped.length + 2 := by
  rw [renderStr, List.length_cons, List.length_append, List.length_singleton]

@[simp] theorem size_str (s : Str) : size reprFloat (.str s) = s.escaped.length + 2 :=
  length_renderStr s

@[simp] theorem size_int (n : ℤ) : size reprFloat (.int n) = (toString n).toList.length := rfl

theorem size_arr_nil : size reprFloat (.arr []) = 2 := rfl

/-- Items, with a separator after each but the last. -/
theorem size_arr {xs : List Doc} (h : xs ≠ []) :
    size reprFloat (.arr xs) = (xs.map fun x => size reprFloat x + 2).sum := by
  have hne : xs.map (dumps reprFloat) ≠ [] := by simpa using h
  have hlength := length_intercalate separator hne
  have hsep : separator.length = 2 := rfl
  rw [List.map_map, hsep] at hlength
  have hitems : renderItems reprFloat (sortedItems xs) = xs.map (dumps reprFloat) := by
    rw [renderItems_eq, sortedItems_eq, List.map_map]
    rfl
  rw [size, dumps, sorted, render, hitems, List.length_cons, List.length_append,
    List.length_singleton]
  exact hlength

/-- Members, whatever their order. -/
theorem size_obj {fs : List (Str × Doc)} (h : fs ≠ []) : size reprFloat (.obj fs) =
    (fs.map fun p => p.1.escaped.length + size reprFloat p.2 + 6).sum := by
  have hperm := (List.perm_insertionSort (fun p q : Str × Doc => p.1.points ≤ q.1.points)
    (sortedMembers fs)).map (renderMember reprFloat)
  rw [size, dumps, sorted, render, renderMembers_eq]
  generalize ((sortedMembers fs).insertionSort fun p q => p.1.points ≤ q.1.points).map
    (renderMember reprFloat) = ts at hperm
  rw [sortedMembers_eq, List.map_map] at hperm
  have hne : ts ≠ [] := by
    rintro rfl
    exact h (List.map_eq_nil_iff.1 (List.nil_perm.1 hperm))
  have hlength := length_intercalate separator hne
  have hsep : separator.length = 2 := rfl
  have hmember : ((fun t : List Char => t.length + 2) ∘ renderMember reprFloat ∘
      fun p : Str × Doc => (p.1, sorted p.2)) =
      fun p => p.1.escaped.length + size reprFloat p.2 + 6 := by
    funext p
    simp only [Function.comp, renderMember, List.length_append, length_renderStr, List.length_cons]
    change _ + 2 + (size reprFloat p.2 + 1 + 1) + 2 = _
    omega
  rw [hsep, (hperm.map _).sum_eq, List.map_map, hmember] at hlength
  rw [List.length_cons, List.length_append, List.length_singleton]
  exact hlength

theorem printable_escapedPoint {p : ℕ} (h : p < 1114112) : Printable (escapedPoint p) := by
  rcases escapedPoint_cases p with hmem | ⟨-, heq⟩
  · simp only [List.mem_cons, List.not_mem_nil, or_false] at hmem
    rcases hmem with rfl | rfl | rfl | rfl | rfl | rfl | rfl <;>
      exact printable_of_all (by decide)
  · rw [heq]
    split
    · next hprint =>
        have hvalid : (Char.ofNat p).toNat = p := by
          have hascii : ∀ n < 127, (Char.ofNat n).toNat = n := by decide
          exact hascii p (by omega)
        exact printable_cons.2 ⟨by rwa [hvalid], printable_nil⟩
    · split
      · exact printable_unicodeEscape (by omega)
      · exact printable_append.2
          ⟨printable_unicodeEscape (by omega), printable_unicodeEscape (by omega)⟩

theorem printable_renderStr (s : Str) : Printable (renderStr s) := by
  rw [renderStr, printable_cons, printable_append]
  refine ⟨by decide, printable_flatMap fun p hp => printable_escapedPoint (s.valid p hp), ?_⟩
  exact printable_cons.2 ⟨by decide, printable_nil⟩

theorem printable_render (hf : ∀ q, Printable (reprFloat q).toList) (v : Doc) :
    Printable (render reprFloat v) := by
  have hword : ∀ t ∈ [separator, ['n', 'u', 'l', 'l'], ['t', 'r', 'u', 'e'],
      ['f', 'a', 'l', 's', 'e']], Printable t := by
    intro t ht
    apply printable_of_all
    revert t
    decide
  have hseparator : Printable separator := hword _ (by decide)
  induction v using induct with
  | null => exact hword ['n', 'u', 'l', 'l'] (by decide)
  | bool b =>
      cases b with
      | false => exact hword ['f', 'a', 'l', 's', 'e'] (by decide)
      | true => exact hword ['t', 'r', 'u', 'e'] (by decide)
  | int n => exact printable_int n
  | float q => exact hf q
  | str s => exact printable_renderStr s
  | arr xs ih =>
      rw [render, printable_cons, printable_append, renderItems_eq]
      refine ⟨by decide, printable_intercalate hseparator fun t ht => ?_,
        printable_cons.2 ⟨by decide, printable_nil⟩⟩
      obtain ⟨x, hx, rfl⟩ := List.mem_map.1 ht
      exact ih x hx
  | obj fs ih =>
      rw [render, printable_cons, printable_append, renderMembers_eq]
      refine ⟨by decide, printable_intercalate hseparator fun t ht => ?_,
        printable_cons.2 ⟨by decide, printable_nil⟩⟩
      obtain ⟨p, hp, rfl⟩ := List.mem_map.1 ht
      rw [renderMember, printable_append, printable_cons, printable_cons]
      exact ⟨printable_renderStr p.1, by decide, by decide, ih p hp⟩

/-- **The canonical text has as many bytes as characters.** -/
theorem length_encode_dumps (hf : ∀ q, Printable (reprFloat q).toList) (v : Doc) :
    (encode (dumps reprFloat v)).length = size reprFloat v :=
  length_encode (printable_render hf (sorted v))

end

end Doc

end Json
