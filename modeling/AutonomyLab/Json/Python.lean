import Mathlib.Data.List.Infix
import Mathlib.Data.List.ReduceOption
import AutonomyLab.Json.Value

/-!
# Reading decoded JSON as Python does

Code that walks through a decoded document of unknown shape fails with an
exception of a definite class wherever the shape is not what it expected, and
handlers tell these classes apart.  This file has the few accessors such code
uses, each with its exception:

* `get`, `getD` — `value.get(key)`, which only dictionaries have;
* `subscript`, `first` — `value[key]` with a string key, and `value[0]`;
* `iterate` — `for item in value`;
* `contains`, `isIn` — `key in value`, and `value in values` for a list;
* `inSet`, `getKey` — `value in {…}` and `mapping.get(value)`, which need a hash;
* `sub`, `concat`, `startsWith` — `value - value'`, `text + value` and
  `value.startswith(text)`;
* `truthy` — what a value counts as in a condition;
* `anyTrue`, `allTrue` — an `or` and an `and` of conditions that may raise, evaluated
  from the left;
* `filterTrue` — a comprehension with a condition that may raise.

`member` is what `get` finds, for statements about documents whose shape is known.
-/

namespace Json

/-- The exceptions a walk through a decoded document may end with, and the built-in
ones that are raised on purpose. -/
inductive PyError where
  | valueError (message : String)
  | typeError
  | keyError
  | indexError
  | attributeError
  deriving DecidableEq, Repr

/-- `type(error).__name__`. -/
def PyError.name : PyError → String
  | .valueError _ => "ValueError"
  | .typeError => "TypeError"
  | .keyError => "KeyError"
  | .indexError => "IndexError"
  | .attributeError => "AttributeError"

/-- `value.get(key, default)`. -/
def getD (key : String) (default : Json) : Json → Except PyError Json
  | .obj fs => .ok ((fs.lookup key).getD default)
  | _ => .error .attributeError

/-- `value.get(key)`. -/
def get (key : String) (value : Json) : Except PyError Json := getD key .null value

/-- `value[key]`. -/
def subscript (key : String) : Json → Except PyError Json
  | .obj fs => match fs.lookup key with
      | some v => .ok v
      | none => .error .keyError
  | _ => .error .typeError

/-- `value[0]`. -/
def first : Json → Except PyError Json
  | .arr (x :: _) => .ok x
  | .arr [] => .error .indexError
  | .str s => match s.toList with
      | c :: _ => .ok (.str (String.ofList [c]))
      | [] => .error .indexError
  | .obj _ => .error .keyError
  | _ => .error .typeError

/-- The items a `for` loop over `value` sees. -/
def iterate : Json → Except PyError (List Json)
  | .arr xs => .ok xs
  | .obj fs => .ok (fs.map fun p => .str p.1)
  | .str s => .ok (s.toList.map fun c => .str (String.ofList [c]))
  | _ => .error .typeError

/-- `key in value`; in a string it means "is a part of". -/
def contains (key : String) : Json → Except PyError Bool
  | .obj fs => .ok (fs.lookup key).isSome
  | .arr xs => .ok (xs.any fun x => PyEq x (.str key))
  | .str s => .ok (decide (key.toList <:+: s.toList))
  | _ => .error .typeError

/-- `value in values`. -/
def isIn (value : Json) (values : List Json) : Bool := values.any fun x => PyEq value x

/-- A list or a dictionary has no hash. -/
def isHashable : Json → Bool
  | .arr _ | .obj _ => false
  | _ => true

/-- `value in {…}`, for a set of strings: a list or a dictionary has no hash. -/
def inSet (value : Json) (texts : List String) : Except PyError Bool :=
  match value with
  | .arr _ | .obj _ => .error .typeError
  | .str s => .ok (texts.contains s)
  | _ => .ok false

/-- `mapping.get(key)`, for a mapping from strings. -/
def getKey (mapping : List (String × Json)) (key : Json) : Except PyError Json :=
  match key with
  | .arr _ | .obj _ => .error .typeError
  | .str s => .ok ((mapping.lookup s).getD .null)
  | _ => .ok .null

/-- `value.startswith(text)`. -/
def startsWith (text : String) : Json → Except PyError Bool
  | .str s => .ok (text.toList.isPrefixOf s.toList)
  | _ => .error .attributeError

/-- `text + value`. -/
def concat (text : String) : Json → Except PyError String
  | .str s => .ok (text ++ s)
  | _ => .error .typeError

/-- The number a value counts as in arithmetic, where booleans are integers. -/
def numeric : Json → Except PyError (ℤ ⊕ ℚ)
  | .int n => .ok (.inl n)
  | .bool b => .ok (.inl b.toNat)
  | .float q => .ok (.inr q)
  | _ => .error .typeError

/-- `value - value'`. -/
def sub (value value' : Json) : Except PyError Json := do
  match ← numeric value, ← numeric value' with
  | .inl m, .inl n => return .int (m - n)
  | .inl m, .inr q => return .float (m - q)
  | .inr p, .inl n => return .float (p - n)
  | .inr p, .inr q => return .float (p - q)

/-- `isinstance(value, str) and bool(value)`. -/
def isText : Json → Bool
  | .str s => s ≠ ""
  | _ => false

/-- `bool(value)`. -/
def truthy : Json → Bool
  | .null => false
  | .bool b => b
  | .int n => n ≠ 0
  | .float q => q ≠ 0
  | .str s => s ≠ ""
  | .arr xs => !xs.isEmpty
  | .obj fs => !fs.isEmpty

/-- `isinstance(value, dict)`. -/
def isDict : Json → Bool
  | .obj _ => true
  | _ => false

/-- The first condition that is true decides, and so does the first that raises. -/
def anyTrue : List (Except PyError Bool) → Except PyError Bool
  | [] => .ok false
  | c :: cs => do if ← c then .ok true else anyTrue cs

/-- The first condition that is false decides, and so does the first that raises. -/
def allTrue : List (Except PyError Bool) → Except PyError Bool
  | [] => .ok true
  | c :: cs => do if ← c then allTrue cs else .ok false

/-- `[x for x in values if condition(x)]`. -/
def filterTrue {α : Type} (condition : α → Except PyError Bool) : List α → Except PyError (List α)
  | [] => .ok []
  | x :: xs => do
      let holds ← condition x
      let rest ← filterTrue condition xs
      return if holds then x :: rest else rest

/-- The member a document has, `None` where it has none. -/
def member (key : String) (value : Json) : Json := (field? key value).getD .null

/-! ## Walks that raised nothing -/

theorem bind_eq_ok {ε α β : Type} {x : Except ε α} {f : α → Except ε β} {b : β} :
    x >>= f = .ok b ↔ ∃ a, x = .ok a ∧ f a = .ok b := by
  cases x <;> simp [bind, Except.bind]

theorem map_eq_ok {ε α β : Type} {x : Except ε α} {f : α → β} {b : β} :
    x.map f = .ok b ↔ ∃ a, x = .ok a ∧ f a = b := by
  cases x <;> simp [Except.map]

/-- No condition of an `or` that is false raised or was true. -/
theorem anyTrue_eq_false {cs : List (Except PyError Bool)} :
    anyTrue cs = .ok false ↔ ∀ c ∈ cs, c = .ok false := by
  induction cs with
  | nil => simp [anyTrue]
  | cons c cs ih =>
      cases c with
      | error e => simp [anyTrue, bind, Except.bind]
      | ok b => cases b <;> simp [anyTrue, bind, Except.bind, ih]

/-- Every condition of an `and` that is true was true. -/
theorem allTrue_eq_true {cs : List (Except PyError Bool)} :
    allTrue cs = .ok true ↔ ∀ c ∈ cs, c = .ok true := by
  induction cs with
  | nil => simp [allTrue]
  | cons c cs ih =>
      cases c with
      | error e => simp [allTrue, bind, Except.bind]
      | ok b => cases b <;> simp [allTrue, bind, Except.bind, ih]

/-- A comprehension that raised nothing asked of every entry, and kept those it was true of. -/
theorem filterTrue_eq_ok {α : Type} {condition : α → Except PyError Bool} {xs ys : List α} :
    filterTrue condition xs = .ok ys ↔ (∀ x ∈ xs, ∃ b, condition x = .ok b) ∧
      ys = xs.filter fun x => (condition x).toOption.getD false := by
  induction xs generalizing ys with
  | nil => simp [filterTrue, eq_comm]
  | cons x xs ih =>
      cases hc : condition x with
      | error e => simp [filterTrue, hc, bind, Except.bind]
      | ok b =>
          simp only [filterTrue, hc, bind_eq_ok, Except.ok.injEq, exists_eq_left', ih,
            List.forall_mem_cons, exists_eq', true_and, List.filter_cons, Except.toOption,
            Option.getD_some]
          constructor
          · rintro ⟨_, ⟨hall, rfl⟩, h⟩
            cases h
            exact ⟨hall, rfl⟩
          · rintro ⟨hall, rfl⟩
            exact ⟨_, ⟨hall, rfl⟩, rfl⟩

/-- A loop that raised nothing did not raise for any entry. -/
theorem mapM_eq_ok {ε α β : Type} {f : α → Except ε β} {xs : List α} {ys : List β} :
    xs.mapM f = .ok ys ↔ xs.map f = ys.map .ok := by
  induction xs generalizing ys with
  | nil => cases ys <;> simp [pure, Except.pure]
  | cons x xs ih =>
      rw [List.mapM_cons, List.map_cons, bind_eq_ok]
      constructor
      · rintro ⟨y, hy, h⟩
        obtain ⟨ys', hys, h⟩ := bind_eq_ok.1 h
        cases h
        rw [hy, ih.1 hys, List.map_cons]
      · intro h
        cases ys with
        | nil => cases h
        | cons y ys =>
            obtain ⟨hy, hys⟩ := List.cons.inj h
            exact ⟨y, hy, bind_eq_ok.2 ⟨ys, ih.2 hys, rfl⟩⟩

/-- A loop over optional results that has one has one for each entry. -/
theorem mapM_eq_some {α β : Type} {f : α → Option β} {xs : List α} {ys : List β} :
    xs.mapM f = some ys ↔ xs.map f = ys.map some := by
  induction xs generalizing ys with
  | nil => cases ys <;> simp
  | cons x xs ih =>
      rw [List.mapM_cons, List.map_cons]
      cases hx : f x with
      | none => cases ys <;> simp
      | some y =>
          cases hxs : xs.mapM f with
          | none =>
              cases ys with
              | nil => simp
              | cons z zs =>
                  have : ¬ xs.map f = zs.map some := fun h => by rw [ih.2 h] at hxs; cases hxs
                  simp [this]
          | some zs =>
              have := ih.1 hxs
              cases ys with
              | nil => simp
              | cons w ws => simp [this, (Option.some_injective β).list_map.eq_iff]

/-- The results there are, of a loop whose results are optional. -/
theorem reduceOption_of_mapM {ε α β : Type} {f : α → Except ε (Option β)} {xs : List α}
    {ys : List (Option β)} (h : xs.mapM f = .ok ys) :
    ys.reduceOption = xs.filterMap fun x => (f x).toOption.join := by
  have hys : ys.reduceOption = (ys.map (@Except.ok ε (Option β))).filterMap fun r => r.toOption.join := by
    rw [List.filterMap_map]
    rfl
  rw [hys, ← mapM_eq_ok.1 h, List.filterMap_map]
  rfl

@[simp] theorem member_obj (key : String) (fs : List (String × Json)) :
    member key (.obj fs) = (fs.lookup key).getD .null := rfl

theorem get_eq_member {key : String} {value v : Json} (h : get key value = .ok v) :
    v = member key value := by
  cases value <;> simp_all [get, getD]

/-- Below a member that is taken to be empty where it is absent, there is nothing. -/
theorem get_of_getD {key key' : String} {value inner v : Json}
    (h : getD key (.obj []) value = .ok inner) (h' : get key' inner = .ok v) :
    v = member key' (member key value) := by
  cases value with
  | obj fs =>
      cases hk : fs.lookup key with
      | none =>
          simp only [getD, hk, Option.getD_none, Except.ok.injEq] at h
          subst h
          simpa [get, getD, hk, member, field?, eq_comm] using h'
      | some w =>
          simp only [getD, hk, Option.getD_some, Except.ok.injEq] at h
          subst h
          simpa [hk] using get_eq_member h'
  | _ => cases h

@[simp] theorem subscript_obj {key : String} {fs : List (String × Json)} {v : Json} :
    subscript key (.obj fs) = .ok v ↔ fs.lookup key = some v := by
  simp only [subscript]
  cases fs.lookup key <;> simp

theorem subscript_eq_member {key : String} {value v : Json} (h : subscript key value = .ok v) :
    v = member key value := by
  cases value with
  | obj fs => rw [member_obj, subscript_obj.1 h, Option.getD_some]
  | _ => cases h

theorem get_eq_ok {key : String} {value v : Json} (h : get key value = .ok v) :
    ∃ fs, value = .obj fs ∧ (fs.lookup key).getD .null = v := by
  cases value <;> simp_all [get, getD]

theorem subscript_eq_ok {key : String} {value v : Json} (h : subscript key value = .ok v) :
    ∃ fs, value = .obj fs ∧ fs.lookup key = some v := by
  cases value with
  | obj fs => exact ⟨fs, rfl, subscript_obj.1 h⟩
  | _ => simp [subscript] at h

end Json
