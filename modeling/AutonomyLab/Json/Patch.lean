import AutonomyLab.Json.Value

/-!
# JSON Pointer and JSON Patch

The two small languages by which a change to a JSON document is written down: a
**pointer** is a path into a document, a **patch** a sequence of operations at
such paths.

* `Pointer.escape`, `Pointer.tokens` — how a name is written into a pointer, and
  how a pointer is read; `Pointer.unescape_escape` says that a name survives.
* `resolve`, `modifyAt` — the value at a path, and a document changed there.
* `Op`, `applyOp`, `applyPatch` — the six operations, and the application of a
  whole patch.  An operation whose target is not there, and a `test` that finds
  another value, fail; one failed operation fails the patch, and `patched` is then
  the document as it was.
-/

namespace Json

/-! ## Pointers -/

namespace Pointer

/-- A name as it is written into a pointer. -/
def escape : List Char → List Char
  | [] => []
  | '~' :: cs => '~' :: '0' :: escape cs
  | '/' :: cs => '~' :: '1' :: escape cs
  | c :: cs => c :: escape cs

/-- The name a part of a pointer stands for. -/
def unescape : List Char → Option (List Char)
  | [] => some []
  | '~' :: '0' :: cs => (unescape cs).map ('~' :: ·)
  | '~' :: '1' :: cs => (unescape cs).map ('/' :: ·)
  | '~' :: _ => none
  | c :: cs => (unescape cs).map (c :: ·)

/-- The parts between slashes. -/
def split : List Char → List (List Char)
  | [] => [[]]
  | c :: cs =>
      if c = '/' then [] :: split cs
      else match split cs with
        | [] => [[c]]
        | t :: ts => (c :: t) :: ts

/-- The path a pointer denotes: the empty pointer is the whole document, and every
other one starts with a slash. -/
def tokens (p : String) : Option (List String) :=
  match p.toList with
  | [] => some []
  | '/' :: cs => (split cs).mapM fun t => (unescape t).map String.ofList
  | _ => none

theorem unescape_cons {c : Char} (h : c ≠ '~') (cs : List Char) :
    unescape (c :: cs) = (unescape cs).map (c :: ·) := by
  conv_lhs => unfold unescape
  split <;> simp_all

theorem escape_cons {c : Char} (h : c ≠ '~') (h' : c ≠ '/') (cs : List Char) :
    escape (c :: cs) = c :: escape cs := by
  conv_lhs => unfold escape
  split <;> simp_all

/-- **A name survives being written into a pointer.** -/
theorem unescape_escape (cs : List Char) : unescape (escape cs) = some cs := by
  induction cs with
  | nil => rfl
  | cons c cs ih =>
      by_cases h : c = '~'
      · subst h; simp [escape, unescape, ih]
      · by_cases h' : c = '/'
        · subst h'; simp [escape, unescape, ih]
        · rw [escape_cons h h', unescape_cons h, ih, Option.map_some]

/-- A name without the two characters that are escaped stands for itself. -/
theorem unescape_plain {t : List Char} (h : '~' ∉ t) : unescape t = some t := by
  induction t with
  | nil => rfl
  | cons c cs ih =>
      have hc : c ≠ '~' := by
        rintro rfl
        exact h List.mem_cons_self
      rw [unescape_cons hc, ih fun hm => h (List.mem_cons_of_mem c hm), Option.map_some]

theorem split_plain {t : List Char} (h : '/' ∉ t) : split t = [t] := by
  induction t with
  | nil => rfl
  | cons c cs ih =>
      have hc : c ≠ '/' := by
        rintro rfl
        exact h List.mem_cons_self
      rw [split, if_neg hc, ih fun hm => h (List.mem_cons_of_mem c hm)]

theorem split_append {t cs : List Char} (h : '/' ∉ t) :
    split (t ++ '/' :: cs) = t :: split cs := by
  induction t with
  | nil => rw [List.nil_append, split, if_pos rfl]
  | cons c t ih =>
      have hc : c ≠ '/' := by
        rintro rfl
        exact h List.mem_cons_self
      rw [List.cons_append, split, if_neg hc, ih fun hm => h (List.mem_cons_of_mem c hm)]

/-- The number of an array entry: digits, without a leading zero. -/
def index? (t : String) : Option ℕ :=
  match t.toList with
  | [] => none
  | ['0'] => some 0
  | '0' :: _ => none
  | cs => if cs.all Char.isDigit then some (cs.foldl (fun n c => 10 * n + (c.toNat - 48)) 0) else none

end Pointer

/-! ## Values at a path -/

/-- The value at a path, where there is one. -/
def resolve : List String → Json → Option Json
  | [], d => some d
  | k :: ks, .obj fs => (fs.lookup k).bind (resolve ks)
  | k :: ks, .arr xs => (Pointer.index? k).bind fun i => xs[i]?.bind (resolve ks)
  | _ :: _, _ => none

/-- The document with the value at a path changed by `f`, where `f` can. -/
def modifyAt (f : Json → Option Json) : List String → Json → Option Json
  | [], d => f d
  | k :: ks, .obj fs => (fs.lookup k).bind fun c =>
      (modifyAt f ks c).map fun c' => .obj (setField k c' fs)
  | k :: ks, .arr xs => (Pointer.index? k).bind fun i => xs[i]?.bind fun c =>
      (modifyAt f ks c).map fun c' => .arr (xs.set i c')
  | _ :: _, _ => none

/-- Put `v` under the name `k`, or before the entry numbered `k`; `-` is the place
after the last entry. -/
def addChild (k : String) (v : Json) : Json → Option Json
  | .obj fs => some (.obj (setField k v fs))
  | .arr xs =>
      if k = "-" then some (.arr (xs ++ [v]))
      else (Pointer.index? k).bind fun i =>
        if i ≤ xs.length then some (.arr (xs.insertIdx i v)) else none
  | _ => none

/-- Take away the member `k`, or the entry numbered `k`. -/
def removeChild (k : String) : Json → Option Json
  | .obj fs => (fs.lookup k).map fun _ => .obj (eraseField k fs)
  | .arr xs => (Pointer.index? k).bind fun i =>
      if i < xs.length then some (.arr (xs.eraseIdx i)) else none
  | _ => none

/-- Put `v` at a path; only the last part of the path may be new. -/
def addAt (path : List String) (v : Json) (d : Json) : Option Json :=
  match path.getLast? with
  | none => some v
  | some k => modifyAt (addChild k v) path.dropLast d

/-- Take away what is at a path. -/
def removeAt (path : List String) (d : Json) : Option Json :=
  match path.getLast? with
  | none => none
  | some k => modifyAt (removeChild k) path.dropLast d

/-- Put `v` in place of what is at a path. -/
def replaceAt (path : List String) (v : Json) (d : Json) : Option Json :=
  modifyAt (fun _ => some v) path d

/-- A path is followed one part at a time. -/
theorem modifyAt_cons (f : Json → Option Json) (k : String) (ks : List String) :
    modifyAt f (k :: ks) = modifyAt (modifyAt f ks) [k] := by
  funext d
  cases d <;> rfl

theorem modifyAt_single (f : Json → Option Json) (k : String) (fs : List (String × Json)) :
    modifyAt f [k] (.obj fs) =
      (fs.lookup k).bind fun c => (f c).map fun c' => .obj (setField k c' fs) := rfl

/-- Two changes of one member are one change of it. -/
theorem modifyAt_bind (f g : Json → Option Json) (k : String) (fs : List (String × Json)) :
    (modifyAt f [k] (.obj fs)).bind (modifyAt g [k]) =
      modifyAt (fun c => (f c).bind g) [k] (.obj fs) := by
  rw [modifyAt_single, modifyAt_single]
  cases fs.lookup k with
  | none => rfl
  | some c =>
      cases hf : f c with
      | none => simp [hf]
      | some c' => simp [hf, modifyAt_single, setField_setField]

/-! ## Patches -/

/-- One operation of a patch. -/
inductive Op where
  | test (path : String) (value : Json)
  | add (path : String) (value : Json)
  | replace (path : String) (value : Json)
  | remove (path : String)
  | copy (source path : String)
  | move (source path : String)
  deriving DecidableEq, Repr

/-- The object an operation is written as. -/
def Op.toJson : Op → Json
  | .test path value => .obj [("op", .str "test"), ("path", .str path), ("value", value)]
  | .add path value => .obj [("op", .str "add"), ("path", .str path), ("value", value)]
  | .replace path value => .obj [("op", .str "replace"), ("path", .str path), ("value", value)]
  | .remove path => .obj [("op", .str "remove"), ("path", .str path)]
  | .copy source path =>
      .obj [("op", .str "copy"), ("from", .str source), ("path", .str path)]
  | .move source path =>
      .obj [("op", .str "move"), ("from", .str source), ("path", .str path)]

/-- The array a patch is written as. -/
def patchJson (ops : List Op) : Json := .arr (ops.map Op.toJson)

/-- The document after one operation. -/
def applyOp (op : Op) (d : Json) : Option Json :=
  match op with
  | .test path value => do
      let found ← resolve (← Pointer.tokens path) d
      if JsonEq found value then some d else none
  | .add path value => do addAt (← Pointer.tokens path) value d
  | .replace path value => do replaceAt (← Pointer.tokens path) value d
  | .remove path => do removeAt (← Pointer.tokens path) d
  | .copy source path => do
      let value ← resolve (← Pointer.tokens source) d
      addAt (← Pointer.tokens path) value d
  | .move source path => do
      let source ← Pointer.tokens source
      let path ← Pointer.tokens path
      -- nothing can be moved into itself
      if source <+: path ∧ source ≠ path then none
      else do
        let value ← resolve source d
        addAt path value (← removeAt source d)

/-- The document after every operation, if none of them fails. -/
def applyPatch (ops : List Op) (d : Json) : Option Json := ops.foldlM (fun d op => applyOp op d) d

/-- The document after a request to patch it: all of the patch or none of it. -/
def patched (ops : List Op) (d : Json) : Json := (applyPatch ops d).getD d

@[simp] theorem applyPatch_nil (d : Json) : applyPatch [] d = some d := rfl

theorem applyPatch_cons (op : Op) (ops : List Op) (d : Json) :
    applyPatch (op :: ops) d = (applyOp op d).bind (applyPatch ops) := rfl

theorem applyPatch_append (ops ops' : List Op) (d : Json) :
    applyPatch (ops ++ ops') d = (applyPatch ops d).bind (applyPatch ops') := by
  induction ops generalizing d with
  | nil => rfl
  | cons op ops ih =>
      rw [List.cons_append, applyPatch_cons, applyPatch_cons]
      cases applyOp op d with
      | none => rfl
      | some d' => exact ih d'

theorem applyPatch_single (op : Op) : applyPatch [op] = applyOp op := by
  funext d
  rw [applyPatch_cons]
  cases applyOp op d <;> rfl

/-- A patch that fails leaves the document as it was. -/
theorem patched_of_none {ops : List Op} {d : Json} (h : applyPatch ops d = none) :
    patched ops d = d := by rw [patched, h, Option.getD_none]

theorem patched_of_some {ops : List Op} {d d' : Json} (h : applyPatch ops d = some d') :
    patched ops d = d' := by rw [patched, h, Option.getD_some]

/-! ### Single operations, for a path that has been read -/

section
variable {p q : String} {path path' : List String} {v d : Json}

theorem applyOp_test (h : Pointer.tokens p = some path) :
    applyOp (.test p v) d =
      (resolve path d).bind fun found => if JsonEq found v then some d else none := by
  simp [applyOp, h]

theorem applyOp_add (h : Pointer.tokens p = some path) :
    applyOp (.add p v) d = addAt path v d := by
  simp [applyOp, h]

theorem applyOp_replace (h : Pointer.tokens p = some path) :
    applyOp (.replace p v) d = replaceAt path v d := by
  simp [applyOp, h]

theorem applyOp_remove (h : Pointer.tokens p = some path) :
    applyOp (.remove p) d = removeAt path d := by
  simp [applyOp, h]

theorem applyOp_copy (h : Pointer.tokens p = some path) (h' : Pointer.tokens q = some path') :
    applyOp (.copy p q) d = (resolve path d).bind fun v => addAt path' v d := by
  simp [applyOp, h, h']

theorem applyOp_move (h : Pointer.tokens p = some path) (h' : Pointer.tokens q = some path')
    (hne : ¬ path <+: path') :
    applyOp (.move p q) d =
      (resolve path d).bind fun v => (removeAt path d).bind fun d' => addAt path' v d' := by
  simp [applyOp, h, h', hne]

end

end Json
