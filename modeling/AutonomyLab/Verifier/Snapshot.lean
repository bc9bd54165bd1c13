import Mathlib.Data.Finset.Dedup
import AutonomyLab.Json.Python

/-!
# The classification of a snapshot

`verifier.py`: what one complete observation of the application shows.  The parts of a
snapshot are read one by one; what is damaged goes to the failures, what could not be
observed to the unknowns, and a failure decides whatever else is unknown.

* `strictEqual` — equality that keeps the types apart, and `StrictEq`, what it decides.
* `Expectations` — the independent fixture.
* `findings` — the two lists of reasons.
* `evaluateSnapshot` — the verdict.
-/

namespace AutonomyLab.Verifier

open Json

/-! ## Strict equality -/

mutual

/-- `_strict_equal`, by the actual value and the expected one. -/
def strictEqual : Json → Json → Bool
  | .null, .null => true
  | .bool b, .bool b' => b = b'
  | .int n, .int n' => n = n'
  | .float q, .float q' => q = q'
  | .str s, .str s' => s = s'
  | .arr xs, .arr ys => strictEqualList xs ys
  | .obj fs, .obj gs => fs.all (fun p => (gs.lookup p.1).isSome) && strictEqualFields [] fs gs
  | _, _ => false

def strictEqualList : List Json → List Json → Bool
  | [], [] => true
  | x :: xs, y :: ys => strictEqual x y && strictEqualList xs ys
  | _, _ => false

/-- The loop over the expected members; an entry behind one of its name is no member. -/
def strictEqualFields (seen : List String) (fs : List (String × Json)) :
    List (String × Json) → Bool
  | [] => true
  | (k, y) :: gs =>
      (k ∈ seen || match fs.lookup k with
        | some x => strictEqual x y
        | none => false) && strictEqualFields (k :: seen) fs gs

end

/-- Equal at every depth, and of one type at every depth. -/
inductive StrictEq : Json → Json → Prop
  | null : StrictEq .null .null
  | bool (b : Bool) : StrictEq (.bool b) (.bool b)
  | int (n : ℤ) : StrictEq (.int n) (.int n)
  | float (q : ℚ) : StrictEq (.float q) (.float q)
  | str (s : String) : StrictEq (.str s) (.str s)
  | arr {xs ys : List Json} (entries : List.Forall₂ StrictEq xs ys) : StrictEq (.arr xs) (.arr ys)
  /-- Members under the same names, equal under each name. -/
  | obj {fs gs : List (String × Json)} (keys : ∀ k, (fs.lookup k).isSome = (gs.lookup k).isSome)
      (members : ∀ k x y, fs.lookup k = some x → gs.lookup k = some y → StrictEq x y) :
      StrictEq (.obj fs) (.obj gs)

theorem strictEqualFields_iff {fs gs : List (String × Json)} {seen : List String} :
    strictEqualFields seen fs gs = true ↔ ∀ k y, k ∉ seen → gs.lookup k = some y →
      ∃ x, fs.lookup k = some x ∧ strictEqual x y = true := by
  induction gs generalizing seen with
  | nil => simp [strictEqualFields]
  | cons p gs ih =>
      obtain ⟨k, y⟩ := p
      rw [strictEqualFields, Bool.and_eq_true, ih]
      constructor
      · rintro ⟨hhead, htail⟩ k' y' hk' hy'
        rw [lookup_cons_eq] at hy'
        split at hy'
        · rename_i heq
          subst heq
          cases hy'
          rw [Bool.or_eq_true, decide_eq_true_eq] at hhead
          rcases hhead with hseen | hhead
          · exact absurd hseen hk'
          · split at hhead
            · exact ⟨_, by assumption, hhead⟩
            · cases hhead
        · rename_i hne
          refine htail k' y' ?_ hy'
          rw [List.mem_cons, not_or]
          exact ⟨Ne.symm hne, hk'⟩
      · intro h
        refine ⟨?_, fun k' y' hk' hy' => ?_⟩
        · by_cases hseen : k ∈ seen
          · simp [hseen]
          · obtain ⟨x, hx, heq⟩ := h k y hseen (by rw [lookup_cons_eq, if_pos rfl])
            simp [hx, heq]
        · rw [List.mem_cons, not_or] at hk'
          exact h k' y' hk'.2 (by rw [lookup_cons_eq, if_neg (Ne.symm hk'.1)]; exact hy')

theorem strictEqualList_iff {xs ys : List Json} :
    strictEqualList xs ys = true ↔ List.Forall₂ (fun x y => strictEqual x y = true) xs ys := by
  induction xs generalizing ys with
  | nil => cases ys <;> simp [strictEqualList]
  | cons x xs ih => cases ys <;> simp [strictEqualList, ih]

theorem keys_all_iff {fs gs : List (String × Json)} :
    fs.all (fun p => (gs.lookup p.1).isSome) = true ↔
      ∀ k, (fs.lookup k).isSome = true → (gs.lookup k).isSome = true := by
  rw [List.all_eq_true]
  constructor
  · intro h k hk
    obtain ⟨p, hp, hkey⟩ := List.lookup_isSome_iff.1 hk
    rw [beq_iff_eq] at hkey
    rw [hkey]
    exact h p hp
  · intro h p hp
    exact h p.1 (List.lookup_isSome_iff.2 ⟨p, hp, beq_self_eq_true _⟩)

/-- The loops decide equality at every depth. -/
theorem strictEqual_iff {actual expected : Json} :
    strictEqual actual expected = true ↔ StrictEq actual expected := by
  induction expected using Json.induct generalizing actual with
  | null =>
      refine ⟨fun h => ?_, by rintro ⟨⟩; rfl⟩
      cases actual with
      | null => exact .null
      | _ => cases h
  | bool b =>
      refine ⟨fun h => ?_, by rintro ⟨⟩; exact decide_eq_true rfl⟩
      cases actual with
      | bool b' => exact of_decide_eq_true h ▸ .bool b'
      | _ => cases h
  | int n =>
      refine ⟨fun h => ?_, by rintro ⟨⟩; exact decide_eq_true rfl⟩
      cases actual with
      | int n' => exact of_decide_eq_true h ▸ .int n'
      | _ => cases h
  | float q =>
      refine ⟨fun h => ?_, by rintro ⟨⟩; exact decide_eq_true rfl⟩
      cases actual with
      | float q' => exact of_decide_eq_true h ▸ .float q'
      | _ => cases h
  | str s =>
      refine ⟨fun h => ?_, by rintro ⟨⟩; exact decide_eq_true rfl⟩
      cases actual with
      | str s' => exact of_decide_eq_true h ▸ .str s'
      | _ => cases h
  | arr ys ih =>
      have hentries : ∀ {xs}, List.Forall₂ (fun x y => strictEqual x y = true) xs ys ↔
          List.Forall₂ StrictEq xs ys := by
        intro xs
        simp only [List.forall₂_iff_get]
        refine and_congr_right fun _ => forall₃_congr fun i hx hy => ?_
        exact ih _ (List.get_mem ys ⟨i, hy⟩)
      refine ⟨fun h => ?_, ?_⟩
      · cases actual with
        | arr xs => exact .arr (hentries.1 (strictEqualList_iff.1 h))
        | _ => cases h
      · rintro ⟨⟩
        rename_i xs h
        exact strictEqualList_iff.2 (hentries.2 h)
  | obj gs ih =>
      have hmember : ∀ {k x y}, gs.lookup k = some y →
          (strictEqual x y = true ↔ StrictEq x y) := by
        intro k x y hy
        obtain ⟨l₁, l₂, rfl, -⟩ := List.lookup_eq_some_iff.1 hy
        exact ih (k, y) (List.mem_append_right _ List.mem_cons_self)
      refine ⟨fun h => ?_, ?_⟩
      · cases actual with
        | obj fs =>
            rw [strictEqual, Bool.and_eq_true, keys_all_iff, strictEqualFields_iff] at h
            obtain ⟨hkeys, hmembers⟩ := h
            refine .obj (fun k => ?_) fun k x y hx hy => ?_
            · rw [Bool.eq_iff_iff]
              refine ⟨hkeys k, fun hk => ?_⟩
              obtain ⟨y, hy⟩ := Option.isSome_iff_exists.1 hk
              obtain ⟨x, hx, -⟩ := hmembers k y List.not_mem_nil hy
              rw [hx]
              rfl
            · obtain ⟨x', hx', heq⟩ := hmembers k y List.not_mem_nil hy
              rw [hx] at hx'
              cases hx'
              exact (hmember hy).1 heq
        | _ => cases h
      · rintro ⟨⟩
        rename_i fs hkeys hmembers
        rw [strictEqual, Bool.and_eq_true, keys_all_iff, strictEqualFields_iff]
        refine ⟨fun k hk => hkeys k ▸ hk, fun k y _ hy => ?_⟩
        have hk : (fs.lookup k).isSome = true := by
          rw [hkeys, hy]
          rfl
        obtain ⟨x, hx⟩ := Option.isSome_iff_exists.1 hk
        exact ⟨x, hx, (hmember hy).2 (hmembers k x y hx hy)⟩

instance (actual expected : Json) : Decidable (StrictEq actual expected) :=
  decidable_of_iff _ strictEqual_iff

/-! ## What is expected -/

/-- An entry of `expectations["quotes"]`. -/
structure Case where
  id : String
  statusCode : Json
  /-- There need not be a `body`. -/
  body : Option Json
  deriving DecidableEq

/-- What `load_expectations` returns, where the ids are unique. -/
structure Expectations where
  version : Json
  products : Json
  quotes : List Case
  nodup : (quotes.map Case.id).Nodup

/-- A row of `products`. -/
def product (sku : String) (unitPriceMinor stock : ℤ) : Json := .obj [("sku", .str sku),
  ("unit_price_minor", .int unitPriceMinor), ("stock", .int stock), ("currency", .str "USD")]

/-- The body of a quote. -/
def quoteBody (sku : String) (quantity unitPriceMinor totalMinor : ℤ) (available : Bool) : Json :=
  .obj [("sku", .str sku), ("quantity", .int quantity), ("unit_price_minor", .int unitPriceMinor),
    ("total_minor", .int totalMinor), ("available", .bool available), ("currency", .str "USD")]

/-- `fixtures/expectations.json`. -/
def fixture : Expectations where
  version := .str "m1-quote-v1"
  products := .arr [product "bolt" 125 100, product "motor" 2499 3, product "washer" 25 0]
  quotes := [
    ⟨"available-single", .int 200, some (quoteBody "bolt" 1 125 125 true)⟩,
    ⟨"available-multiple", .int 200, some (quoteBody "bolt" 3 125 375 true)⟩,
    ⟨"insufficient-stock", .int 200, some (quoteBody "motor" 4 2499 9996 false)⟩,
    ⟨"out-of-stock", .int 200, some (quoteBody "washer" 1 25 25 false)⟩,
    ⟨"unknown-product", .int 404, some (.obj [("detail", .str "unknown sku")])⟩,
    ⟨"invalid-quantity", .int 422, none⟩]
  nodup := by decide

inductive Verdict where
  | success
  | failure
  | indeterminate
  deriving DecidableEq, Repr

def Verdict.text : Verdict → String
  | .success => "verified_success"
  | .failure => "verified_failure"
  | .indeterminate => "indeterminate"

structure Assessment where
  verdict : Verdict
  reasons : List String
  deriving DecidableEq

/-! ## The parts of a snapshot -/

/-- `failures` and `unknowns`, as far as one part adds to them. -/
structure Findings where
  failures : List String := []
  unknowns : List String := []
  deriving DecidableEq

def Findings.append (f g : Findings) : Findings :=
  ⟨f.failures ++ g.failures, f.unknowns ++ g.unknowns⟩

instance : Append Findings := ⟨Findings.append⟩

@[simp] theorem Findings.append_failures (f g : Findings) :
    (f ++ g).failures = f.failures ++ g.failures := rfl

@[simp] theorem Findings.append_unknowns (f g : Findings) :
    (f ++ g).unknowns = f.unknowns ++ g.unknowns := rfl

def failed (reason : String) : Findings := { failures := [reason] }

def unknown (reason : String) : Findings := { unknowns := [reason] }

/-- `observation`: a part that is no `dict` is an empty one. -/
def observation (snapshot : Json) (name : String) : Json :=
  match (field? name snapshot).getD (.obj []) with
  | .obj fs => .obj fs
  | _ => .obj []

def controlHealthy (snapshot : Json) (name : String) : Bool :=
  let control := observation snapshot name
  member "kind" control = .str "response" ∧ PyEq (member "status_code" control) (.int 200)

def controlNames : List String := ["quote_control", "inventory_control"]

/-- `controls_healthy`. -/
def controlsHealthy (snapshot : Json) : Bool := controlNames.all (controlHealthy snapshot)

/-- One round of the loop over the controls. -/
def controlFindings (snapshot : Json) (name : String) : Findings :=
  if controlHealthy snapshot name then {}
  else unknown (name ++ ": measurement health control unavailable")

def databaseFindings (expectations : Expectations) (snapshot : Json) : Findings :=
  let database := observation snapshot "database"
  if member "kind" database ≠ .str "rows" then unknown "database: independent read unavailable"
  else if ¬ strictEqual (member "rows" database) expectations.products then
    failed "database: protected product rows differ from independent fixture"
  else {}

/-- The metadata and the spec of the service, where they were read. -/
def serviceRead (snapshot : Json) : Option (Json × Json) :=
  let service := observation snapshot "service"
  let resource := member "resource" service
  if member "kind" service ≠ .str "resource" ∨ ¬ isDict resource ∨
      ¬ isDict (member "metadata" resource) ∨ ¬ isDict (member "spec" resource) then none
  else some (member "metadata" resource, member "spec" resource)

/-- `expected_port`, each value with its text. -/
def expectedPort (expectedTargetPort : ℤ) : List (String × Json × String) := [
  ("name", .str "http", "http"), ("port", .int 80, "80"), ("protocol", .str "TCP", "TCP"),
  ("targetPort", .int expectedTargetPort, toString expectedTargetPort)]

def portFindings (expectedTargetPort : ℤ) (ports : Json) : Findings :=
  match ports with
  | .arr [.obj port] => { failures :=
      ((expectedPort expectedTargetPort).filter fun entry =>
        ¬ strictEqual (member entry.1 (.obj port)) entry.2.1).map fun entry =>
          "service: protected " ++ entry.1 ++ " differs (expected " ++ entry.2.2 ++ ")" }
  | _ => failed "service: protected port list differs"

def serviceFindings (expectedTargetPort : ℤ) (snapshot : Json) : Findings :=
  match serviceRead snapshot with
  | none => unknown "service: independent configuration read unavailable"
  | some (metadata, spec) =>
      (if member "name" metadata ≠ .str "inventory" then
        failed "service: protected name is not inventory" else {}) ++
      (if ¬ PyEq (member "selector" spec) (.obj [("app", .str "inventory")]) then
        failed "service: protected selector differs" else {}) ++
      portFindings expectedTargetPort ((field? "ports" spec).getD (.arr []))

/-! ## The corpus -/

/-- `snapshot.get("quotes", [])`. -/
def quotesValue (snapshot : Json) : Json := (field? "quotes" snapshot).getD (.arr [])

/-- `quotes`, without what is malformed. -/
def quotes (snapshot : Json) : List Json :=
  match quotesValue snapshot with
  | .arr qs => qs.filter isDict
  | _ => []

def quotesMalformed (snapshot : Json) : Bool :=
  match quotesValue snapshot with
  | .arr qs => qs.any fun quote => !isDict quote
  | _ => true

/-- `quote.get("case_id")`, where it is a string. -/
def caseId? (quote : Json) : Option String :=
  match member "case_id" quote with
  | .str id => some id
  | _ => none

/-- The ids are not those of the cases, or one is there twice. -/
def corpusDiffers (expectations : Expectations) (quotes : List Json) : Bool :=
  let actualIds := quotes.filterMap caseId?
  actualIds.length ≠ quotes.length ∨ actualIds.length ≠ actualIds.dedup.length ∨
    actualIds.toFinset ≠ (expectations.quotes.map Case.id).toFinset

def corpusFindings (expectations : Expectations) (snapshot : Json) : Findings :=
  (if quotesMalformed snapshot then unknown "quotes: malformed corpus observations" else {}) ++
  (if corpusDiffers expectations (quotes snapshot) then
    unknown "quotes: corpus is incomplete, duplicated, or contains unknown cases" else {})

section
variable (str : Json → String)

/-- What one entry shows of its case; `str` is how a value is printed. -/
def quoteFindings (snapshot : Json) (case : Case) (quote : Json) : Findings :=
  let start := "quote " ++ case.id
  if member "kind" quote = .str "error" then
    if controlsHealthy snapshot then
      failed (start ++ ": client path failed with healthy measurement controls")
    else unknown (start ++ ": transport failure with unavailable measurement control")
  else if member "kind" quote ≠ .str "response" then unknown (start ++ ": response not observed")
  else if ¬ PyEq (member "status_code" quote) case.statusCode then
    failed (start ++ ": HTTP " ++ str (member "status_code" quote) ++ " (expected " ++
      str case.statusCode ++ ")")
  else if case.body.any fun body => ¬ strictEqual (member "body" quote) body then
    failed (start ++ ": response differs from independent expected result")
  else {}

/-- `matching`. -/
def matching (snapshot : Json) (case : Case) : List Json :=
  (quotes snapshot).filter fun quote => member "case_id" quote = .str case.id

/-- One round of the loop over the cases. -/
def caseFindings (snapshot : Json) (case : Case) : Findings :=
  (if matching snapshot case = [] then unknown ("quote " ++ case.id ++ ": response not observed")
    else {}) ++
  (matching snapshot case).foldr (fun quote rest => quoteFindings str snapshot case quote ++ rest) {}

/-! ## The verdict -/

def findings (expectations : Expectations) (expectedTargetPort : ℤ) (snapshot : Json) : Findings :=
  controlNames.foldr (fun name rest => controlFindings snapshot name ++ rest) {} ++
  databaseFindings expectations snapshot ++ serviceFindings expectedTargetPort snapshot ++
  corpusFindings expectations snapshot ++
  expectations.quotes.foldr (fun case rest => caseFindings str snapshot case ++ rest) {}

/-- `FAILURE if failures else INDETERMINATE if unknowns else SUCCESS`. -/
def Findings.verdict (f : Findings) : Verdict :=
  if f.failures ≠ [] then .failure else if f.unknowns ≠ [] then .indeterminate else .success

/-- `evaluate_snapshot`. -/
def evaluateSnapshot (expectations : Expectations) (expectedTargetPort : ℤ) (snapshot : Json) :
    Assessment :=
  if ¬ isDict snapshot then ⟨.indeterminate, ["verifier snapshot is malformed"]⟩
  else
    let f := findings str expectations expectedTargetPort snapshot
    ⟨f.verdict, f.failures ++ f.unknowns⟩

end

end AutonomyLab.Verifier
