import AutonomyLab.Json.Python

/-!
# Checks of decoded records

The studies check what they read back: a check that fails refuses the whole record with a
reason, and a walk through a record of another shape raises.

* `require` — the check.
* `finite?`, `finiteOr`, `number?` — the numbers that are finite, in a record of unknown shape.
-/

namespace AutonomyLab.Check

open Json

/-- How the checks of a record may end other than by passing. -/
inductive Failure where
  | refused (reason : String)
  | python (e : PyError)
  | overflowError
  | zeroDivisionError
  deriving DecidableEq

/-- `require`. -/
def require (condition : Prop) [Decidable condition] (reason : String) : Except Failure Unit :=
  if condition then .ok () else .error (.refused reason)

/-- What a walk through a record raises. -/
def walk {α : Type} (r : Except PyError α) : Except Failure α := r.mapError .python

/-- The number a value is, where its type is `int` or `float` and it is finite; an integer that
rounds to none of the floats makes `math.isfinite` raise. -/
def finite? : Json → Except Failure (Option ℚ)
  | .int n => if 2 ^ 1024 - 2 ^ 970 ≤ n.natAbs then .error .overflowError else .ok (some n)
  | .float q => .ok (some q)
  | _ => .ok none

/-- A number that is finite, or a refusal. -/
def finiteOr (reason : String) (value : Json) : Except Failure ℚ := do
  match ← finite? value with
  | some q => return q
  | none => throw (.refused reason)

/-- The number a value is, where it is one and finite. -/
def number? (value : Json) : Option ℚ := (finite? value).toOption.join

theorem finiteOr_toOption (reason : String) (value : Json) :
    (finiteOr reason value).toOption = number? value := by
  unfold finiteOr number?
  cases finite? value with
  | error e => rfl
  | ok q => cases q <;> rfl

theorem require_eq_ok {condition : Prop} [Decidable condition] {reason : String} {u : Unit} :
    require condition reason = .ok u ↔ condition := by
  unfold require
  split
  · rename_i h
    exact ⟨fun _ => h, fun _ => rfl⟩
  · rename_i h
    exact ⟨nofun, fun h' => absurd h' h⟩

theorem walk_ok {α : Type} (a : α) : walk (.ok a) = .ok a := rfl

theorem ok_bind {α β ε : Type} (a : α) (f : α → Except ε β) : Except.ok a >>= f = f a := rfl

theorem eq_ok_iff_toOption {α ε : Type} {r : Except ε α} {a : α} : r = .ok a ↔ r.toOption = some a := by
  cases r with
  | error e => exact ⟨nofun, nofun⟩
  | ok b =>
      exact ⟨fun h => by cases h; rfl, fun h => by cases h; rfl⟩

theorem walk_eq_ok {α : Type} {r : Except PyError α} {a : α} : walk r = .ok a ↔ r = .ok a := by
  cases r with
  | error e => exact ⟨nofun, nofun⟩
  | ok b =>
      exact ⟨fun h => by cases h; rfl, fun h => by cases h; rfl⟩

end AutonomyLab.Check
