import Mathlib.Algebra.BigOperators.Group.List.Basic
import Mathlib.Algebra.Order.Ring.Rat
import Mathlib.Data.Fintype.Card
import Mathlib.Data.Prod.Lex
import AutonomyLab.Check.Refusal
import AutonomyLab.Lane.Interleaved

/-!
# The contextual policy

The policy learns for each context by itself which concurrency level to use.  Its memory
holds, for each context and level, the last rewards and the visit of the last one; each step
first takes in the feedback of the step before, which may belong to another context.

* `Known`, `Known.learn`, `select` — what is known of a context, how feedback changes it, and
  the level chosen by it.
* `step`, `run` — a step of the policy, and a run of the study.
* `run_eq` — **a run is that of a table with a machine for each context**, which `seen_at`
  makes independent of the others.
-/

namespace AutonomyLab.Learning.Contextual

open Json Check Lane

/-! ## What is known of a context -/

/-- The levels, which the dictionaries of a context have as their keys. -/
inductive Level where
  | four
  | two
  | eight
  deriving DecidableEq

def Level.value : Level → ℕ
  | .four => 4
  | .two => 2
  | .eight => 8

def LEVELS : List Level := [.four, .two, .eight]

theorem mem_levels (n : Level) : n ∈ LEVELS := by cases n <;> decide

instance : Fintype Level := .ofList LEVELS mem_levels

/-- The level of an action, whose text is the key. -/
def levelOf (action : ℕ) : Except Failure Level :=
  match LEVELS.find? fun n => n.value = action with
  | some n => .ok n
  | none => .error (.python .keyError)

theorem levelOf_value (n : Level) : levelOf n.value = .ok n := by cases n <;> rfl

structure Known where
  visits : ℕ
  rewards : Level → List ℚ
  lastSeen : Level → ℤ
  resets : ℕ

/-- `empty`. -/
def empty : Known where
  visits := 0
  rewards _ := []
  lastSeen _ := -1
  resets := 0

/-- `sum(history) / len(history)`, which is taken of no empty history. -/
def average (history : List ℚ) : ℚ := history.sum / history.length

/-- A measured drop below what the level has yielded. -/
def Dropped (known : Known) (action : Level) (reward : ℚ) : Prop :=
  2 ≤ (known.rewards action).length ∧ reward < average (known.rewards action) - 3 / 25

instance (known : Known) (action : Level) (reward : ℚ) : Decidable (Dropped known action reward) :=
  inferInstanceAs (Decidable (_ ∧ _))

/-- A reward is added to what is known. -/
def Known.record (known : Known) (action : Level) (reward : ℚ) : Known :=
  let rewards := known.rewards action ++ [reward]
  { known with
    rewards := Function.update known.rewards action (rewards.drop (rewards.length - 4))
    lastSeen := Function.update known.lastSeen action known.visits
    visits := known.visits + 1 }

/-- What is known after feedback: where the reward has dropped, the context is acquired anew. -/
def Known.learn (known : Known) (action : Level) (reward : ℚ) : Known :=
  if Dropped known action reward then
    { empty with resets := known.resets + 1 }.record action reward
  else known.record action reward

/-! ## The level that is chosen -/

/-- The first of the best: one that comes later takes over only where it is better. -/
def best {α : Type} (better : α → α → Prop) [DecidableRel better] : α → List α → α
  | a, [] => a
  | a, b :: bs => best better (if better b a then b else a) bs

/-- `min(LEVELS, key=lambda n: known['last_seen'][str(n)])`. -/
def leastRecent (known : Known) : Level :=
  best (fun b a => known.lastSeen b < known.lastSeen a) .four [.two, .eight]

/-- `max(LEVELS, key=lambda n: (average, -n))`. -/
def mostRewarding (known : Known) : Level :=
  let key (n : Level) : ℚ ×ₗ ℤ := toLex (average (known.rewards n), -(n.value : ℤ))
  best (fun b a => key a < key b) .four [.two, .eight]

def unseen (known : Known) : List Level := LEVELS.filter fun n => (known.rewards n).length < 2

def select (known : Known) : Level :=
  match unseen known with
  | action :: _ => action
  | [] => if known.visits % 6 = 0 then leastRecent known else mostRewarding known

/-! ## A step of the policy -/

structure Feedback where
  timelyCorrect : ℕ
  offered : ℕ

/-- `feedback['timely_correct'] / feedback['offered']`. -/
def Feedback.reward (feedback : Feedback) : Except Failure ℚ :=
  if feedback.offered = 0 then .error .zeroDivisionError
  else .ok (feedback.timelyCorrect / feedback.offered)

abbrev Contexts := Table String Known

structure Previous where
  context : String
  action : ℕ
  feedback : Feedback

structure Observation where
  context : String
  /-- Nothing where it is an empty dictionary. -/
  memory : Option Contexts
  previous : Option Previous

structure Decision where
  action : ℕ
  memory : Contexts

/-- The key of a context; the comparator that is blind to contexts has one key for all. -/
def keyOf (CONTEXT_BLIND : Bool) (context : String) : String := if CONTEXT_BLIND then "*" else context

/-- The feedback of the step before is taken in. -/
def deliver (CONTEXT_BLIND : Bool) (contexts : Contexts) : Option Previous → Except Failure Contexts
  | none => .ok contexts
  | some previous => do
      let key := keyOf CONTEXT_BLIND previous.context
      let known := stateAt empty contexts key
      let reward ← previous.feedback.reward
      let action ← levelOf previous.action
      return contexts.insert key (known.learn action reward)

/-- `step`. -/
def step (CONTEXT_BLIND : Bool) (observation : Observation) : Except Failure Decision := do
  let contexts ← deliver CONTEXT_BLIND (observation.memory.getD ∅) observation.previous
  let key := keyOf CONTEXT_BLIND observation.context
  let known := stateAt empty contexts key
  return { action := (select known).value, memory := contexts.insert key known }

/-! ## A run of the study -/

/-- A context that comes up, and the feedback its action is given. -/
structure Visit where
  context : String
  feedback : Feedback

/-- A step that was taken. -/
structure Choice where
  context : String
  decision : Decision
  feedback : Feedback

def Choice.previous (choice : Choice) : Previous where
  context := choice.context
  action := choice.decision.action
  feedback := choice.feedback

/-- `observation`. -/
def observation (last : Option Choice) (context : String) : Observation where
  context := context
  memory := last.map fun choice => choice.decision.memory
  previous := last.map Choice.previous

/-- The memory after the last step, once its feedback is taken in. -/
def delivered (CONTEXT_BLIND : Bool) (last : Option Choice) : Except Failure Contexts :=
  deliver CONTEXT_BLIND ((last.map fun choice => choice.decision.memory).getD ∅)
    (last.map Choice.previous)

/-- A step at each visit, after the last one. -/
def run (CONTEXT_BLIND : Bool) : Option Choice → List Visit → Except Failure (List Choice)
  | _, [] => .ok []
  | last, visit :: visits => do
      let decision ← step CONTEXT_BLIND (observation last visit.context)
      let choice : Choice := { context := visit.context, decision, feedback := visit.feedback }
      let choices ← run CONTEXT_BLIND (some choice) visits
      return choice :: choices

/-- What a context sees of a run: the actions at its visits, and what is known of it there. -/
def view (context : String) (choices : List Choice) : List (ℕ × Option Known) :=
  (choices.filter fun choice => choice.context = context).map fun choice =>
    (choice.decision.action, choice.decision.memory.lookup context)

/-! ## A run is that of a table -/

def Visit.reward (visit : Visit) : ℚ := visit.feedback.timelyCorrect / visit.feedback.offered

/-- The machine of a context: it takes the reward of the level that it has chosen. -/
def Known.serve (known : Known) (reward : ℚ) : Known := known.learn (select known) reward

def Visit.input (visit : Visit) : String × ℚ := (visit.context, visit.reward)

/-- A step, by the table of what is known. -/
def decisionOf (table : Contexts) (context : String) : Decision where
  action := (select (stateAt empty table context)).value
  memory := table.insert context (stateAt empty table context)

def choiceOf (table : Contexts) (visit : Visit) : Choice where
  context := visit.context
  decision := decisionOf table visit.context
  feedback := visit.feedback

/-- The steps of a run, by the table of what is known. -/
def choicesOf (table : Contexts) : List Visit → List Choice
  | [] => []
  | visit :: visits =>
      choiceOf table visit :: choicesOf (serveAt empty Known.serve table visit.input) visits

theorem step_eq {last : Option Choice} {table : Contexts} (h : delivered false last = .ok table)
    (context : String) : step false (observation last context) = .ok (decisionOf table context) := by
  unfold step
  rw [show deliver false ((observation last context).memory.getD ∅) (observation last context).previous =
    .ok table from h]
  rfl

/-- The feedback of a step reaches the machine of its context. -/
theorem delivered_choiceOf (table : Contexts) {visit : Visit} (h : visit.feedback.offered ≠ 0) :
    delivered false (some (choiceOf table visit)) =
      .ok (serveAt empty Known.serve table visit.input) := by
  unfold delivered deliver
  simp only [Option.map_some, Option.getD_some, Choice.previous, choiceOf, decisionOf, keyOf,
    Feedback.reward, if_neg h, ok_bind, levelOf_value, stateAt_insert, Bool.false_eq_true, if_false]
  rw [serveAt, AList.insert_insert]
  rfl

theorem run_cons {last : Option Choice} {table : Contexts} (h : delivered false last = .ok table)
    (visit : Visit) (visits : List Visit) :
    run false last (visit :: visits) =
      (run false (some (choiceOf table visit)) visits).map fun choices =>
        choiceOf table visit :: choices := by
  rw [run, step_eq h, ok_bind]
  change run false (some (choiceOf table visit)) visits >>= _ = _
  cases run false (some (choiceOf table visit)) visits <;> rfl

theorem getLast?_cons_or {α : Type} (a : α) (l : List α) (last : Option α) :
    (a :: l).getLast?.or last = l.getLast?.or (some a) := by
  rw [List.getLast?_cons]
  cases l.getLast? <;> rfl

/-- **A run is that of a table with a machine for each context.** -/
theorem run_eq {last : Option Choice} {table : Contexts} (hlast : delivered false last = .ok table)
    {visits : List Visit} (h : ∀ visit ∈ visits, visit.feedback.offered ≠ 0) :
    run false last visits = .ok (choicesOf table visits) ∧
      delivered false ((choicesOf table visits).getLast?.or last) =
        .ok (serveAll empty Known.serve table (visits.map Visit.input)) := by
  induction visits generalizing last table with
  | nil => exact ⟨rfl, hlast⟩
  | cons visit visits ih =>
      obtain ⟨hvisit, hvisits⟩ := List.forall_mem_cons.1 h
      obtain ⟨hrun, hend⟩ := ih (delivered_choiceOf table hvisit) hvisits
      constructor
      · rw [run_cons hlast, hrun]
        rfl
      · rw [choicesOf, getLast?_cons_or, hend]
        rfl

/-- In a run whose feedback was taken in, requests were offered at each visit. -/
theorem offered_ne_zero {last : Option Choice} {visits : List Visit} {taken : List Choice}
    {memory : Contexts} (hrun : run false last visits = .ok taken)
    (hend : delivered false (taken.getLast?.or last) = .ok memory) :
    (∃ table, delivered false last = .ok table) ∧ ∀ visit ∈ visits, visit.feedback.offered ≠ 0 := by
  induction visits generalizing last taken with
  | nil =>
      cases hrun
      exact ⟨⟨memory, hend⟩, List.forall_mem_nil _⟩
  | cons visit visits ih =>
      obtain ⟨decision, hstep, hrest⟩ := bind_eq_ok.1 hrun
      obtain ⟨choices, hchoices, htaken⟩ := bind_eq_ok.1 hrest
      cases htaken
      rw [getLast?_cons_or] at hend
      obtain ⟨⟨table, htable⟩, hvisits⟩ := ih hchoices hend
      obtain ⟨contexts, hcontexts, -⟩ := bind_eq_ok.1 hstep
      refine ⟨⟨contexts, hcontexts⟩, List.forall_mem_cons.2 ⟨fun hzero => ?_, hvisits⟩⟩
      -- the next step has divided by the number of requests
      obtain ⟨reward, hreward, -⟩ := bind_eq_ok.1 htable
      rw [Choice.previous, Feedback.reward, if_pos hzero] at hreward
      cases hreward

theorem view_choicesOf (context : String) (table : Contexts) (visits : List Visit) :
    view context (choicesOf table visits) =
      (lane Known.serve (stateAt empty table context) (inputsAt context (visits.map Visit.input))).map
        fun known => ((select known).value, some known) := by
  rw [← seen_at, view]
  induction visits generalizing table with
  | nil => rfl
  | cons visit visits ih =>
      rw [choicesOf, List.map_cons, seen, List.filter_cons, List.filter_cons]
      by_cases h : visit.context = context
      · subst h
        simp [Visit.input, choiceOf, decisionOf, ih]
      · simp [Visit.input, choiceOf, decisionOf, h, ih]

end AutonomyLab.Learning.Contextual
