import AutonomyLab.Broker.Ledger
import AutonomyLab.Broker.Bindings
import AutonomyLab.Broker.Sound

/-!
# Brokers that share a journal

Any number of broker instances on one journal, with adapters, hooks and authorizers of
which nothing is known.  Instances start at any time, calls are made at any time on any
instance that has been started, and any threads may die at any time.

* `outside`, `shared` — such instances, and the system of them.
* `sound_shared` — all their calls follow the protocol.
* `Shared.trace`, `Shared.preserved` — so every reachable view is the end of a protocol
  history, and what every act preserves is preserved by every run.
-/

namespace AutonomyLab.Broker

open Json Contract Process

/-- Code outside: it answers anything, or raises anything. -/
def answer (β : Type) : Program Unit Empty β := do
  Proc.ofExcept (← Proc.ask (Except BrokerError β))

/-- An instance with an adapter, hooks and an authorizer from outside. -/
def outside (self : String) (authorized : Bool) : ActionBroker Unit Empty where
  self := self
  getService _ _ := answer Json
  patchService _ _ _ := answer Json
  hook _ := answer Unit
  authorize := if authorized then some fun _ _ _ => answer Unit else none

/-- Configurations of brokers. -/
abbrev Brokers : Type 1 := Conf (World Unit) (Label Empty) String BrokerError Journal.Operation

section
variable (P : Platform)

/-- The calls of instances that have been started. -/
def sharedCalls (c : Brokers) (o : String) (prog : Program Unit Empty Journal.Operation) : Prop :=
  c.view.world.policies o ≠ none ∧
    ∃ authorized, ∃ call : Call, prog = call.run P (outside o authorized)

/-- Brokers on the journal `j₀`, before any of them has started. -/
def shared (j₀ : Journal) : System (World Unit) (Label Empty) String BrokerError Journal.Operation :=
  brokers (fun w => w = ⟨j₀, none, fun _ => none, ()⟩) (sharedCalls P)

variable {P} {j₀ : Journal}

theorem sane_init (h₀ : j₀.Sane) {w : World Unit} (hw : w = ⟨j₀, none, fun _ => none, ()⟩) :
    w.journal.Sane := hw ▸ h₀

/-- The logic of brokers on the journal `j₀`. -/
def sharedLogic (P : Platform) (h₀ : j₀.Sane) : Logic (shared P j₀) :=
  logic (sharedCalls P) (Surroundings.any P (sane_init h₀))

theorem behaves_outside (h₀ : j₀.Sane) (t : ℕ) (o : String) (authorized : Bool) :
    Behaves (sharedCalls P) (Surroundings.any P (sane_init h₀)) t (outside o authorized) := by
  have hanswer : ∀ {β : Type} {K : Seen Unit Empty → Prop}, Kept t K →
      Spec (sharedCalls P) (Surroundings.any P (sane_init h₀)) t o K (answer β) fun _ _ => True :=
    fun hK => .choose fun _ => .ofExcept hK fun _ _ => trivial
  refine ⟨hanswer, hanswer, fun hK _ => hanswer hK, fun {authorize} _ _ _ _ _ ha hK _ => ?_,
    fun _ _ _ _ _ => trivial⟩
  cases authorized with
  | false => cases ha
  | true =>
      obtain rfl : (fun _ _ _ => answer Unit) = authorize := Option.some.inj ha
      exact (hanswer hK).mono fun _ _ _ _ _ => trivial

/-- **All calls of all instances follow the protocol.** -/
theorem sound_shared (h₀ : j₀.Sane) :
    Sound (sharedLogic P h₀) fun t _ r v => Recorded t [] r v := by
  rintro c o prog hc - ⟨-, authorized, call, rfl⟩
  have hfresh : dispatchedBy c.next c.view.hist = [] := by
    rw [List.eq_nil_iff_forall_not_mem]
    intro e he
    obtain ⟨hmem, ht, -⟩ := mem_dispatchedBy.1 he
    exact absurd ht (Nat.ne_of_lt (hc.numbered.hist e hmem))
  exact wp_run (behaves_outside h₀ c.next o authorized) hfresh fun _ _ h => h

/-! ## Runs -/

section
variable {c c' : Brokers}

theorem Shared.trace (h₀ : j₀.Sane) (h : Reachable (shared P j₀) c) :
    Trace P .any j₀ c.view.hist c.view.world.journal := by
  obtain ⟨⟨w₀, rfl, -, ht⟩, -⟩ := (sound (sound_shared h₀) h).inv
  exact ht

/-- What every act preserves and nothing else touches is preserved by every run. -/
theorem Shared.preserved (h₀ : j₀.Sane) {I : Seen Unit Empty → Prop}
    (act : ∀ t o v l w, Trace P .any j₀ v.hist v.world.journal → Act P .any t o v l w → I v →
      I (v.log t o l w))
    (idle : ∀ v v' : Seen Unit Empty, v'.hist = v.hist → v'.world.journal = v.world.journal →
      (∀ o, v.world.policies o ≠ none → v'.world.policies o ≠ none) → I v → I v')
    (h : Reachable (shared P j₀) c) (hs : Steps (shared P j₀) c c') (hI : I c.view) :
    I c'.view := by
  refine preserved_of_guar (sound_shared h₀) (fun v v' hv hstep => ?_) h hs hI
  rcases view_cases hstep with ⟨t, o, l, w, rfl, ⟨w₀, rfl, -, ht⟩, ha⟩ | ⟨hh, hj, hp⟩
  · exact act t o v l w ht ha hv
  · exact idle v v' hh hj hp hv

/-- One step is one act, or nothing that concerns the journal. -/
theorem Shared.step (h₀ : j₀.Sane) (h : Reachable (shared P j₀) c)
    (hs : Step (shared P j₀) c c') :
    (∃ e, c'.view = ⟨e.post, e :: c.view.hist⟩ ∧ e.pre = c.view.world ∧
      Act P .any e.tid e.actor c.view e.label e.post) ∨
    (c'.view.hist = c.view.hist ∧ c'.view.world.journal = c.view.world.journal) := by
  rcases hs.view (sound_shared h₀) h with heq | hstep
  · exact .inr ⟨by rw [heq], by rw [heq]⟩
  · rcases view_cases hstep with ⟨t, o, l, w, heq, -, ha⟩ | ⟨hh, hj, -⟩
    · exact .inl ⟨⟨t, o, l, c.view.world, w⟩, heq, rfl, ha⟩
    · exact .inr ⟨hh, hj⟩

/-- An instance that has acted has been started. -/
theorem Shared.started (h₀ : j₀.Sane) (h : Reachable (shared P j₀) c) {e : Did Unit Empty}
    {o : String} (he : e ∈ c.view.hist) (ho : e.pre.policies o ≠ none) :
    c.view.world.policies o ≠ none := by
  have hall : ∀ e ∈ c.view.hist, e.pre.policies o ≠ none → c.view.world.policies o ≠ none := by
    refine invariant_of_guar (sound_shared h₀)
      (I := fun v => ∀ e ∈ v.hist, e.pre.policies o ≠ none → v.world.policies o ≠ none)
      (fun w _ e he => by simp at he) (fun v v' hv hstep => ?_) h
    rcases view_cases hstep with ⟨t, i, l, w, rfl, -, ha⟩ | ⟨hh, -, hp⟩
    · intro e he hpre
      rw [View.log_world, ha.policies]
      rcases List.mem_cons.1 he with rfl | he
      · exact hpre
      · exact hv e he hpre
    · exact fun e he hpre => hp o (hv e (hh ▸ he) hpre)
  exact hall e he ho

end

end

end AutonomyLab.Broker
