import AutonomyLab.Broker.Progress
import AutonomyLab.Campaign.Episode
import AutonomyLab.Toolbox.Guarantees

/-!
# No progress past an operation that is not settled

Whatever the operators of a campaign are answered, and wherever they are killed: an operation is
proposed or sent only where every other is settled, and an operation that a process has left
unsettled stops every process that follows.

* `triple_operator` — the acts of an operator are careful.
* `stuck`, `triple_operator_stuck` — an operator that finds an operation unsettled proposes nothing
  and sends nothing.
* `campaign_settled` — the campaign.
-/

namespace AutonomyLab.Campaign

open Json Process Sequential Broker Store

variable {P : Toolbox.Platform} {contract : Contract} {j₀ : Journal} {t : ℕ} {o id : String}

/-! ## Operators -/

section
variable {δ δ' : Type} {S : Sequential.System (World Workspace) (Label Deed) String δ δ'} {L : Logic S}
  {K : Seen → Prop} (hK : Stable L t o K)
include hK

theorem triple_escalate {reason : String} {ids : List String} :
    Triple L t o K (escalate reason ids) fun _ v => K v :=
  .bind triple_asked (fun _ => triple_emit hK rfl) fun _ _ h => h

theorem triple_openBroker : Triple L t o K (openBroker contract o) fun _ v => K v := by
  refine .bind triple_asked (fun _ => .bind triple_ofPy (fun _ => .perform fun v a w hv hf => ?_) fun _ _ h => h)
    fun _ _ h => h
  cases hf
  exact hK v (.ext .opened) _ hv ⟨rfl, .refl _⟩

theorem triple_newEpisode : Triple L t o K (newEpisode contract) fun _ v => K v := by
  have hstart : Triple L t o K (startEpisode contract) fun _ v => K v := by
    unfold startEpisode
    split
    · exact triple_asked
    · exact .done fun _ h => h
  refine .bind triple_asked (fun _ => .bind hstart (fun admitted => ?_) fun _ _ h => h) fun _ _ h => h
  cases admitted with
  | false => exact .done fun _ h => h
  | true =>
      refine .bind triple_asked (fun _ => .bind triple_ofPy (fun _ => ?_) fun _ _ h => h) fun _ _ h => h
      exact .bind (triple_setTools hK rfl) (fun _ => .done fun _ h => h) fun _ _ h => h

end

/-- What is known once it is known what is pending. -/
theorem held_of_pending {ids : List String} {v : Seen} (h : Held False v)
    (hids : ids = [] → Clear v.world.journal) (hnone : ¬ids ≠ []) : Held True v :=
  ⟨h.careful, fun _ => hids (not_not.1 hnone)⟩

theorem triple_rounds (n : ℕ) :
    Triple (logic P contract j₀) t o (Held False) (rounds P contract o n) fun _ v => Held False v := by
  induction n with
  | zero => exact .done fun _ h => h
  | succ n ih =>
      refine .bind triple_asked (fun _ => .bind (triple_reconcilePending stable_held) (fun pending => ?_)
        fun _ _ h => h.1) fun _ _ h => h
      split
      · exact (triple_escalate stable_held).mono (fun _ h => h.1) fun _ _ h => h
      rename_i hpending
      refine .mono (A := Held True) ?_ (fun v h => held_of_pending h.1 h.2 hpending) fun _ _ h => h
      refine .bind (triple_newEpisode stable_held) (fun admitted => ?_) fun _ _ h => h.weaken
      cases admitted with
      | false => exact (triple_escalate stable_held).mono (fun _ h => h) fun _ _ h => h.weaken
      | true =>
          refine .bind triple_episode (fun outcome => .bind triple_asked (fun _ => .bind triple_ofPy (fun claimed => ?_)
            fun _ _ h => h) fun _ _ h => h) fun _ _ h => h
          split
          · exact .done fun _ h => h
          · exact ih

/-- **The acts of an operator are careful.** -/
theorem triple_operator :
    Triple (logic P contract j₀) t o (Held False) (operator P contract o) fun _ v => Held False v := by
  refine .bind (triple_openBroker stable_held) (fun _ => .bind (triple_reconcilePending stable_held)
    (fun unresolved => ?_) fun _ _ h => h.1) fun _ _ h => h
  split
  · exact (triple_escalate stable_held).mono (fun _ h => h.1) fun _ _ h => h
  · exact .ask fun n => (triple_rounds n).mono (fun _ h => h.1) fun _ _ h => h

theorem sound : Sound (logic P contract j₀) := by
  rintro t o p v hinv - - rfl
  exact keeps_mono (triple_operator v ⟨hinv, by rintro ⟨⟩⟩) fun _ _ _ => trivial

/-! ## Operations that are left behind -/

/-- Since `before`, nothing was proposed or sent, and the operation is still not settled. -/
structure Stuck (id : String) (before : List (Event (World Workspace) (Label Deed) String)) (v : Seen) : Prop where
  quiet : ∃ recent, v.hist = recent ++ before ∧ ∀ e ∈ recent, target e.label = none
  unresolved : ¬Resolved v.world.journal id

section
variable {before : List (Event (World Workspace) (Label Deed) String)}

/-- The logic of operators that are stuck. -/
def stuck (P : Toolbox.Platform) (contract : Contract) (j₀ : Journal) (id : String)
    (before : List (Event (World Workspace) (Label Deed) String)) : Logic (campaign P contract j₀).onward where
  inv := Stuck id before
  idle := Stuck id before
  inv_init := by rintro w ⟨⟩
  idle_init := by rintro w ⟨⟩

theorem stable_stuck : Stable (stuck P contract j₀ id before) t o (Stuck id before) := by
  intro v l w h hcalm
  obtain ⟨recent, hrecent, hquiet⟩ := h.quiet
  have hstuck : Stuck id before (v.log t o l w) := by
    refine ⟨⟨⟨t, o, l, v.world, w⟩ :: recent, ?_, fun e he => ?_⟩, hcalm.rests.unresolved h.unresolved⟩
    · rw [View.log_hist, hrecent]
      rfl
    · rcases List.mem_cons.1 he with rfl | he
      · exact hcalm.target
      · exact hquiet e he
  exact ⟨⟨hstuck, fun _ => hstuck⟩, hstuck⟩

/-- **An operator that finds an operation unsettled stops.** -/
theorem triple_operator_stuck : Triple (stuck P contract j₀ id before) t o (Stuck id before) (operator P contract o)
    fun _ v => Stuck id before v := by
  refine .bind (triple_openBroker stable_stuck) (fun _ => .bind (triple_reconcilePending stable_stuck)
    (fun unresolved => ?_) fun _ _ h => h.1) fun _ _ h => h
  split
  · exact (triple_escalate stable_stuck).mono (fun _ h => h.1) fun _ _ h => h
  · rename_i hnone
    exact fun v h => absurd (h.2 (not_not.1 hnone) id) h.1.unresolved

theorem sound_stuck : Sound (stuck P contract j₀ id before) := by
  rintro t o p v hinv - - rfl
  exact triple_operator_stuck v hinv

end

/-! ## The campaign -/

/-- Configurations of the operators of a campaign. -/
abbrev Operators : Type 1 := Sequential.Conf (World Workspace) (Label Deed) String BrokerError Unit

variable {c : Operators}

def sampleContract : Contract :=
  ⟨Broker.samplePolicy, none, true, none, false, fun _ => rfl, by rintro ⟨⟩, by rintro ⟨⟩⟩

/-- A journal that a process has left with an operation that is prepared. -/
def sampleJournal : Journal where
  operations := ⟨[("op-1", ⟨"run-1", "", Broker.sampleProposal.modelDump, .prepared, "intent_recorded", true,
    none, none, none⟩)], List.nodup_singleton _⟩
  events := []
  contracts := ∅

/-- Before the next operator is started. -/
def sampleConf : Operators :=
  ⟨⟨⟨sampleJournal, none, fun _ => none, ⟨.initial⟩⟩, []⟩, none, 0⟩

end AutonomyLab.Campaign
