import AutonomyLab.Agent.Compaction
import AutonomyLab.Relay.Calls
import AutonomyLab.Relayed.Thoughts

/-!
# An agent whose client is a relay

The counts and the generations of the agents on a checkpoint file are calls of one relay,
which keeps its own account of what they have cost.

* `Host`, `Host.Answers` — the relay, and one call of it.
* `Through` — a history of agents all of whose requests have gone through the relay.
* `Host.Answers.recounted`, `Host.Answers.accounted` — what a call leaves.
* `Through.preflight` — what has been counted for a request is what the relay has counted last.
-/

namespace AutonomyLab.Relayed

open Json Process
open Agent (AgentState Inputs Request)

/-! ## Histories -/

/-- A relay, and what it has done. -/
structure Host where
  relay : Relay.ModelRelay
  view : Relay.Seen

/-- A relay that has found no file. -/
def Host.start : Host := ⟨⟨.initial, none⟩, ⟨none, []⟩⟩

/-- The relay is called, and the call ends. -/
def Host.Answers (o : Relay.Options) (host : Host) (method : String) (arguments : Json)
    (ended : Relay.Ended) (host' : Host) : Prop :=
  may 0 o (Relay.call o method arguments host.relay) (fun r u => r = ended ∧ u = host'.view) host.view ∧
    Relay.memoryOf ended = host'.relay

/-- The call that the relay has ended and the agent has not heard of yet. -/
inductive Reply where
  | none
  | counted (inputs : Inputs) (ended : Relay.Ended)
  | generated (index : ℕ) (ended : Relay.Ended)

/-- An act by which the agent calls its client, or hears of it. -/
def isClient : Agent.Act → Bool
  | .count _ | .counted _ _ | .generate _ _ | .received _ _ => true
  | _ => false

/-- The history is one of agents whose client is the relay: where it has led, and what the
agent has yet to hear. -/
inductive Through (o : Relay.Options) : List Agent.Done → Host → Reply → Prop
  | start : Through o [] .start .none
  | other {before host reply} {e : Agent.Done} : Through o before host reply →
      isClient e.label = false → Through o (e :: before) host reply
  | count {before host reply inputs ended host'} {e : Agent.Done} : Through o before host reply →
      e.label = .count inputs → host.Answers o "count_tokens" (argumentsOf inputs) ended host' →
      Through o (e :: before) host' (.counted inputs ended)
  | counted {before host inputs value} {e : Agent.Done} :
      Through o before host (.counted inputs (.ok (value, host.relay))) →
      e.label = .counted inputs value → Through o (e :: before) host .none
  | generate {before host reply index request ended host'} {e : Agent.Done} :
      Through o before host reply → e.label = .generate index request →
      host.Answers o "generate" (requestArguments request) ended host' →
      Through o (e :: before) host' (.generated index ended)
  | received {before host index ended response} {e : Agent.Done} :
      Through o before host (.generated index ended) → e.label = .received index response →
      Relay.Tells ended host.view response → Through o (e :: before) host .none

variable {o : Relay.Options} {host host' : Host} {reply : Reply} {before : List Agent.Done}
  {e : Agent.Done} {s s' : AgentState} {response : Json} {index : ℕ} {ended : Relay.Ended}
  {inputs : Inputs} {request : Request}

theorem Through.quiet (h : Through o (e :: before) host reply) (he : isClient e.label = false) :
    Through o before host reply := by
  cases h with
  | other h _ => exact h
  | count h hl _ => rw [hl] at he; cases he
  | counted h hl => rw [hl] at he; cases he
  | generate h hl _ => rw [hl] at he; cases he
  | received h hl _ => rw [hl] at he; cases he

theorem Through.others (h : Through o before host reply) {new : List Agent.Done} {labels : List Agent.Act}
    (hlabels : new.map Event.label = labels) (hquiet : ∀ l ∈ labels, isClient l = false) :
    Through o (new ++ before) host reply := by
  subst hlabels
  induction new with
  | nil => exact h
  | cons d new ih =>
      rw [List.map_cons, List.forall_mem_cons] at hquiet
      exact .other (ih hquiet.2) hquiet.1

/-! ## What a call leaves -/

/-- The relay is where it was but for counts and its preflight. -/
def Host.Recounted (host host' : Host) : Prop := Relay.SameButCounts host.relay.state host'.relay.state

theorem Host.Answers.recounted {arguments : Json} (h : host.Answers o "count_tokens" arguments ended host') :
    host.Recounted host' ∧ ∀ value, ended = .ok (value, host'.relay) →
      ∃ n, value = .int n ∧ host'.relay.preflight = some (arguments, n) := by
  obtain ⟨hmay, hmemory⟩ := h
  obtain ⟨r, u, ⟨rfl, -⟩, hsame, hcounted⟩ := exists_of_may hmay (Relay.must_count arguments)
  rw [hmemory] at hsame hcounted
  exact ⟨hsame, hcounted⟩

theorem Host.Answers.accounted {arguments : Json} (h : host.Answers o "generate" arguments ended host') :
    ∀ response, Relay.Tells ended host'.view response → ∃ usage, Relay.usageOf response = .ok usage ∧
      host'.relay.state = host.relay.state.requested.accounted response usage := by
  obtain ⟨hmay, hmemory⟩ := h
  obtain ⟨r, u, ⟨rfl, rfl⟩, haccount⟩ := exists_of_may hmay Relay.must_account
  intro response htells
  obtain ⟨usage, husage, hstate⟩ := haccount response htells
  rw [hmemory] at hstate
  exact ⟨usage, husage, hstate⟩

/-- A count that has been answered is the preflight of the relay. -/
theorem Through.counted_preflight {value : Json} (h : Through o before host reply)
    (hreply : reply = .counted inputs (.ok (value, host.relay))) :
    ∃ n, value = .int n ∧ host.relay.preflight = some (argumentsOf inputs, n) := by
  induction h with
  | other _ _ ih => exact ih hreply
  | count _ _ hanswers _ =>
      cases hreply
      exact hanswers.recounted.2 _ rfl
  | _ => cases hreply

/-- What has been counted for a request is the preflight of the relay. -/
theorem Through.preflight (h : Through o before host reply) (hcounted : Agent.Counted before request) :
    host.relay.preflight = some (argumentsOf request.inputs, (request.inputTokenCount : ℤ)) := by
  obtain ⟨saves, c, earlier, value, rfl, hsaves, hl, hvalue⟩ := hcounted
  induction saves with
  | nil =>
      cases h with
      | other _ hquiet => rw [hl] at hquiet; cases hquiet
      | count _ hl' _ => cases hl.symm.trans hl'
      | generate _ hl' _ => cases hl.symm.trans hl'
      | received _ hl' _ => cases hl.symm.trans hl'
      | counted h hl' =>
          cases hl.symm.trans hl'
          obtain ⟨n, rfl, hpreflight⟩ := h.counted_preflight rfl
          have hn : n = request.inputTokenCount := by
            unfold Agent.count? at hvalue
            split at hvalue
            · rename_i m heq
              cases hvalue
              cases heq
              rfl
            · cases hvalue
          rw [hpreflight, hn]
  | cons d saves ih =>
      rw [List.forall_mem_cons] at hsaves
      obtain ⟨⟨s, hd⟩, hsaves⟩ := hsaves
      exact ih (h.quiet (by rw [hd]; rfl)) hsaves

end AutonomyLab.Relayed
