import Mathlib.Algebra.Order.Ring.Nat
import AutonomyLab.Agent.State

/-!
# What earlier responses have cost

Before a request the agent goes over the usage of all recorded responses, and reserves
the thought tokens of those that are still in the context.

* `totalTokenCount`, `thoughtTokens` — what a response reports.
* `preservedThoughtTokens` — the walk over the recorded responses, which raises unless
  every usage is known and their sum is the total that has been charged.
-/

namespace AutonomyLab.Agent

open Json

/-- A value that counts tokens. -/
def count? : Json → Option ℕ
  | .int (.ofNat n) => some n
  | _ => none

/-- The token usage that a response reports, if there is one. -/
def usageMetadata (response : Json) : Option Dict :=
  match response.field? "usageMetadata" with
  | some (.obj metadata) => some metadata
  | _ => none

/-- `totalTokenCount`, where it is a count. -/
def totalTokenCount (response : Json) : Option ℕ := do
  count? (← (← usageMetadata response).lookup "totalTokenCount")

def reportedThoughts : String := "usageMetadata.thoughtsTokenCount"

def derivedThoughts : String :=
  "usageMetadata.totalTokenCount_minus_promptTokenCount_minus_candidatesTokenCount"

/-- The thought tokens that follow from the other counts, where nothing else is in the total. -/
def remainingTokens (metadata : Dict) (total : ℕ) : Except PyError ℤ := do
  match metadata.lookup "promptTokenCount" >>= count?,
      metadata.lookup "candidatesTokenCount" >>= count? with
  | some prompt, some candidates =>
      if (metadata.lookup "toolUsePromptTokenCount").getD (.int 0) ≠ .int 0 then
        throw (.valueError "prior provider thought usage has ambiguous tool prompt tokens")
      return total - prompt - candidates
  | _, _ => throw (.valueError "prior provider thought usage cannot be derived")

/-- The thought tokens as reported or derived, and which of the two. -/
def thoughtSource (metadata : Dict) (total : ℕ) : Except PyError (Json × String) :=
  match metadata.lookup "thoughtsTokenCount" with
  | some value => .ok (value, reportedThoughts)
  | none => (remainingTokens metadata total).map fun n => (.int n, derivedThoughts)

/-- The total and the thought tokens of a response, and where they are taken from. -/
def priorThoughts (response : Json) : Except PyError (ℕ × ℕ × String) := do
  match usageMetadata response with
  | none => throw (.valueError "prior provider usage is missing")
  | some metadata =>
      match metadata.lookup "totalTokenCount" >>= count? with
      | none => throw (.valueError "prior provider usage is invalid")
      | some total =>
          let (thoughts, source) ← thoughtSource metadata total
          match count? thoughts with
          | some n =>
              if n ≤ total then return (total, n, source)
              else throw (.valueError "prior provider thought usage is invalid")
          | none => throw (.valueError "prior provider thought usage is invalid")

/-- The thought tokens of a response, where they are known. -/
def thoughtTokens (response : Json) : ℕ := ((priorThoughts response).toOption.map fun u => u.2.1).getD 0

/-- The thought tokens of the responses whose messages are retained. -/
def retainedThoughts (responses : List Json) (retained : List ℕ) : ℕ :=
  ((responses.zipIdx.filter fun p => retained.contains p.2).map fun p => thoughtTokens p.1).sum

/-- What all responses together have been charged. -/
def spentTokens (responses : List Json) : ℕ :=
  (responses.map fun response => (totalTokenCount response).getD 0).sum

/-- `retained_indices is None or index in retained_indices`. -/
def isRetained (retained : Option (List ℕ)) (index : ℕ) : Bool :=
  match retained with
  | none => true
  | some indices => indices.contains index

/-- `preserved_thought_tokens`. -/
def preservedThoughtTokens (s : AgentState) (retained : Option (List ℕ)) :
    Except PyError (ℕ × List ThoughtSource) := do
  if s.modelResponses.length ≠ s.usage.modelCalls ∨ s.usage.unknown = true then
    throw (.valueError "prior provider usage is incomplete")
  let known ← s.modelResponses.mapM priorThoughts
  let sources := known.zipIdx.map fun p => ThoughtSource.mk p.2 p.1.2.1 p.1.2.2
  let thoughts := (sources.filter fun source =>
    isRetained retained source.responseIndex).map ThoughtSource.tokens
  let spent := known.map fun u => u.1
  if spent.sum ≠ s.usage.totalTokens then
    throw (.valueError "prior provider usage does not match the cumulative total")
  return (thoughts.sum, sources)

/-! ## What the walk establishes -/

theorem total_of_priorThoughts {response : Json} {total thoughts : ℕ} {source : String}
    (h : priorThoughts response = .ok (total, thoughts, source)) :
    totalTokenCount response = some total := by
  unfold priorThoughts at h
  cases hm : usageMetadata response with
  | none => simp [hm, throw, throwThe, MonadExceptOf.throw] at h
  | some metadata =>
      simp only [hm] at h
      cases ht : metadata.lookup "totalTokenCount" >>= count? with
      | none => simp [ht, throw, throwThe, MonadExceptOf.throw] at h
      | some n =>
          simp only [ht] at h
          obtain ⟨⟨value, source'⟩, -, h⟩ := bind_eq_ok.1 h
          dsimp only at h
          split at h
          · split at h
            · cases h
              simpa [totalTokenCount, hm] using ht
            · cases h
          · cases h

theorem sum_thoughts (responses : List Json) (known : List (ℕ × ℕ × String)) (k : ℕ)
    (keep : ℕ → Bool) (h : responses.map priorThoughts = known.map .ok) :
    (((known.zipIdx k).map fun p => ThoughtSource.mk p.2 p.1.2.1 p.1.2.2).filter
      fun source => keep source.responseIndex).map ThoughtSource.tokens =
      (((responses.zipIdx k).filter fun p => keep p.2).map fun p => thoughtTokens p.1) := by
  induction responses generalizing known k with
  | nil =>
      cases known with
      | nil => rfl
      | cons u known => cases h
  | cons response responses ih =>
      cases known with
      | nil => cases h
      | cons u known =>
          obtain ⟨hu, h⟩ := List.cons.inj h
          have htokens : thoughtTokens response = u.2.1 := by rw [thoughtTokens, hu]; rfl
          simp only [List.zipIdx_cons, List.map_cons, List.filter_cons]
          by_cases hk : keep k = true
          · rw [if_pos hk, if_pos hk, List.map_cons, List.map_cons, ih _ _ h, htokens]
          · rw [if_neg hk, if_neg hk, ih _ _ h]

theorem sum_totals (responses : List Json) (known : List (ℕ × ℕ × String))
    (h : responses.map priorThoughts = known.map .ok) :
    (known.map fun u => u.1).sum = spentTokens responses := by
  induction responses generalizing known with
  | nil =>
      cases known with
      | nil => rfl
      | cons u known => cases h
  | cons response responses ih =>
      cases known with
      | nil => cases h
      | cons u known =>
          obtain ⟨hu, h⟩ := List.cons.inj h
          have htotal : totalTokenCount response = some u.1 := by
            obtain ⟨total, thoughts, source⟩ := u
            exact total_of_priorThoughts hu
          rw [List.map_cons, List.sum_cons, ih _ h]
          simp [spentTokens, htotal]

/-- What a walk that raised nothing says of the charged total, of every response, and of
the tokens it returns. -/
theorem preservedThoughtTokens_eq_ok {s : AgentState} {retained : List ℕ} {tokens : ℕ}
    {sources : List ThoughtSource}
    (h : preservedThoughtTokens s (some retained) = .ok (tokens, sources)) :
    s.modelResponses.length = s.usage.modelCalls ∧ s.usage.unknown = false ∧
      (∀ response ∈ s.modelResponses, ∃ u, priorThoughts response = .ok u) ∧
      s.usage.totalTokens = spentTokens s.modelResponses ∧
      tokens = retainedThoughts s.modelResponses retained := by
  unfold preservedThoughtTokens at h
  split at h
  · cases h
  rename_i hcomplete
  rw [not_or, not_not, Bool.not_eq_true] at hcomplete
  obtain ⟨known, hknown, h⟩ := bind_eq_ok.1 h
  rw [mapM_eq_ok] at hknown
  dsimp only at h
  split at h
  · cases h
  rename_i hspent
  rw [not_not] at hspent
  cases h
  refine ⟨hcomplete.1, hcomplete.2, ?_, ?_, ?_⟩
  · intro response hr
    have hmem : priorThoughts response ∈ known.map .ok := hknown ▸ List.mem_map_of_mem hr
    obtain ⟨u, -, hu⟩ := List.mem_map.1 hmem
    exact ⟨u, hu.symm⟩
  · rw [← hspent, sum_totals _ _ hknown]
  · rw [retainedThoughts, ← sum_thoughts _ _ 0 (fun i => retained.contains i) hknown]
    rfl

end AutonomyLab.Agent
