import AutonomyLab.Learning.Contextual

/-!
# What a context can rely on

Each level is tried twice before any is preferred, and from then on every sixth visit goes to
the level that was seen least recently.  So no level is left out for long, unless a drop of
its rewards makes the policy start anew.

* `Sound` — the invariant of what is known of a context, which a step keeps (`sound_serve`).
* `every_level_chosen` — **recurrence**: eighteen visits without a reset choose every level.
* `contexts_apart` — **isolation and coverage** of every run.
-/

namespace AutonomyLab.Learning.Contextual

open Json Check Lane

/-! ## The level that is chosen -/

theorem best_le {α β : Type} [LinearOrder β] (key : α → β) (a : α) (bs : List α) :
    ∀ x ∈ a :: bs, key (best (fun b a => key b < key a) a bs) ≤ key x := by
  induction bs generalizing a with
  | nil =>
      intro x hx
      rw [List.mem_singleton.1 hx, best]
  | cons b bs ih =>
      intro x hx
      rw [best]
      have hhead := ih (if key b < key a then b else a) _ List.mem_cons_self
      rcases List.mem_cons.1 hx with rfl | hx
      · refine hhead.trans ?_
        split
        · exact le_of_lt ‹_›
        · exact le_rfl
      · rcases List.mem_cons.1 hx with rfl | hx
        · refine hhead.trans ?_
          split
          · exact le_rfl
          · exact not_lt.1 ‹_›
        · exact ih _ x (List.mem_cons_of_mem _ hx)

/-- No level was seen less recently. -/
theorem leastRecent_le (known : Known) (n : Level) :
    known.lastSeen (leastRecent known) ≤ known.lastSeen n :=
  best_le known.lastSeen .four [.two, .eight] n (mem_levels n)

/-- While some level has less than two rewards, such a level is chosen. -/
theorem select_of_unseen {known : Known} {n : Level} (h : (known.rewards n).length < 2) :
    (known.rewards (select known)).length < 2 := by
  have hmem : n ∈ unseen known := List.mem_filter.2 ⟨mem_levels n, decide_eq_true h⟩
  unfold select
  cases hunseen : unseen known with
  | nil =>
      rw [hunseen] at hmem
      cases hmem
  | cons action rest =>
      have haction : action ∈ unseen known := hunseen ▸ List.mem_cons_self
      exact of_decide_eq_true (List.mem_filter.1 haction).2

/-- Once each level has two rewards, every sixth visit goes to the level seen least recently. -/
theorem select_of_due {known : Known} (h : ∀ n, 2 ≤ (known.rewards n).length)
    (hdue : known.visits % 6 = 0) : select known = leastRecent known := by
  have hunseen : unseen known = [] := by
    rw [unseen, List.filter_eq_nil_iff]
    intro n _ hn
    have := of_decide_eq_true hn
    have := h n
    omega
  rw [select, hunseen, if_pos hdue]

/-! ## What is kept -/

@[simp] theorem visits_record (known : Known) (action : Level) (reward : ℚ) :
    (known.record action reward).visits = known.visits + 1 := rfl

theorem rewards_record_ne {known : Known} {action n : Level} (h : n ≠ action) (reward : ℚ) :
    (known.record action reward).rewards n = known.rewards n := by
  simp [Known.record, h]

theorem lastSeen_record_ne {known : Known} {action n : Level} (h : n ≠ action) (reward : ℚ) :
    (known.record action reward).lastSeen n = known.lastSeen n := by
  simp [Known.record, h]

@[simp] theorem lastSeen_record_self (known : Known) (action : Level) (reward : ℚ) :
    (known.record action reward).lastSeen action = known.visits := by
  simp [Known.record]

theorem length_record (known : Known) (action n : Level) (reward : ℚ) :
    ((known.record action reward).rewards n).length =
      if n = action then min 4 ((known.rewards n).length + 1) else (known.rewards n).length := by
  by_cases h : n = action
  · subst h
    simp [Known.record]
    omega
  · rw [rewards_record_ne h, if_neg h]

/-- The invariant of what is known of a context. -/
structure Sound (known : Known) : Prop where
  length_le : ∀ n, (known.rewards n).length ≤ 4
  lastSeen_lt : ∀ n, known.lastSeen n < known.visits
  /-- The first six visits go to levels with less than two rewards. -/
  probing : known.visits < 6 → (∀ n, (known.rewards n).length ≤ 2) ∧
    (known.rewards .four).length + (known.rewards .two).length + (known.rewards .eight).length =
      known.visits
  probed : 6 ≤ known.visits → ∀ n, 2 ≤ (known.rewards n).length

theorem sound_empty (resets : ℕ) : Sound { empty with resets } where
  length_le _ := by simp [empty]
  lastSeen_lt _ := by simp [empty]
  probing _ := by simp [empty]
  probed h := by simp [empty] at h

theorem sound_record {known : Known} (h : Sound known) {action : Level}
    (hprobe : known.visits < 6 → (known.rewards action).length < 2) (reward : ℚ) :
    Sound (known.record action reward) where
  length_le n := by
    rw [length_record]
    have := h.length_le n
    split <;> omega
  lastSeen_lt n := by
    rw [visits_record]
    push_cast
    by_cases hn : n = action
    · subst hn
      rw [lastSeen_record_self]
      omega
    · rw [lastSeen_record_ne hn]
      have := h.lastSeen_lt n
      omega
  probing hlt := by
    rw [visits_record] at hlt
    obtain ⟨hle, hsum⟩ := h.probing (by omega)
    have hless := hprobe (by omega)
    constructor
    · intro n
      have := hle n
      rw [length_record]
      split
      · subst n
        omega
      · omega
    · simp only [length_record, visits_record]
      cases action <;> simp <;> omega
  probed hge n := by
    rw [visits_record] at hge
    rw [length_record]
    by_cases hlt : known.visits < 6
    · obtain ⟨hle, hsum⟩ := h.probing hlt
      have hless := hprobe hlt
      have := hle .four
      have := hle .two
      have := hle .eight
      cases action <;> cases n <;> simp <;> omega
    · have := h.probed (by omega) n
      split <;> omega

/-- A level that is chosen in the first six visits has less than two rewards. -/
theorem select_of_probing {known : Known} (h : Sound known) (hlt : known.visits < 6) :
    (known.rewards (select known)).length < 2 := by
  obtain ⟨-, hsum⟩ := h.probing hlt
  by_contra hge
  have hall : ∀ n, 2 ≤ (known.rewards n).length := fun n => by
    by_contra hn
    exact hge (select_of_unseen (not_le.1 hn))
  have := hall .four
  have := hall .two
  have := hall .eight
  omega

/-- A step keeps the invariant. -/
theorem sound_serve {known : Known} (h : Sound known) (reward : ℚ) : Sound (known.serve reward) := by
  unfold Known.serve Known.learn
  split
  · refine sound_record (sound_empty _) (fun _ => ?_) reward
    exact Nat.zero_lt_two
  · exact sound_record h (select_of_probing h) reward

/-! ## Recurrence -/

theorem levels_length_le {l : List Level} (h : l.Nodup) : l.length ≤ 3 := List.Nodup.length_le_card h

theorem serve_of_no_reset {known : Known} {reward : ℚ}
    (h : (known.serve reward).resets = known.resets) :
    known.serve reward = known.record (select known) reward := by
  unfold Known.serve Known.learn at h ⊢
  split
  · rename_i hdrop
    rw [if_pos hdrop] at h
    exact absurd h (Nat.succ_ne_self _)
  · rfl

section
/- What is known of a context at eighteen visits, with the rewards between them. -/
variable {known : ℕ → Known} {reward : ℕ → ℚ}
  (hserve : ∀ i < 17, known (i + 1) = (known i).serve (reward i))
  (hresets : ∀ i ≤ 17, (known i).resets = (known 0).resets)
  (hsound : ∀ i ≤ 17, Sound (known i))
include hserve hresets

theorem known_succ {i : ℕ} (h : i < 17) :
    known (i + 1) = (known i).record (select (known i)) (reward i) := by
  rw [hserve i h]
  apply serve_of_no_reset
  rw [← hserve i h, hresets (i + 1) h, hresets i h.le]

theorem visits_known {i : ℕ} (h : i ≤ 17) : (known i).visits = (known 0).visits + i := by
  induction i with
  | zero => rfl
  | succ i ih =>
      rw [known_succ hserve hresets h, visits_record, ih (by omega)]
      omega

/-- What is known of a level changes only where it is chosen. -/
theorem known_of_not_selected {n : Level} (hn : ∀ i ≤ 17, select (known i) ≠ n) {i : ℕ} (h : i ≤ 17) :
    (known i).rewards n = (known 0).rewards n ∧ (known i).lastSeen n = (known 0).lastSeen n := by
  induction i with
  | zero => exact ⟨rfl, rfl⟩
  | succ i ih =>
      have hne : n ≠ select (known i) := (hn i (by omega)).symm
      rw [known_succ hserve hresets h, rewards_record_ne hne, lastSeen_record_ne hne]
      exact ih (by omega)

/-- A level that was chosen has been seen since. -/
theorem lastSeen_selected {i j : ℕ} (hij : i < j) (hj : j ≤ 17) :
    ((known 0).visits + i : ℤ) ≤ (known j).lastSeen (select (known i)) := by
  induction j, hij using Nat.le_induction with
  | base =>
      have hvisits : (known i).visits = (known 0).visits + i := visits_known hserve hresets (by omega)
      rw [known_succ hserve hresets hj, lastSeen_record_self]
      omega
  | succ j hij ih =>
      rw [known_succ hserve hresets hj]
      by_cases hsame : select (known i) = select (known j)
      · have hvisits : (known j).visits = (known 0).visits + j := visits_known hserve hresets (by omega)
        rw [hsame, lastSeen_record_self]
        omega
      · rw [lastSeen_record_ne hsame]
        exact ih (by omega)

include hsound

/-- Where a visit is due to the level seen least recently, a level that is never chosen was
seen less recently than one that is chosen before. -/
theorem select_ne_of_due {n : Level} (hn : ∀ i ≤ 17, select (known i) ≠ n) {i j : ℕ} (hij : i < j)
    (hj : j ≤ 17) (hprobed : ∀ n, 2 ≤ ((known j).rewards n).length) (hdue : (known j).visits % 6 = 0) :
    select (known j) ≠ select (known i) := by
  intro hsame
  have hleast : (known j).lastSeen (select (known j)) ≤ (known j).lastSeen n := by
    rw [select_of_due hprobed hdue]
    exact leastRecent_le _ n
  have hnever := (known_of_not_selected hserve hresets hn hj).2
  have hseen := lastSeen_selected hserve hresets hij hj
  have hbefore := (hsound 0 (by omega)).lastSeen_lt n
  rw [hsame] at hleast
  omega

/-- **Recurrence.**  Eighteen visits without a reset choose every level. -/
theorem every_level_chosen (n : Level) : ∃ i ≤ 17, select (known i) = n := by
  by_contra hnone
  have hn : ∀ i ≤ 17, select (known i) ≠ n := fun i hi h => hnone ⟨i, hi, h⟩
  by_cases hfirst : (known 0).visits = 0
  · -- the first six visits give every level two rewards
    have hempty := (hsound 0 (by omega)).probing (by omega)
    have hprobed := (hsound 6 (by omega)).probed
      (by rw [visits_known hserve hresets (by omega)]; omega) n
    rw [(known_of_not_selected hserve hresets hn (by omega)).1] at hprobed
    cases n <;> omega
  · -- three visits are due to the levels seen least recently, which are all different
    obtain ⟨i, hi, hmod⟩ : ∃ i ≤ 5, ((known 0).visits + i) % 6 = 0 :=
      ⟨(6 - (known 0).visits % 6) % 6, by omega, by omega⟩
    have hdue : ∀ k ≤ 2, (known (i + 6 * k)).visits % 6 = 0 := by
      intro k hk
      rw [visits_known hserve hresets (by omega)]
      omega
    have hprobed : ∀ k ≤ 2, ∀ n, 2 ≤ ((known (i + 6 * k)).rewards n).length := by
      intro k hk
      apply (hsound _ (by omega)).probed
      rw [visits_known hserve hresets (by omega)]
      omega
    have hne : ∀ k l, k < l → l ≤ 2 → select (known (i + 6 * l)) ≠ select (known (i + 6 * k)) := by
      intro k l hkl hl
      exact select_ne_of_due hserve hresets hsound hn (by omega) (by omega) (hprobed l hl) (hdue l hl)
    have h₀ := hn (i + 6 * 0) (by omega)
    have h₁ := hn (i + 6 * 1) (by omega)
    have h₂ := hn (i + 6 * 2) (by omega)
    have h₀₁ := hne 0 1 (by omega) (by omega)
    have h₀₂ := hne 0 2 (by omega) (by omega)
    have h₁₂ := hne 1 2 (by omega) (by omega)
    have hnodup : [select (known (i + 6 * 2)), select (known (i + 6 * 1)), select (known (i + 6 * 0)),
        n].Nodup := by
      simp only [List.nodup_cons, List.mem_cons, List.not_mem_nil, or_false, not_or]
      exact ⟨⟨h₁₂, h₀₂, h₂⟩, ⟨h₀₁, h₁⟩, h₀, not_false, List.nodup_nil⟩
    have hthree := levels_length_le hnodup
    simp at hthree

end

/-! ## Every run -/

/-- What the memory of a context is at every time. -/
structure WellFormed (known : Known) : Prop where
  length_le : ∀ n ∈ LEVELS, (known.rewards n).length ≤ 4
  lastSeen_lt : ∀ n ∈ LEVELS, known.lastSeen n < known.visits

theorem Sound.wellFormed {known : Known} (h : Sound known) : WellFormed known :=
  ⟨fun n _ => h.length_le n, fun n _ => h.lastSeen_lt n⟩

/-- Eighteen states in a row of the machine of a context, from a sound one. -/
theorem lane_recurs {known : Known} (h : Sound known) {rewards : List ℚ} (hlength : rewards.length = 18)
    (hresets : ∀ k ∈ lane Known.serve known rewards, ∀ l ∈ lane Known.serve known rewards,
      k.resets = l.resets) (n : Level) : ∃ k ∈ lane Known.serve known rewards, select k = n := by
  let at_ (i : ℕ) : Known := (rewards.take i).foldl Known.serve known
  have hmem : ∀ i ≤ 17, at_ i ∈ lane Known.serve known rewards := by
    intro i hi
    have hlt : i < (lane Known.serve known rewards).length := by
      rw [length_lane]
      omega
    have hget := List.getElem_mem hlt
    rwa [getElem_lane hlt] at hget
  have hserve : ∀ i < 17, at_ (i + 1) = (at_ i).serve (rewards[i]?.getD 0) := by
    intro i hi
    have hlt : i < rewards.length := by omega
    change (rewards.take (i + 1)).foldl Known.serve known = _
    rw [List.take_succ_eq_append_getElem hlt, List.foldl_append, List.getElem?_eq_getElem hlt]
    rfl
  have hsound := (lane_invariant (P := Sound) (fun _ reward h => sound_serve h reward) h rewards).2
  obtain ⟨i, hi, hn⟩ := every_level_chosen hserve
    (fun i hi => hresets _ (hmem i hi) _ (hmem 0 (by omega)))
    (fun i hi => hsound _ (hmem i hi)) n
  exact ⟨at_ i, hmem i hi, hn⟩

/-- The table of a run is sound for every context. -/
def SoundTable (table : Contexts) : Prop := ∀ context, ∀ known ∈ table.lookup context, Sound known

theorem SoundTable.stateAt {table : Contexts} (h : SoundTable table) (context : String) :
    Sound (stateAt empty table context) := by
  unfold Lane.stateAt
  cases hlookup : table.lookup context with
  | none => exact sound_empty 0
  | some known => exact h context known hlookup

theorem SoundTable.insert {table : Contexts} (h : SoundTable table) (context : String) {known : Known}
    (hknown : Sound known) : SoundTable (table.insert context known) := by
  intro context' known' hlookup
  by_cases hsame : context' = context
  · subst hsame
    rw [AList.lookup_insert] at hlookup
    cases hlookup
    exact hknown
  · rw [AList.lookup_insert_ne hsame] at hlookup
    exact h context' known' hlookup

theorem soundTable_empty : SoundTable ∅ := nofun

theorem choicesOf_sound {table : Contexts} (h : SoundTable table) (visits : List Visit) :
    (∀ choice ∈ choicesOf table visits, SoundTable choice.decision.memory) ∧
      SoundTable (serveAll empty Known.serve table (visits.map Visit.input)) := by
  induction visits generalizing table with
  | nil => exact ⟨List.forall_mem_nil _, h⟩
  | cons visit visits ih =>
      have hserved : SoundTable (serveAt empty Known.serve table visit.input) :=
        h.insert _ (sound_serve (h.stateAt _) _)
      obtain ⟨hchoices, hend⟩ := ih hserved
      exact ⟨List.forall_mem_cons.2 ⟨h.insert _ (h.stateAt _), hchoices⟩, hend⟩

theorem choicesOf_actions (table : Contexts) (visits : List Visit) :
    ∀ choice ∈ choicesOf table visits, choice.decision.action ∈ LEVELS.map Level.value := by
  induction visits generalizing table with
  | nil => exact List.forall_mem_nil _
  | cons visit visits ih =>
      refine List.forall_mem_cons.2 ⟨?_, ih _⟩
      exact List.mem_map.2 ⟨_, mem_levels _, rfl⟩

/-- What a run of the policy guarantees to the contexts that come up in it. -/
structure Apart (visits : List Visit) (taken : List Choice) (memory : Contexts) : Prop where
  /-- A context sees, and is left with, what it is in the run of its own visits. -/
  own : ∀ context, ∃ own ownMemory,
    run false none (visits.filter fun visit => visit.context = context) = .ok own ∧
      delivered false own.getLast? = .ok ownMemory ∧
      view context taken = view context own ∧ memory.lookup context = ownMemory.lookup context
  action_mem : ∀ choice ∈ taken, choice.decision.action ∈ LEVELS.map Level.value
  memory_wellFormed : ∀ context, ∀ known ∈ memory.lookup context, WellFormed known
  taken_wellFormed : ∀ choice ∈ taken, ∀ context, ∀ known ∈ choice.decision.memory.lookup context,
    WellFormed known
  /-- Eighteen visits in a row to a context without a reset of it choose every level. -/
  recurs : ∀ context window, window <:+: view context taken → window.length = 18 →
    (∀ p ∈ window, ∀ q ∈ window, p.2.map Known.resets = q.2.map Known.resets) →
      ∀ n ∈ LEVELS, ∃ p ∈ window, p.1 = n.value

/-- **Isolation and coverage** of every run whose feedback is taken in. -/
theorem contexts_apart {visits : List Visit} {taken : List Choice} {memory : Contexts}
    (hrun : run false none visits = .ok taken) (hend : delivered false taken.getLast? = .ok memory) :
    Apart visits taken memory := by
  have hstart : delivered false none = .ok ∅ := rfl
  rw [← Option.or_none (o := taken.getLast?)] at hend
  obtain ⟨-, hoffered⟩ := offered_ne_zero hrun hend
  obtain ⟨hruns, hends⟩ := run_eq hstart hoffered
  rw [hruns] at hrun
  cases hrun
  rw [hends] at hend
  cases hend
  obtain ⟨hchoices, htable⟩ := choicesOf_sound soundTable_empty visits
  refine ⟨fun context => ?_, choicesOf_actions _ _, ?_, ?_, ?_⟩
  · have hown : ∀ visit ∈ visits.filter fun visit => visit.context = context,
        visit.feedback.offered ≠ 0 := fun visit hvisit => hoffered visit (List.mem_filter.1 hvisit).1
    obtain ⟨hruns', hends'⟩ := run_eq hstart hown
    rw [Option.or_none] at hends'
    have hinputs : inputsAt context ((visits.filter fun visit => visit.context = context).map Visit.input) =
        inputsAt context (visits.map Visit.input) := by
      rw [← inputsAt_filter context (visits.map Visit.input), List.filter_map]
      rfl
    refine ⟨_, _, hruns', hends', ?_, ?_⟩
    · rw [view_choicesOf, view_choicesOf, hinputs]
    · rw [lookup_serveAll, lookup_serveAll, hinputs]
  · intro context known hknown
    exact (htable context known hknown).wellFormed
  · intro choice hchoice context known hknown
    exact (hchoices choice hchoice context known hknown).wellFormed
  · intro context window hwindow hlength hresets n _
    rw [view_choicesOf, List.infix_map_iff] at hwindow
    obtain ⟨part, hpart, rfl⟩ := hwindow
    obtain ⟨before, during, -, rfl⟩ := lane_infix hpart
    rw [List.length_map, length_lane] at hlength
    have hsound : Sound (before.foldl Known.serve (stateAt empty ∅ context)) :=
      (lane_invariant (P := Sound) (fun _ reward h => sound_serve h reward) (sound_empty 0) before).1
    obtain ⟨k, hk, hn⟩ := lane_recurs hsound hlength (fun k hk l hl =>
      Option.some.inj (hresets _ (List.mem_map_of_mem hk) _ (List.mem_map_of_mem hl))) n
    exact ⟨_, List.mem_map_of_mem hk, by rw [hn]⟩

/-- Two contexts that come up in turns. -/
def sampleVisits : List Visit :=
  [⟨"reads", ⟨100, 128⟩⟩, ⟨"writes", ⟨64, 128⟩⟩, ⟨"reads", ⟨120, 128⟩⟩, ⟨"writes", ⟨32, 128⟩⟩]

theorem contexts_apart_sample : ∃ taken memory, run false none sampleVisits = .ok taken ∧
    delivered false taken.getLast? = .ok memory ∧ Apart sampleVisits taken memory :=
  ⟨_, _, rfl, rfl, contexts_apart rfl rfl⟩

end AutonomyLab.Learning.Contextual
