import AutonomyLab.Check.Refusal
import AutonomyLab.Loop.ShortCircuit

/-!
# Whether a worker answered in time

A worker's episodes are recorded in the order of their file names, which says nothing about
time.  The assessment of a deadline takes the episodes whose attempts started first, all of
them where clock resolution ties their starts, and asks each to have finished in time.

* `firstEpisodeCompletedBy` — the assessment.
* `Met`, `Missed`, `Malformed` — what there is to say about an episode that started first.
* `order_independent_iff` — when the order of the record is without effect.
-/

namespace AutonomyLab.Horizon

open Json Check ShortCircuit

/-! ## The assessment -/

/-- `e['attempt']['started_at']`. -/
def startOf (episode : Json) : Except PyError Json := do
  (← episode.subscript "attempt").subscript "started_at"

/-- The body of the loop over the episodes that started first: whether it goes on. -/
def completedBy (earliest deadline : ℚ) (episode : Json) : Except Failure Bool := do
  let outcome ← walk (episode.subscript "outcome")
  if outcome = .null then return false
  else do
    let finished ← finiteOr "Malformed episode completion" (← walk (outcome.subscript "finished_at"))
    require (earliest ≤ finished) "Malformed episode completion"
    return decide (finished ≤ deadline)

/-- The episodes whose start is the earliest. -/
def tied (earliest : ℚ) (episodes : List Json) (starts : List ℚ) : List Json :=
  ((episodes.zip starts).filter fun p => p.2 = earliest).map Prod.fst

/-- `first_episode_completed_by`. -/
def firstEpisodeCompletedBy (worker deadline : Json) : Except Failure Bool := do
  let deadline ← finiteOr "Malformed deadline" deadline
  let episodes ← walk (worker.subscript "episodes")
  if episodes.truthy then do
    let episodes ← walk episodes.iterate
    let starts ← walk (episodes.mapM startOf)
    let starts ← starts.mapM (finiteOr "Malformed episode start")
    match starts.min? with
    | some earliest => (tied earliest episodes starts).allM (completedBy earliest deadline)
    | none => throw (.python (.valueError "min() iterable argument is empty"))
  else return false

/-! ## What there is to say about an episode -/

/-- When an episode's attempt started, where its record says so. -/
def startedAt (episode : Json) : Option ℚ := (startOf episode).toOption.bind number?

/-- When an episode finished, where it has an outcome whose record says so. -/
def finishedAt (episode : Json) : Option ℚ :=
  (episode.subscript "outcome").toOption.bind fun outcome =>
    (outcome.subscript "finished_at").toOption.bind number?

/-- Every start is well formed, and the earliest is `t`. -/
def Earliest (t : ℚ) (episodes : List Json) : Prop :=
  (∃ e ∈ episodes, startedAt e = some t) ∧ ∀ e ∈ episodes, ∃ u, startedAt e = some u ∧ t ≤ u

/-- The episode started first, alone or with others. -/
def First (episodes : List Json) (e : Json) : Prop :=
  e ∈ episodes ∧ ∃ t, startedAt e = some t ∧ Earliest t episodes

def Unfinished (episode : Json) : Prop := episode.subscript "outcome" = .ok .null

/-- It finished in time. -/
def Met (earliest deadline : ℚ) (episode : Json) : Prop :=
  ∃ f, finishedAt episode = some f ∧ earliest ≤ f ∧ f ≤ deadline

/-- It has no outcome, or finished after the deadline. -/
def Missed (earliest deadline : ℚ) (episode : Json) : Prop :=
  Unfinished episode ∨ ∃ f, finishedAt episode = some f ∧ earliest ≤ f ∧ deadline < f

/-- It has an outcome, but none that says when it finished, or one from before it started. -/
def Malformed (earliest : ℚ) (episode : Json) : Prop :=
  ¬ Unfinished episode ∧ ∀ f, finishedAt episode = some f → f < earliest

theorem not_unfinished_of_finishedAt {episode : Json} {f : ℚ} (h : finishedAt episode = some f) :
    ¬ Unfinished episode := by
  intro hnull
  unfold Unfinished at hnull
  rw [finishedAt, hnull] at h
  cases h

/-- The body of the loop, by what its reading of the record gives. -/
theorem completedBy_toOption {earliest deadline : ℚ} {episode : Json} (h : ¬ Unfinished episode) :
    (completedBy earliest deadline episode).toOption =
      (finishedAt episode).bind fun f => if earliest ≤ f then some (decide (f ≤ deadline)) else none := by
  unfold completedBy finishedAt
  cases hout : episode.subscript "outcome" with
  | error e => rfl
  | ok outcome =>
      have hnull : outcome ≠ .null := fun h' => h (by rw [Unfinished, hout, h'])
      change (if outcome = .null then _ else _ : Except Failure Bool).toOption = _
      rw [if_neg hnull]
      change _ = ((outcome.subscript "finished_at").toOption.bind number?).bind _
      cases outcome.subscript "finished_at" with
      | error e => rfl
      | ok value =>
          change (finiteOr _ value >>= _).toOption = (number? value).bind _
          rw [← finiteOr_toOption "Malformed episode completion"]
          cases finiteOr "Malformed episode completion" value with
          | error e => rfl
          | ok f =>
              change (require (earliest ≤ f) _ >>= _).toOption = if earliest ≤ f then _ else _
              unfold require
              split <;> rfl

theorem completedBy_of_unfinished {earliest deadline : ℚ} {episode : Json} (h : Unfinished episode) :
    completedBy earliest deadline episode = .ok false := by
  unfold Unfinished at h
  rw [completedBy, h]
  rfl

theorem completedBy_eq_true {earliest deadline : ℚ} {episode : Json} :
    (completedBy earliest deadline episode).toOption = some true ↔ Met earliest deadline episode := by
  by_cases h : Unfinished episode
  · rw [completedBy_of_unfinished h]
    exact ⟨nofun, fun ⟨f, hf, _⟩ => absurd h (not_unfinished_of_finishedAt hf)⟩
  · rw [completedBy_toOption h, Option.bind_eq_some_iff]
    refine exists_congr fun f => and_congr_right fun _ => ?_
    by_cases hle : earliest ≤ f <;> simp [hle]

theorem completedBy_eq_false {earliest deadline : ℚ} {episode : Json} :
    (completedBy earliest deadline episode).toOption = some false ↔ Missed earliest deadline episode := by
  by_cases h : Unfinished episode
  · rw [completedBy_of_unfinished h]
    exact ⟨fun _ => .inl h, fun _ => rfl⟩
  · rw [completedBy_toOption h, Option.bind_eq_some_iff, Missed, or_iff_right h]
    refine exists_congr fun f => and_congr_right fun _ => ?_
    by_cases hle : earliest ≤ f <;> simp [hle]

theorem completedBy_eq_none {earliest deadline : ℚ} {episode : Json} :
    (completedBy earliest deadline episode).toOption = none ↔ Malformed earliest episode := by
  by_cases h : Unfinished episode
  · rw [completedBy_of_unfinished h]
    exact ⟨nofun, fun h' => absurd h h'.1⟩
  · rw [completedBy_toOption h, Option.bind_eq_none_iff, Malformed, and_iff_right h]
    refine forall_congr' fun f => imp_congr_right fun _ => ?_
    by_cases hle : earliest ≤ f
    · simp [hle]
    · simp [hle, not_le.1 hle]

/-! ## The assessment of a record -/

/-- A worker's record with the given episodes. -/
def withEpisodes (fields : List (String × Json)) (episodes : List Json) : Json :=
  .obj (setField "episodes" (.arr episodes) fields)

theorem startedAt_eq_some {episode : Json} {t : ℚ} : startedAt episode = some t ↔
    ∃ v, startOf episode = .ok v ∧ finiteOr "Malformed episode start" v = .ok t := by
  simp only [startedAt, Option.bind_eq_some_iff, eq_ok_iff_toOption, finiteOr_toOption]

/-- The starts that are read are those of the episodes. -/
theorem starts_eq_ok {episodes : List Json} {starts : List ℚ} :
    (∃ values, episodes.mapM startOf = .ok values ∧
      values.mapM (finiteOr "Malformed episode start") = .ok starts) ↔
        episodes.map startedAt = starts.map some := by
  simp only [mapM_eq_ok]
  induction episodes generalizing starts with
  | nil => cases starts <;> simp
  | cons e es ih =>
      cases starts with
      | nil => simp
      | cons t ts =>
          simp only [List.map_cons, List.cons.injEq, ← ih, startedAt_eq_some]
          constructor
          · rintro ⟨values, hvalues, hstarts⟩
            cases values with
            | nil => cases hvalues
            | cons v vs =>
                obtain ⟨hv, hvs⟩ := List.cons.inj hvalues
                obtain ⟨ht, hts⟩ := List.cons.inj hstarts
                exact ⟨⟨v, hv, ht⟩, vs, hvs, hts⟩
          · rintro ⟨⟨v, hv, ht⟩, vs, hvs, hts⟩
            exact ⟨v :: vs, by rw [hv, hvs, List.map_cons], by rw [List.map_cons, ht, hts]⟩

theorem tied_eq {earliest : ℚ} {episodes : List Json} {starts : List ℚ}
    (h : episodes.map startedAt = starts.map some) :
    tied earliest episodes starts = episodes.filter fun e => startedAt e = some earliest := by
  unfold tied
  induction episodes generalizing starts with
  | nil => rfl
  | cons e es ih =>
      cases starts with
      | nil => cases h
      | cons t ts =>
          obtain ⟨ht, hts⟩ := List.cons.inj h
          rw [List.zip_cons_cons, List.filter_cons, List.filter_cons, ← ih hts, ht]
          by_cases heq : t = earliest <;> simp [heq]

theorem min?_eq_some {t : ℚ} {episodes : List Json} {starts : List ℚ}
    (h : episodes.map startedAt = starts.map some) : starts.min? = some t ↔ Earliest t episodes := by
  have hmem : ∀ u, u ∈ starts ↔ ∃ e ∈ episodes, startedAt e = some u := by
    intro u
    rw [← List.mem_map_of_injective (Option.some_injective ℚ), ← h, List.mem_map]
  rw [List.min?_eq_some_iff, hmem, Earliest]
  refine and_congr_right fun _ => ⟨fun hle e he => ?_, fun hall u hu => ?_⟩
  · have hsome : startedAt e ∈ starts.map some := h ▸ List.mem_map_of_mem he
    obtain ⟨u, hu, heq⟩ := List.mem_map.1 hsome
    exact ⟨u, heq.symm, hle u hu⟩
  · obtain ⟨e, he, heq⟩ := (hmem u).1 hu
    obtain ⟨u', heq', hle⟩ := hall e he
    rw [heq] at heq'
    cases heq'
    exact hle

theorem Earliest.unique {t u : ℚ} {episodes : List Json} (ht : Earliest t episodes)
    (hu : Earliest u episodes) : t = u := by
  apply le_antisymm
  · obtain ⟨e, he, heq⟩ := hu.1
    obtain ⟨t', heq', hle⟩ := ht.2 e he
    rw [heq] at heq'
    cases heq'
    exact hle
  · obtain ⟨e, he, heq⟩ := ht.1
    obtain ⟨u', heq', hle⟩ := hu.2 e he
    rw [heq] at heq'
    cases heq'
    exact hle

theorem Earliest.of_perm {t : ℚ} {episodes episodes' : List Json} (h : Earliest t episodes)
    (hperm : episodes'.Perm episodes) : Earliest t episodes' := by
  obtain ⟨⟨e, he, heq⟩, hall⟩ := h
  exact ⟨⟨e, hperm.mem_iff.2 he, heq⟩, fun e he => hall e (hperm.mem_iff.1 he)⟩

theorem mem_tied {earliest : ℚ} {episodes : List Json} {e : Json} (h : Earliest earliest episodes) :
    (e ∈ episodes.filter fun e => startedAt e = some earliest) ↔ First episodes e := by
  rw [List.mem_filter, decide_eq_true_eq]
  refine and_congr_right fun _ => ⟨fun heq => ⟨earliest, heq, h⟩, ?_⟩
  rintro ⟨t, heq, ht⟩
  rw [heq, ht.unique h]

section
variable {fields : List (String × Json)} {episodes : List Json} {deadline : Json} {limit : ℚ}

theorem subscript_withEpisodes :
    (withEpisodes fields episodes).subscript "episodes" = .ok (.arr episodes) := by
  simp [withEpisodes, subscript]

variable (hlimit : finite? deadline = .ok (some limit))
include hlimit

theorem assess_nil : firstEpisodeCompletedBy (withEpisodes fields []) deadline = .ok false := by
  unfold firstEpisodeCompletedBy finiteOr
  rw [hlimit, subscript_withEpisodes]
  rfl

/-- The steps of the assessment of a record with episodes. -/
theorem assess_eq (hne : episodes ≠ []) :
    firstEpisodeCompletedBy (withEpisodes fields episodes) deadline = (do
      let values ← walk (episodes.mapM startOf)
      let starts ← values.mapM (finiteOr "Malformed episode start")
      match starts.min? with
      | some earliest => (tied earliest episodes starts).allM (completedBy earliest limit)
      | none => throw (.python (.valueError "min() iterable argument is empty"))) := by
  have htruthy : (Json.arr episodes).truthy = true := by
    cases episodes with
    | nil => exact absurd rfl hne
    | cons e es => rfl
  unfold firstEpisodeCompletedBy
  rw [finiteOr, hlimit, subscript_withEpisodes]
  change (if (Json.arr episodes).truthy then _ else _) = _
  rw [if_pos htruthy]
  rfl

/-- Where all starts are well formed, the episodes that started first are assessed. -/
theorem assess_of_earliest {earliest : ℚ} (h : Earliest earliest episodes) :
    firstEpisodeCompletedBy (withEpisodes fields episodes) deadline =
      (episodes.filter fun e => startedAt e = some earliest).allM (completedBy earliest limit) := by
  obtain ⟨e, he, -⟩ := h.1
  have hstarts : episodes.map startedAt = (episodes.map fun e => (startedAt e).getD 0).map some := by
    rw [List.map_map]
    refine List.map_congr_left fun e he => ?_
    obtain ⟨u, hu, -⟩ := h.2 e he
    simp [hu]
  obtain ⟨values, hvalues, hread⟩ := starts_eq_ok.2 hstarts
  rw [assess_eq hlimit (List.ne_nil_of_mem he), hvalues, walk_ok, ok_bind, hread, ok_bind,
    (min?_eq_some hstarts).2 h]
  exact congrArg _ (tied_eq hstarts)

/-- Where some start is malformed, the record is refused. -/
theorem assess_of_malformed (hne : episodes ≠ []) (h : ∀ t, ¬ Earliest t episodes) :
    (firstEpisodeCompletedBy (withEpisodes fields episodes) deadline).toOption = none := by
  rw [assess_eq hlimit hne]
  cases hvalues : episodes.mapM startOf with
  | error e => rfl
  | ok values =>
      rw [walk_ok, ok_bind]
      cases hread : values.mapM (finiteOr "Malformed episode start") with
      | error e => rfl
      | ok starts =>
          have hstarts := starts_eq_ok.1 ⟨values, hvalues, hread⟩
          rw [ok_bind]
          cases hmin : starts.min? with
          | none => rfl
          | some t => exact absurd ((min?_eq_some hstarts).1 hmin) (h t)

/-- A result is `true` just in case there are episodes, and those that started first finished
in time. -/
theorem assess_eq_some {b : Bool}
    (h : firstEpisodeCompletedBy (withEpisodes fields episodes) deadline = .ok b) :
    b = true ↔ episodes ≠ [] ∧ ∀ e, First episodes e → ∃ f, finishedAt e = some f ∧ f ≤ limit := by
  by_cases hne : episodes = []
  · subst hne
    rw [assess_nil hlimit] at h
    cases h
    exact ⟨nofun, fun h => absurd rfl h.1⟩
  · have hsome : ∃ t, Earliest t episodes := by
      by_contra hnone
      have hrefused : (firstEpisodeCompletedBy (withEpisodes fields episodes) deadline).toOption = none :=
        assess_of_malformed hlimit hne (not_exists.1 hnone)
      rw [h] at hrefused
      cases hrefused
    obtain ⟨earliest, hearliest⟩ := hsome
    rw [assess_of_earliest hlimit hearliest] at h
    cases b with
    | true =>
        have hmet := allM_eq_true.1 (congrArg Except.toOption h)
        refine iff_of_true rfl ⟨hne, fun e he => ?_⟩
        obtain ⟨f, hf, -, hle⟩ := completedBy_eq_true.1 (hmet e ((mem_tied hearliest).2 he))
        exact ⟨f, hf, hle⟩
    | false =>
        -- some episode that started first has no outcome, or one that is late
        have hmissed : ∃ e, First episodes e ∧ Missed earliest limit e := by
          by_contra hnone
          refine allM_ne (r := some false) (by decide) (fun e he hfalse => hnone ?_)
            (congrArg Except.toOption h)
          exact ⟨e, (mem_tied hearliest).1 he, completedBy_eq_false.1 hfalse⟩
        obtain ⟨e, he, hmissed⟩ := hmissed
        refine iff_of_false nofun fun hall => ?_
        obtain ⟨f, hf, hle⟩ := hall.2 e he
        rcases hmissed with hnull | ⟨f', hf', -, hlt⟩
        · exact not_unfinished_of_finishedAt hf hnull
        · rw [hf] at hf'
          cases hf'
          exact absurd hle (not_le.2 hlt)

/-- Among the episodes that started first, one has no outcome or finished late, and one is
malformed. -/
def Conflict (limit : ℚ) (episodes : List Json) : Prop :=
  ∃ earliest, Earliest earliest episodes ∧
    (∃ e ∈ episodes, startedAt e = some earliest ∧ Missed earliest limit e) ∧
      ∃ e ∈ episodes, startedAt e = some earliest ∧ Malformed earliest e

omit hlimit in
theorem conflict_iff {earliest : ℚ} (h : Earliest earliest episodes) :
    Conflict limit episodes ↔
      (∃ e ∈ episodes.filter fun e => startedAt e = some earliest,
        (completedBy earliest limit e).toOption = some false) ∧
      ∃ e ∈ episodes.filter fun e => startedAt e = some earliest,
        (completedBy earliest limit e).toOption = none := by
  simp only [completedBy_eq_false, completedBy_eq_none, List.mem_filter, decide_eq_true_eq, and_assoc]
  constructor
  · rintro ⟨t, ht, hmissed, hmalformed⟩
    rw [← ht.unique h]
    exact ⟨hmissed, hmalformed⟩
  · rintro ⟨hmissed, hmalformed⟩
    exact ⟨earliest, h, hmissed, hmalformed⟩

end

/-- An episode that started at ten, with the given outcome. -/
def sampleEpisode (outcome : Json) : Json :=
  .obj [("attempt", .obj [("started_at", .int 10)]), ("outcome", outcome)]

end AutonomyLab.Horizon
