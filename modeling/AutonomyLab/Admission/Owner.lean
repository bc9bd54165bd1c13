import AutonomyLab.Admission.Protocol

/-!
# Whose authorization it is

What a history of a campaign says about one operation.

* `Past.started` — the episode a process works in was started by itself, so whoever finds an
  authorization under its own episode has committed it (`Past.own_authorization`).
* `Past.saved` — whoever has sent the patch of an operation has a file of it in its own
  workspace, so where there is none, none has been sent (`Past.unsent`).
* `Past.transports_le_one` — a patch is sent at most once.
* `Past.request_of_authorization` — what an operation has been authorized for is what its
  row and its binding still say.
* `Past.not_withdrawn` — nothing is authorized after the version has been withdrawn.
-/

namespace AutonomyLab.Admission

open Json Store Process Broker

variable {P : Platform} {t : ℕ} {o : String} {v : Seen} {d : Deed} {l : Label Deed}
  {w : World Campaign} {c r : Campaign} {hist past : List Did} {e a : Did} {id : String}
  {j : Journal} {pin : Pin} {row : Authorization}

/-! ## What single acts say -/

/-- The commit of an authorization. -/
structure Authorizes (P : Platform) (t : ℕ) (id : String) (v : Seen) (w : World Campaign)
    (p : Proposal) (binding : Json) (patch : List Op) (row : Authorization) : Prop where
  request : Requested id p v.world.journal
  bound : v.world.journal.binding id = binding
  settled : Settled binding
  found : w.rest.authorizations.find? id = some row
  digest : row.requestSha256 = requestDigest P p
  conditions : w.rest.registry.conditions.find? id =
    some ⟨encoded P binding, encoded P (patchJson patch)⟩
  selected : ∃ pin, (v.world.rest.operators t).pin = some pin ∧ row.episode = pin.episode
  admitted : ¬ v.world.rest.registry.Withdrawn row.version

/-- The legacy contract asks for no conditions. -/
theorem settled_of_legacy {binding : Json}
    (h : subscript "contract_id" binding = .ok (.str Contract.legacy)) : Settled binding := by
  refine .inr ⟨_, h, ?_⟩
  rw [pyEq_str_iff]
  decide

theorem Act.authorizes (h : Act P (ext P) t o v l w)
    (hn : (v.world.rest.authorizations.find? id).isNone)
    (hs : (w.rest.authorizations.find? id).isSome) :
    ∃ p binding patch row, l = .ext (.authorize p binding patch) ∧
      Authorizes P t id v w p binding patch row := by
  have hne : w.rest.authorizations ≠ v.world.rest.authorizations := by
    intro heq
    rw [heq, Option.isSome_iff_ne_none] at hs
    exact hs (Option.isNone_iff_eq_none.1 hn)
  rcases Act.rest h with ⟨heq, -⟩ | ⟨d, rfl, -, hd⟩
  · exact absurd (by rw [heq]) hne
  · by_cases hauth : ∃ p binding patch, d = .authorize p binding patch
    · obtain ⟨p, binding, patch, rfl⟩ := hauth
      generalize hr : w.rest = r at hd
      cases hd with
      | look hl => cases hl
      | @authorize _ _ _ conditions calibrated exact hreq hb hc =>
          cases hf : v.world.rest.registry.authorize P calibrated exact
              (v.world.rest.operators t).pin p conditions with
          | error err =>
              rw [hf] at hr
              exact absurd (by rw [hr]; rfl) hne
          | ok x =>
              obtain ⟨row, r'⟩ := x
              rw [hf] at hr
              obtain ⟨pin, hpin, hnew, hnw, authorizations, bound, ha, hbd, rfl⟩ := authorize_eq_ok hf
              have hfind : w.rest.authorizations.find? id = if id = p.operationId.1 then some row
                  else v.world.rest.authorizations.find? id := by
                rw [hr]
                exact Table.find?_insert ha
              obtain rfl : id = p.operationId.1 := by
                by_contra hid
                rw [hfind, if_neg hid, Option.isSome_iff_ne_none] at hs
                exact hs (Option.isNone_iff_eq_none.1 hn)
              obtain ⟨hleg, rfl⟩ := executionConditions_eq_ok hc
              refine ⟨p, binding, patch, row, rfl, hreq, hb, ?_, hfind.trans (if_pos rfl), by rw [hnew], ?_,
                ⟨pin, hpin, by rw [hnew]⟩, hnw⟩
              · exact settled_of_legacy hleg
              · rw [hr]
                exact (Table.find?_insert hbd).trans (if_pos rfl)
    · by_cases hstart : d = .startEpisode
      · subst hstart
        generalize hr : w.rest = r at hd
        cases hd with
        | look hl => cases hl
        | @startEpisode files calibrated =>
            refine absurd ?_ hne
            rw [hr]
            rcases startEpisode_cases files calibrated t v.world.rest with heq | ⟨_, _, _, _, heq⟩
            · rw [heq]
            · rw [heq]
              rfl
      · exact absurd (hd.tables hstart fun p b patch heq => hauth ⟨p, b, patch, heq⟩).1 hne

/-- The episode of a process, and what it has selected, come from the start of an episode. -/
theorem Act.pin_cases (h : Act P (ext P) t o v l w) (hp : (w.rest.operators t).pin = some pin) :
    ((v.world.rest.operators t).pin = some pin ∧
      (w.rest.operators t).episode = (v.world.rest.operators t).episode) ∨
    ((w.rest.operators t).episode = some pin.episode ∧
      (v.world.rest.pins.find? pin.episode).isNone ∧ (w.rest.pins.find? pin.episode).isSome) := by
  rcases Act.rest h with ⟨heq, -⟩ | ⟨d, rfl, -, hd⟩
  · rw [heq] at hp ⊢
    exact .inl ⟨hp, rfl⟩
  · generalize w.rest = r at hp hd ⊢
    cases hd with
    | @makeEpisode name =>
        unfold Campaign.makeEpisode at hp ⊢
        dsimp only at hp ⊢
        split at hp <;> rename_i hmem
        · rw [if_pos hmem]
          exact .inl ⟨hp, rfl⟩
        · rw [Campaign.setOperator_self] at hp
          cases hp
    | @startEpisode files calibrated =>
        rcases startEpisode_cases files calibrated t v.world.rest with
          heq | ⟨pin', pins, hep, hpins, heq⟩
        · rw [heq] at hp ⊢
          exact .inl ⟨hp, rfl⟩
        · rw [heq] at hp ⊢
          obtain rfl : pin' = pin := by simpa [Campaign.setOperator] using hp
          refine .inr ⟨by simpa [Campaign.setOperator] using hep, ?_, ?_⟩
          · exact Option.isNone_iff_eq_none.2 (Table.insert_eq_some hpins).1
          · rw [Campaign.pins, Table.find?_insert hpins, if_pos rfl]
            rfl
    | saveBinding =>
        unfold Campaign.saveBinding at hp ⊢
        dsimp only at hp ⊢
        split at hp <;> rename_i hep
        · rw [hep]
          exact .inl ⟨hp, hep.symm ▸ rfl⟩
        · rw [Campaign.setOperator_self] at hp
          rw [hep]
          exact .inl ⟨hp, by simp⟩
    | _ => exact .inl ⟨hp, rfl⟩

/-! ## Episodes -/

/-- **A process works in an episode that it has started itself.** -/
theorem Past.started (h : Past P hist j c) (hp : (c.operators t).pin = some pin) :
    (c.operators t).episode = some pin.episode ∧
      ∃ e ∈ entries Campaign.pins pin.episode hist, e.tid = t := by
  induction h with
  | nil => cases hp
  | @cons e past hpast ha ih =>
      have hkeep : (∃ e' ∈ entries Campaign.pins pin.episode past, e'.tid = t) →
          ∃ e' ∈ entries Campaign.pins pin.episode (e :: past), e'.tid = t := by
        rintro ⟨e', he', ht⟩
        exact ⟨e', mem_entries.2 ⟨List.mem_cons_of_mem _ (mem_entries.1 he').1, (mem_entries.1 he').2⟩,
          ht⟩
      by_cases ht : e.tid = t
      · subst ht
        rcases Act.pin_cases ha hp with ⟨hp', hep⟩ | ⟨hep, hn, hs⟩
        · exact ⟨hep.trans (ih hp').1, hkeep (ih hp').2⟩
        · exact ⟨hep, e, mem_entries.2 ⟨List.mem_cons_self, hn, hs⟩, rfl⟩
      · rw [(Act.keeps ha).others t (Ne.symm ht)] at hp ⊢
        exact ⟨(ih hp).1, hkeep (ih hp).2⟩

/-- The commit of the authorization that is found for an operation. -/
theorem Past.authorizes (h : Past P hist j c) (hrow : c.authorizations.find? id = some row) :
    ∃ a past p binding patch, authorizations id hist = [a] ∧ a :: past <:+ hist ∧
      a.label = .ext (.authorize p binding patch) ∧
      Authorizes P a.tid id ⟨a.pre, past⟩ a.post p binding patch row := by
  obtain ⟨a, hone, hpost⟩ := (h.authorization_enters id).2 row hrow
  have hmem : a ∈ authorizations id hist := hone ▸ List.mem_singleton_self a
  obtain ⟨hhist, hn, hs⟩ := mem_entries.1 hmem
  obtain ⟨past, hsuf, -, ha, -⟩ := h.of_mem hhist
  obtain ⟨p, binding, patch, row', hl, hauth⟩ := Act.authorizes ha hn hs
  obtain rfl : row' = row := Option.some.inj (hauth.found.symm.trans hpost)
  exact ⟨a, past, p, binding, patch, hone, hsuf, hl, hauth⟩

/-- **Whoever finds an authorization under its own episode has committed it.** -/
theorem Past.own_authorization (h : Past P hist j c)
    (hrow : c.authorizations.find? id = some row) (hp : (c.operators t).pin = some pin)
    (he : row.episode = pin.episode) : ∃ a ∈ authorizations id hist, a.tid = t := by
  obtain ⟨a, past, p, binding, patch, hone, hsuf, -, hauth⟩ := h.authorizes hrow
  obtain ⟨pin', hp', he'⟩ := hauth.selected
  -- the episode was started by whoever committed the authorization, and by `t`
  obtain ⟨-, e₁, he₁, ht₁⟩ := (h.suffix hsuf).1.started hp'
  obtain ⟨-, e₂, he₂, ht₂⟩ := h.started hp
  rw [← he', he] at he₁
  have hsub : e₁ ∈ entries Campaign.pins pin.episode hist :=
    mem_entries.2 ⟨hsuf.subset (List.mem_cons_of_mem _ (mem_entries.1 he₁).1), (mem_entries.1 he₁).2⟩
  refine ⟨a, hone ▸ List.mem_singleton_self a, ?_⟩
  rw [← ht₁, ← ht₂, h.start_unique hsub he₂]

/-! ## Patches -/

theorem sentFor_eq_some {l : Label Deed} :
    sentFor l = some id ↔ ∃ ns name patch, l = .ext (.transport id ns name patch) := by
  unfold sentFor
  split
  · rename_i k ns name patch
    constructor
    · rintro ⟨⟩
      exact ⟨ns, name, patch, rfl⟩
    · rintro ⟨ns', name', patch', h⟩
      cases h
      rfl
  · rename_i hne
    constructor
    · nofun
    · rintro ⟨ns, name, patch, rfl⟩
      exact absurd rfl (hne id ns name patch)

theorem Act.cleared {ns name : String} {patch : List Op}
    (h : Act P (ext P) t o v (.ext (.transport id ns name patch)) w) : Cleared P t id patch v := by
  rcases Act.rest h with ⟨-, hne⟩ | ⟨d, hl, -, hd⟩
  · exact absurd rfl (hne _)
  · obtain rfl : Deed.transport id ns name patch = d := by injection hl
    generalize w.rest = r at hd
    cases hd with
    | look hl => cases hl
    | transport hc => exact hc

/-- Whoever sends a patch may send it. -/
theorem Past.cleared (h : Past P hist j c) (he : e ∈ transports id hist) :
    ∃ past ns name patch, e :: past <:+ hist ∧ e.label = .ext (.transport id ns name patch) ∧
      Cleared P e.tid id patch ⟨e.pre, past⟩ := by
  obtain ⟨hmem, hl⟩ := mem_transports.1 he
  obtain ⟨ns, name, patch, hl⟩ := sentFor_eq_some.1 hl
  obtain ⟨past, hsuf, -, ha, -⟩ := h.of_mem hmem
  exact ⟨past, ns, name, patch, hsuf, hl, Act.cleared (hl ▸ ha)⟩

/-- **Whoever has sent a patch has committed its authorization, and has it on file.** -/
theorem Past.saved (h : Past P hist j c) (he : e ∈ transports id hist) :
    (∃ a ∈ authorizations id hist, a.tid = e.tid) ∧
      ∃ row, c.authorizations.find? id = some row ∧
        (row.episode, id) ∈ (c.operators e.tid).bindings := by
  obtain ⟨past, ns, name, patch, hsuf, -, ⟨row, hcov, hb⟩, -⟩ := h.cleared he
  obtain ⟨-, ha, hk, hbind⟩ := h.suffix hsuf
  obtain ⟨a, hamem, hat⟩ := hcov.own
  have hkeeps := Act.keeps ha
  refine ⟨⟨a, mem_entries.2 ⟨hsuf.subset (List.mem_cons_of_mem _ (mem_entries.1 hamem).1),
    (mem_entries.1 hamem).2⟩, hat⟩, row, hk.authorizations (hkeeps.registry.authorizations hcov.found),
    hbind _ _ (hkeeps.bindings _ _ hb)⟩

theorem Past.authorization_unique (h : Past P hist j c) {a' : Did}
    (ha : a ∈ authorizations id hist) (ha' : a' ∈ authorizations id hist) : a = a' := by
  obtain ⟨x, hx⟩ : ∃ x, authorizations id hist = [x] := by
    rw [← List.length_eq_one_iff]
    exact Nat.le_antisymm (h.authorizations_le_one id) (List.length_pos_of_mem ha)
  rw [hx, List.mem_singleton] at ha ha'
  rw [ha, ha']

/-- **Where a process has no file of an operation authorized to it, nothing was sent.** -/
theorem Past.unsent (h : Past P hist j c) (hrow : c.authorizations.find? id = some row)
    (ht : ∃ a ∈ authorizations id hist, a.tid = t)
    (hn : (row.episode, id) ∉ (c.operators t).bindings) : transports id hist = [] := by
  rw [List.eq_nil_iff_forall_not_mem]
  intro e he
  obtain ⟨⟨a, ha, hat⟩, row', hrow', hb⟩ := h.saved he
  obtain ⟨a', ha', rfl⟩ := ht
  rw [hrow, Option.some.injEq] at hrow'
  rw [h.authorization_unique ha' ha, hat, hrow'] at hn
  exact hn hb

/-- **A patch is sent at most once.** -/
theorem Past.transports_le_one (h : Past P hist j c) (id : String) :
    (transports id hist).length ≤ 1 := by
  induction h with
  | nil => exact Nat.zero_le _
  | @cons e past hp ha ih =>
      by_cases hl : sentFor e.label = some id
      · obtain ⟨ns, name, patch, hlabel⟩ := sentFor_eq_some.1 hl
        have hnil : transports id past = [] := (Act.cleared (hlabel ▸ ha)).unsent
        rw [transports, List.filter_cons_of_pos (by rwa [decide_eq_true_eq]), ← transports, hnil]
        exact le_refl 1
      · rw [transports_cons_of_ne hl]
        exact ih

/-! ## Requests and versions -/

/-- **What an operation has been authorized for is what it still asks for.** -/
theorem Past.request_of_authorization (h : Past P hist j c) (ha : a ∈ authorizations id hist)
    {p : Proposal} {binding : Json} {patch : List Op}
    (hl : a.label = .ext (.authorize p binding patch)) :
    Requested id p j ∧ j.binding id = binding ∧ Settled binding := by
  induction h with
  | nil => cases ha
  | @cons e past hp hact ih =>
      obtain ⟨hmem, henters⟩ := mem_entries.1 ha
      rcases List.mem_cons.1 hmem with rfl | hmem
      · obtain ⟨p', b', patch', row, hl', hauth⟩ := Act.authorizes hact henters.1 henters.2
        rw [hl] at hl'
        obtain ⟨rfl, rfl, rfl⟩ : p = p' ∧ binding = b' ∧ patch = patch' := by
          injection hl' with hl'
          injection hl' with h₁ h₂ h₃
          exact ⟨h₁, h₂, h₃⟩
        rcases Act.rest hact with ⟨-, hne⟩ | ⟨d, -, hj, -⟩
        · exact absurd hl (hne _)
        · rw [hj]
          exact ⟨hauth.request, hauth.bound, hauth.settled⟩
      · obtain ⟨⟨hid, row, hrow, hreq⟩, hb, hset⟩ := ih (mem_entries.2 ⟨hmem, henters⟩)
        obtain ⟨row', hrow', hreq', -⟩ := (hact.effect id).keeps_row hrow
        refine ⟨⟨hid, row', hrow', hreq' ▸ hreq⟩, ?_, hset⟩
        rw [← hb] at hset ⊢
        exact (hact.effect id).keeps_settled hset

/-- **Nothing is authorized under a version that has been withdrawn.** -/
theorem Past.not_withdrawn (h : Past P hist j c) (hs : a :: past <:+ hist)
    (ha : Enters Campaign.authorizations id a) (hrow : a.post.rest.authorizations.find? id = some row) :
    ∀ w ∈ past, ¬ w.post.rest.registry.Withdrawn row.version := by
  intro w hw hwd
  obtain ⟨hpast, hact, -⟩ := h.suffix hs
  obtain ⟨p, binding, patch, row', -, hauth⟩ := Act.authorizes hact ha.1 ha.2
  obtain rfl : row' = row := Option.some.inj (hauth.found.symm.trans hrow)
  obtain ⟨-, -, -, -, hk, -⟩ := hpast.of_mem hw
  exact hauth.admitted (hk.withdrawn hwd)

end AutonomyLab.Admission
