import AutonomyLab.Admission.Progress

/-!
# What two ledgers guarantee

The journal and the admission ledger never commit together.  What a campaign guarantees all
the same, of every configuration it can reach, with any process dying at any point.
-/

namespace AutonomyLab.Admission

open Json Store Process Broker

variable {P : Platform} {c c' : Campaigns} {id : String} {e a : Did} {past : List Did}

/-- What a patch rests on that leaves a process. -/
theorem authorization_of_transport (h : Reachable (campaign P) c) {ns name : String}
    {patch : List Op} (hs : e :: past <:+ c.view.hist)
    (hl : e.label = .ext (.transport id ns name patch)) :
    ∃ a p patch' row, authorizations id past = [a] ∧ a.tid = e.tid ∧
      a.label = .ext (.authorize p (e.pre.journal.binding id) patch') ∧
      Requested id p e.pre.journal ∧
      e.pre.rest.registry.authorizations.find? id = some row ∧
      row.requestSha256 = requestDigest P p ∧
      e.pre.rest.registry.conditions.find? id =
        some ⟨encoded P (e.pre.journal.binding id), encoded P (patchJson patch)⟩ ∧
      encoded P (patchJson patch') = encoded P (patchJson patch) := by
  obtain ⟨hpast, hact, -⟩ := (past_of_reachable h).suffix hs
  obtain ⟨⟨row, hcov, -⟩, -⟩ := Act.cleared (hl ▸ hact)
  obtain ⟨a, before, p, binding, patch', hone, hsuf, hal, hauth⟩ := hpast.authorizes hcov.found
  have hmem : a ∈ authorizations id past := hone ▸ List.mem_singleton_self a
  obtain ⟨hreq, hbinding, -⟩ := hpast.request_of_authorization hmem hal
  obtain ⟨a', ha', hat⟩ := hcov.own
  have hconditions := ((hpast.suffix hsuf).2.2.1.conditions hauth.conditions).symm.trans
    hcov.conditions
  rw [Option.some.injEq, Conditions.mk.injEq] at hconditions
  rw [← hbinding] at hal
  exact ⟨a, p, patch', row, hone, by rw [hpast.authorization_unique hmem ha', hat], hal, hreq,
    hcov.found, hauth.digest, hcov.conditions, hconditions.2⟩

/-- What has been authorized by a process that has ended is not sent any more. -/
theorem unsent_of_ended (h : Reachable (campaign P) c)
    (ha : a ∈ authorizations id c.view.hist) (hended : Ended c a.tid)
    (hn : transports id c.view.hist = []) (hs : Steps (campaign P) c c') :
    transports id c'.view.hist = [] := by
  have hkeep : (a ∈ authorizations id c'.view.hist ∧ transports id c'.view.hist = []) ∧
      Ended c' a.tid := by
    refine preserved_of_ended (sound_campaign (P := P)) (I := fun v =>
      a ∈ authorizations id v.hist ∧ transports id v.hist = []) ?_ (fun v w _ hI => hI)
      (fun c D w _ hI => hI) h hs hended ⟨ha, hn⟩
    rintro u o v _ hne ⟨-, hpast⟩ ⟨l, w, rfl, hact⟩ ⟨hmem, hnone⟩
    refine ⟨authorizations_mono (List.suffix_cons _ _) hmem, ?_⟩
    refine (transports_cons_of_ne fun hl => ?_).trans hnone
    -- whoever sends it has authorized it, and only one process has
    obtain ⟨ns, name, patch, rfl⟩ := sentFor_eq_some.1 hl
    obtain ⟨row, hcov, -⟩ := (Act.cleared hact).covered
    obtain ⟨a', ha', hat⟩ := hcov.own
    exact hne (by rw [← hat, hpast.authorization_unique ha' hmem])
  exact hkeep.1.2

end AutonomyLab.Admission
