import AutonomyLab.Admission.Progress

/-!
# The history that the admission ledger keeps

The decisions of a ledger are an append-only history, of which `state`, the selections
and the authorizations are summaries.  Any number of calls may be under way on one
ledger, and each may be cut short.

* `Ledger` — what the summaries say, and that the history has no gap.
* `Entry` — one transaction; `Entry.ledger` and `Entry.later` are what it keeps.
* `administration`, `ledger_sound` — the calls, in every interleaving, and what holds
  in every state they reach.
-/

namespace AutonomyLab.Admission

open Json Store Process Broker
open Contract (legacy bindingFor)

/-! ## The history and its summaries -/

/-- Revision `revision` is the decision that promoted `version`. -/
def Promoted (r : Registry) (version : String) (revision : ℕ) : Prop :=
  ∃ receipt, r.decisions.find? revision = some ("promoted", receipt) ∧
    field? "version" receipt = some (.str version)

/-- Every decision after revision `a`, up to and including `b`, rejected a candidate. -/
def OnlyRejected (r : Registry) (a b : ℕ) : Prop :=
  ∀ k, a < k → k ≤ b → ∃ receipt, r.decisions.find? k = some ("rejected", receipt)

/-- What the tables of a ledger say about its history. -/
structure Ledger (r : Registry) : Prop where
  /-- There is one decision for each revision, and they are in order. -/
  revisions : r.decisions.rows.map Prod.fst = List.range' 1 r.state.revision
  paired : r.state.active.isSome = r.state.activeRevision.isSome
  /-- What is active is what was promoted last, and nothing was withdrawn since. -/
  active : ∀ version revision, r.state.active = some version →
    r.state.activeRevision = some revision → Promoted r version revision ∧
      OnlyRejected r revision r.state.revision
  notWithdrawn : ∀ version, r.state.active = some version → ¬ r.Withdrawn version
  pins : ∀ episode version revision, r.pins.find? episode = some (version, revision) →
    Promoted r version revision
  authorizations : ∀ id row, r.authorizations.find? id = some row →
    row.activationRevision ≤ row.decisionRevision ∧ row.decisionRevision ≤ r.state.revision ∧
      OnlyRejected r row.activationRevision row.decisionRevision

/-- What is true of a ledger when it is read again: rows of selections and authorizations
are as they were, and none has been made since for a version withdrawn by then. -/
structure Later (r r' : Registry) : Prop extends Keeps r r' where
  newPins : ∀ {version}, r.Withdrawn version → ∀ {episode revision},
    r'.pins.find? episode = some (version, revision) →
      r.pins.find? episode = some (version, revision)
  newAuthorizations : ∀ {version}, r.Withdrawn version → ∀ {id row},
    r'.authorizations.find? id = some row → row.version = version →
      r.authorizations.find? id = some row

variable {P : Platform} {r r' r'' : Registry}

theorem Later.refl (r : Registry) : Later r r := ⟨.refl r, fun _ => id, fun _ _ _ h _ => h⟩

theorem Later.trans (h : Later r r') (h' : Later r' r'') : Later r r'' where
  toKeeps := h.toKeeps.trans h'.toKeeps
  newPins hw _ _ hp := h.newPins hw (h'.newPins (h.withdrawn hw) hp)
  newAuthorizations hw _ _ ha hv := h.newAuthorizations hw (h'.newAuthorizations (h.withdrawn hw) ha hv) hv

/-- One transaction on a ledger. -/
inductive Entry (P : Platform) (r : Registry) : Registry → Prop
  | none : Entry P r r
  | promotion (receipt : Receipt) (expected : Json) : Entry P r (r.commit (r.recordPromotion receipt expected))
  | withdrawal (expected : Json) : Entry P r (r.commit (r.withdraw expected))
  | pin (fresh : Bool) (select : Json → Except BrokerError Json) (files : Json) (episode : String) :
      Entry P r (r.commit (r.pinEpisode fresh select files episode))
  | authorization (calibrated exact : Except PyError Unit) (pin : Option Pin) (p : Proposal)
      (conditions : Conditions) :
      Entry P r (r.commit (r.authorize P calibrated exact pin p conditions))
  | refusal (action : String) (details : Json) : Entry P r (r.recordRefusal action details)

/-! ## One transaction -/

theorem Ledger.mem_iff (h : Ledger r) {k : ℕ} {x : String × Json}
    (hx : r.decisions.find? k = some x) : 1 ≤ k ∧ k ≤ r.state.revision := by
  have hmem : k ∈ r.decisions.rows.map Prod.fst :=
    List.mem_map.2 ⟨(k, x), Table.find?_eq_some.1 hx, rfl⟩
  rw [h.revisions, List.mem_range'_1] at hmem
  omega

/-- The table of decisions after the next decision. -/
structure Decides (r : Registry) (kind : String) (receipt : Json) (r' : Registry) : Prop where
  revision : r'.state.revision = r.state.revision + 1
  decisions : r.decisions.insert (r.state.revision + 1) (kind, receipt) = some r'.decisions

section
variable {kind : String} {receipt : Json}

theorem Decides.revisions (hd : Decides r kind receipt r') (h : Ledger r) :
    r'.decisions.rows.map Prod.fst = List.range' 1 r'.state.revision := by
  rw [(Table.insert_eq_some hd.decisions).2, List.map_append, h.revisions, hd.revision,
    List.range'_concat]
  simp [Nat.add_comm]

theorem Decides.promoted (hd : Decides r kind receipt r') {version : String} {revision : ℕ}
    (h : Promoted r version revision) : Promoted r' version revision := by
  obtain ⟨receipt, hk, hv⟩ := h
  exact ⟨receipt, find?_of_insert hd.decisions hk, hv⟩

theorem Decides.onlyRejected (hd : Decides r kind receipt r') {a b : ℕ} (h : OnlyRejected r a b) :
    OnlyRejected r' a b := by
  intro k hak hkb
  obtain ⟨receipt, hk⟩ := h k hak hkb
  exact ⟨receipt, find?_of_insert hd.decisions hk⟩

theorem Decides.new (hd : Decides r kind receipt r') :
    r'.decisions.find? r'.state.revision = some (kind, receipt) := by
  rw [Table.find?_insert hd.decisions, hd.revision, if_pos rfl]

end

/-- A decision on a candidate. -/
theorem recordPromotion_cases {receipt : Receipt} {expected : Json} {d : Decision}
    (h : r.recordPromotion receipt expected = .ok (d, r')) :
    Decides r receipt.kind receipt.toJson r' ∧ ¬ r.Withdrawn receipt.version ∧
      r'.pins = r.pins ∧ r'.authorizations = r.authorizations ∧
      (receipt.eligible = true ∧ r'.state.active = some receipt.version ∧
          r'.state.activeRevision = some r'.state.revision ∨
        receipt.eligible = false ∧ r'.state.active = r.state.active ∧
          r'.state.activeRevision = r.state.activeRevision) ∧
      ∀ version, r'.Withdrawn version → r.Withdrawn version := by
  obtain ⟨_, -, h⟩ := bind_eq_ok.1 h
  obtain ⟨_, hw, h⟩ := bind_eq_ok.1 h
  rw [require_eq_ok] at hw
  have hnot : ¬ r.Withdrawn receipt.version := by
    rintro ⟨row, hrow, hwd⟩
    rw [hrow] at hw
    simp [hwd] at hw
  dsimp only at h
  split at h
  · cases h
  · rename_i decisions hdec
    cases h
    cases he : receipt.eligible with
    | true =>
        refine ⟨⟨rfl, hdec⟩, hnot, rfl, rfl, .inl ⟨rfl, rfl, rfl⟩, ?_⟩
        rintro version ⟨row, hrow, hwd⟩
        cases hi : r.versions.insert receipt.version { definition := receipt.definition } with
        | none => exact ⟨row, by simpa [hi] using hrow, hwd⟩
        | some versions =>
            simp only [hi, if_true, Option.getD_some, Table.find?_insert hi] at hrow
            split at hrow
            · cases hrow
              cases hwd
            · exact ⟨row, hrow, hwd⟩
    | false => exact ⟨⟨rfl, hdec⟩, hnot, rfl, rfl, .inr ⟨rfl, rfl, rfl⟩, fun _ => id⟩

theorem Ledger.recordPromotion (h : Ledger r) {receipt : Receipt} {expected : Json} {d : Decision}
    (hr : r.recordPromotion receipt expected = .ok (d, r')) : Ledger r' := by
  obtain ⟨hd, hnot, hpins, hauth, hcases, hwd⟩ := recordPromotion_cases hr
  have hnew := hd.new
  refine ⟨hd.revisions h, ?_, ?_, ?_, ?_, ?_⟩
  · rcases hcases with ⟨-, ha, hr⟩ | ⟨-, ha, hr⟩
    · rw [ha, hr]
      rfl
    · rw [ha, hr]
      exact h.paired
  · intro version revision ha hr
    rcases hcases with ⟨he, ha', hr'⟩ | ⟨he, ha', hr'⟩
    · rw [ha', Option.some.injEq] at ha
      rw [hr', Option.some.injEq] at hr
      subst ha hr
      refine ⟨⟨receipt.toJson, ?_, rfl⟩, fun k hk hk' => absurd hk' (Nat.not_le_of_lt hk)⟩
      rw [hnew, Receipt.kind, he]
      rfl
    · rw [ha'] at ha
      rw [hr'] at hr
      obtain ⟨hp, ho⟩ := h.active version revision ha hr
      refine ⟨hd.promoted hp, fun k hk hk' => ?_⟩
      by_cases hlast : k = r'.state.revision
      · refine ⟨receipt.toJson, ?_⟩
        rw [hlast, hnew, Receipt.kind, he]
        rfl
      · exact hd.onlyRejected ho k hk (by have := hd.revision; omega)
  · intro version ha hw
    rcases hcases with ⟨-, ha', -⟩ | ⟨-, ha', -⟩
    · rw [ha', Option.some.injEq] at ha
      exact hnot (ha ▸ hwd version hw)
    · exact h.notWithdrawn version (ha' ▸ ha) (hwd version hw)
  · intro episode version revision hp
    exact hd.promoted (h.pins episode version revision (hpins ▸ hp))
  · intro id row hrow
    obtain ⟨hle, hle', ho⟩ := h.authorizations id row (hauth ▸ hrow)
    exact ⟨hle, by have := hd.revision; omega, hd.onlyRejected ho⟩

/-- A withdrawal. -/
theorem withdraw_cases {expected : Json} {d : Decision} (h : r.withdraw expected = .ok (d, r')) :
    ∃ version, r.state.active = some version ∧
      Decides r "withdrawn" (.obj [("version", .str version)]) r' ∧
      r'.pins = r.pins ∧ r'.authorizations = r.authorizations ∧
      r'.state.active = none ∧ r'.state.activeRevision = none := by
  obtain ⟨_, -, h⟩ := bind_eq_ok.1 h
  split at h
  · cases h
  · rename_i version ha
    dsimp only at h
    split at h
    · cases h
    · rename_i decisions hdec
      cases h
      exact ⟨version, ha, ⟨rfl, hdec⟩, rfl, rfl, rfl, rfl⟩

theorem Ledger.withdraw (h : Ledger r) {expected : Json} {d : Decision}
    (hr : r.withdraw expected = .ok (d, r')) : Ledger r' := by
  obtain ⟨version, -, hd, hpins, hauth, ha, hrev⟩ := withdraw_cases hr
  refine ⟨hd.revisions h, by rw [ha, hrev]; rfl, ?_, ?_, ?_, ?_⟩
  · intro version revision ha'
    rw [ha] at ha'
    cases ha'
  · intro version ha'
    rw [ha] at ha'
    cases ha'
  · intro episode version revision hp
    exact hd.promoted (h.pins episode version revision (hpins ▸ hp))
  · intro id row hrow
    obtain ⟨hle, hle', ho⟩ := h.authorizations id row (hauth ▸ hrow)
    exact ⟨hle, by have := hd.revision; omega, hd.onlyRejected ho⟩

/-- A selection of what is active, or of what was selected before. -/
theorem Ledger.pinEpisode (h : Ledger r) {fresh : Bool} {select : Json → Except BrokerError Json}
    {files : Json} {episode : String} {pin : Pin}
    (hr : r.pinEpisode fresh select files episode = .ok (pin, r')) : Ledger r' := by
  obtain ⟨-, ⟨-, -, rfl⟩ | ⟨-, ha, hrev, -, pins, hpins, rfl⟩⟩ := pinEpisode_eq_ok hr
  · exact h
  · refine ⟨h.revisions, h.paired, h.active, h.notWithdrawn, fun e version revision hp => ?_,
      h.authorizations⟩
    dsimp only at hp
    rw [Table.find?_insert hpins] at hp
    split at hp
    · cases hp
      exact (h.active _ _ ha hrev).1
    · exact h.pins e version revision hp

/-- An authorization under what is active. -/
theorem authorize_active {calibrated exact : Except PyError Unit} {selected : Option Pin}
    {p : Proposal} {conditions : Conditions} {row : Authorization}
    (h : r.authorize P calibrated exact selected p conditions = .ok (row, r')) :
    r.state.active = some row.version ∧ r.state.activeRevision = some row.activationRevision ∧
      row.decisionRevision = r.state.revision := by
  obtain ⟨pin, rfl, rfl, -⟩ := authorize_eq_ok h
  obtain ⟨_, ha, -⟩ := bind_eq_ok.1 h
  rw [require_eq_ok] at ha
  exact ⟨ha.1, ha.2, rfl⟩

theorem Ledger.authorize (h : Ledger r) {calibrated exact : Except PyError Unit}
    {selected : Option Pin} {p : Proposal} {conditions : Conditions} {row : Authorization}
    (hr : r.authorize P calibrated exact selected p conditions = .ok (row, r')) : Ledger r' := by
  obtain ⟨hactive, hrev, hdec⟩ := authorize_active hr
  obtain ⟨pin, -, -, -, authorizations, bound, ha, -, rfl⟩ := authorize_eq_ok hr
  refine ⟨h.revisions, h.paired, h.active, h.notWithdrawn, h.pins, fun id row' hrow => ?_⟩
  dsimp only at hrow
  rw [Table.find?_insert ha] at hrow
  split at hrow
  · cases hrow
    obtain ⟨⟨receipt, hk, -⟩, ho⟩ := h.active _ _ hactive hrev
    rw [hdec]
    exact ⟨(h.mem_iff hk).2, Nat.le_refl _, ho⟩
  · exact h.authorizations id row' hrow

/-- **Every transaction keeps the ledger's account of its history.** -/
theorem Entry.ledger (he : Entry P r r') (h : Ledger r) : Ledger r' := by
  cases he with
  | none => exact h
  | promotion receipt expected =>
      cases hr : r.recordPromotion receipt expected with
      | error e => exact h
      | ok x => exact h.recordPromotion hr
  | withdrawal expected =>
      cases hr : r.withdraw expected with
      | error e => exact h
      | ok x => exact h.withdraw hr
  | pin fresh select files episode =>
      cases hr : r.pinEpisode fresh select files episode with
      | error e => exact h
      | ok x => exact h.pinEpisode hr
  | authorization calibrated exact pin p conditions =>
      cases hr : r.authorize P calibrated exact pin p conditions with
      | error e => exact h
      | ok x => exact h.authorize hr
  | refusal action details =>
      exact ⟨h.revisions, h.paired, h.active, h.notWithdrawn, h.pins, h.authorizations⟩

theorem Later.of_tables (hk : Keeps r r') (hp : r'.pins = r.pins)
    (ha : r'.authorizations = r.authorizations) : Later r r' where
  toKeeps := hk
  newPins _ _ _ h := hp ▸ h
  newAuthorizations _ _ _ h _ := ha ▸ h

/-- Every transaction leaves old rows alone, and makes none for what is withdrawn. -/
theorem Entry.later (he : Entry P r r') : Later r r' := by
  cases he with
  | none => exact .refl r
  | promotion receipt expected =>
      refine .of_tables keeps_recordPromotion ?_ ?_
      all_goals
        cases hr : r.recordPromotion receipt expected with
        | error e => rfl
        | ok x =>
            obtain ⟨-, -, hp, ha, -⟩ := recordPromotion_cases hr
            assumption
  | withdrawal expected =>
      refine .of_tables keeps_withdraw ?_ ?_
      all_goals
        cases hr : r.withdraw expected with
        | error e => rfl
        | ok x =>
            obtain ⟨-, -, -, hp, ha, -⟩ := withdraw_cases hr
            assumption
  | pin fresh select files episode =>
      cases hr : r.pinEpisode fresh select files episode with
      | error e => exact .refl r
      | ok x =>
          obtain ⟨pin, r'⟩ := x
          change Later r r'
          obtain ⟨rfl, ⟨-, -, rfl⟩ | ⟨hn, -, -, hw, pins, hpins, rfl⟩⟩ := pinEpisode_eq_ok hr
          · exact .refl _
          · refine ⟨⟨find?_of_insert hpins, id, id, id⟩, fun {v} hwd {e revision} hp => ?_,
              fun _ _ _ h _ => h⟩
            rw [Table.find?_insert hpins] at hp
            split at hp
            · cases hp
              exact absurd hwd hw
            · exact hp
  | authorization calibrated exact pin p conditions =>
      cases hr : r.authorize P calibrated exact pin p conditions with
      | error e => exact .refl r
      | ok x =>
          obtain ⟨row, r'⟩ := x
          change Later r r'
          obtain ⟨-, -, -, hw, authorizations, bound, ha, hb, rfl⟩ := authorize_eq_ok hr
          refine ⟨⟨id, find?_of_insert ha, find?_of_insert hb, id⟩, fun _ _ _ h => h,
            fun {v} hwd {id row'} hrow hv => ?_⟩
          rw [Table.find?_insert ha] at hrow
          split at hrow
          · cases hrow
            exact absurd (hv ▸ hwd) hw
          · exact hrow
  | refusal action details => exact .of_tables keeps_recordRefusal rfl rfl

/-! ## Calls -/

/-- A call of which a refusal is recorded. -/
def recorded (action : String) (call : Program Campaign Deed Unit) : Program Campaign Deed Unit := do
  match ← Proc.attempt call with
  | .ok _ => return ()
  | .error (.refused reason) => do
      recordRefusal action (refusalDetails .null (.refused reason))
      throw (.refused reason)
  | .error e => throw e

/-- `start_episode`, by the `_selection` of the registry. -/
def startEpisode (select : Json → Except BrokerError Json) (episode : String) :
    Program Campaign Deed Unit :=
  recorded "start_episode" do
    let files ← Proc.ask Json
    let _ ← ledger .startEpisode fun _ r => r.pinEpisode true select files episode

/-- `Registry.pin`. -/
def pin (select : Json → Except BrokerError Json) (episode : String) : Program Campaign Deed Unit :=
  recorded "pin" do
    let files ← Proc.ask Json
    let _ ← ledger .pin fun _ r => r.pinEpisode false select files episode

/-- `ProgramRegistry.pin`, which only shows a row. -/
def inspectPin (episode : String) : Program Campaign Deed Unit :=
  ledger .pin fun _ r =>
    (require (r.pins.find? episode).isSome
      "Program episode must be started before inspecting its pin").map fun _ => ((), r)

section
variable (P)

/-- The calls on a ledger. -/
inductive AdministrationCall : Program Campaign Deed Unit → Prop
  | promote (expectedRevision : Json) : AdministrationCall (promote expectedRevision)
  | withdraw (expectedRevision : Json) : AdministrationCall (withdraw expectedRevision)
  | startEpisode (select : Json → Except BrokerError Json) (episode : String) :
      AdministrationCall (startEpisode select episode)
  | pin (select : Json → Except BrokerError Json) (episode : String) :
      AdministrationCall (pin select episode)
  | inspectPin (episode : String) : AdministrationCall (inspectPin episode)
  | authorize (p : Proposal) (binding : Json) (patch : List Op) :
      AdministrationCall ((registryAuthorize P p binding patch).bind fun _ => .done ())

/-- Any number of calls on one ledger that starts empty.  Which episode pin a call of
`authorize` is given, and everything else in the world, may change at any time. -/
def administration : System (World Campaign) (Label Deed) String BrokerError Unit where
  init w := w.rest.registry = .empty
  calls _ _ prog := AdministrationCall P prog
  stop c _ w := w.rest.registry = c.view.world.rest.registry
  env w w' := w'.rest.registry = w.rest.registry

/-- What the acts of the calls do to the ledger. -/
abbrev Recorded (w w' : World Campaign) : Prop := Entry P w.rest.registry w'.rest.registry

end

section
variable {α : Type}

theorem acts_mayFail : (mayFail : Program Campaign Deed Unit).Acts (Recorded P) := by
  intro b
  cases b with
  | true => trivial
  | false => trivial

theorem acts_ledger {d : Deed} {f : Operator → Registry → Except BrokerError (α × Registry)}
    (h : ∀ x r, Entry P r (r.commit (f x r))) : (ledger d f).Acts (Recorded P) := by
  refine Proc.Acts.bind acts_mayFail fun _ => ⟨?_, fun r => ?_⟩
  · rintro t w b w' ⟨⟩
    exact h _ _
  · cases r with
    | ok a => trivial
    | error e => trivial

theorem acts_recordRefusal (action : String) (details : Json) :
    (recordRefusal action details).Acts (Recorded P) :=
  acts_ledger fun _ _ => .refusal action details

theorem acts_recorded {action : String} {call : Program Campaign Deed Unit}
    (h : call.Acts (Recorded P)) : (recorded action call).Acts (Recorded P) := by
  refine Proc.Acts.bind (Proc.Acts.attempt h) fun result => ?_
  match result with
  | .ok _ => trivial
  | .error e => cases e <;>
      first | trivial | exact Proc.Acts.bind (acts_recordRefusal _ _) fun _ => trivial

theorem acts_ask_bind {β : Type} {q : β → Program Campaign Deed α}
    (h : ∀ b, (q b).Acts (Recorded P)) : ((Proc.ask β).bind q).Acts (Recorded P) := h

end

theorem acts_administration {prog : Program Campaign Deed Unit} (h : AdministrationCall P prog) :
    prog.Acts (Recorded P) := by
  cases h with
  | promote expected =>
      refine Proc.Acts.bind (Proc.Acts.attempt (Proc.Acts.bind ?_ fun receipt =>
        acts_ledger fun _ r => .promotion receipt expected)) fun result => ?_
      · refine acts_ask_bind fun receipt => ?_
        cases receipt with
        | ok receipt => trivial
        | error e => trivial
      · cases result with
        | ok d => trivial
        | error e => exact Proc.Acts.bind (acts_recordRefusal _ _) fun _ => trivial
  | withdraw expected =>
      refine Proc.Acts.bind (Proc.Acts.attempt (acts_ledger fun _ r => .withdrawal expected))
        fun result => ?_
      match result with
      | .ok d => trivial
      | .error e => cases e <;>
          first | trivial | exact Proc.Acts.bind (acts_recordRefusal _ _) fun _ => trivial
  | startEpisode select episode =>
      exact acts_recorded (acts_ask_bind fun files => Proc.Acts.bind
        (acts_ledger fun _ _ => .pin true select files episode) fun _ => trivial)
  | pin select episode =>
      exact acts_recorded (acts_ask_bind fun files => Proc.Acts.bind
        (acts_ledger fun _ _ => .pin false select files episode) fun _ => trivial)
  | inspectPin episode =>
      refine acts_ledger fun _ r => ?_
      by_cases hp : (r.pins.find? episode).isSome
      · rw [require, if_pos hp]
        exact .none
      · rw [require, if_neg hp]
        exact .none
  | authorize p binding patch =>
      refine Proc.Acts.bind (Proc.Acts.bind (Proc.Acts.attempt ?_) fun result => ?_) fun _ => trivial
      · cases executionConditions P p binding patch with
        | error e => trivial
        | ok conditions =>
            exact fun calibrated exact => acts_ledger fun x r =>
              .authorization calibrated exact x.pin p conditions
      · cases result with
        | ok row => trivial
        | error e => exact Proc.Acts.bind (acts_recordRefusal _ _) fun _ => trivial

theorem confined_administration : Confined (administration P) (Recorded P) where
  refl _ := .none
  calls h := acts_administration h
  stop h := by
    rw [Recorded, h]
    exact .none
  env h := by
    rw [Recorded, h]
    exact .none

/-! ## In every interleaving -/

theorem Ledger.empty : Ledger Registry.empty :=
  ⟨rfl, rfl, nofun, nofun, nofun, nofun⟩

theorem ledger_of_run {w w' : World Campaign} (h : Relation.ReflTransGen (Recorded P) w w')
    (hw : Ledger w.rest.registry) : Ledger w'.rest.registry := by
  induction h with
  | refl => exact hw
  | tail _ he ih => exact Entry.ledger he ih

theorem later_of_run {w w' : World Campaign} (h : Relation.ReflTransGen (Recorded P) w w') :
    Later w.rest.registry w'.rest.registry := by
  induction h with
  | refl => exact .refl _
  | tail _ he ih => exact ih.trans (Entry.later he)

/-- Configurations of the calls on a ledger. -/
abbrev Administrations : Type 1 := Conf (World Campaign) (Label Deed) String BrokerError Unit

/-- A candidate that was found not eligible. -/
def sampleRejection : Receipt := ⟨"version-2", false, .null⟩

/-- What every authorizer of the sample is given. -/
def samplePin : Pin := ⟨"episode-1", "version-1", 1, .str "program-1"⟩

/-- The ledger of the sample, before its authorization: a promotion, a selection, a rejection. -/
def sampleHistory : Registry :=
  (sampleStarted.registry.commit (sampleStarted.registry.recordPromotion sampleRejection (.int 1)))

/-- A transaction that succeeds. -/
theorem may_ledger {α : Type} {t : ℕ} {o : String} {v : Seen} {d : Deed} {a : α}
    {f : Operator → Registry → Except BrokerError (α × Registry)}
    (h : f (v.world.rest.operators t) v.world.rest.registry = .ok (a, r')) :
    may t o (ledger d f) (fun result u => result = .ok a ∧
      u.world = { v.world with rest := { v.world.rest with registry := r' } }) v :=
  ⟨false, .ok a, _, by simp [h, Except.map, Registry.commit], rfl, rfl⟩

/-- A world with the given ledger. -/
def sampleWorldOf (r : Registry) : World Campaign :=
  ⟨.empty, none, fun _ => none, ⟨r, fun _ => { pin := some samplePin }⟩⟩

theorem reachable_of_may {c : Administrations} (hc : Reachable (administration P) c)
    {prog : Program Campaign Deed Unit} (hcall : AdministrationCall P prog) {w : World Campaign}
    (h : may c.next "controller" prog (fun _ u => u.world = w) c.view) :
    ∃ c' : Administrations, Reachable (administration P) c' ∧ c'.view.world = w := by
  obtain ⟨-, c', hc', -, -, hw⟩ := hc.may hcall h
  exact ⟨c', hc', hw⟩

end AutonomyLab.Admission
