import AutonomyLab.Admission.Campaign
import AutonomyLab.Broker.Dispatch

/-!
# The authorization protocol

What the code of a campaign may do next, given what has happened, and what follows from
it for authorizations and for the patches that leave a process.

* `Enters` — an event at which a row enters a table; `Past.enters_once` says that it does so
  once.
* `authorizations`, `transports` — the events of an operation: the commit of its
  authorization, and its patches.
* `Covered`, `Cleared` — what a thread knows when it sends a patch.
* `Does` — the deeds, with what each rests on; `Act.keeps` — what all of them leave alone.
* `Past` — histories of acts.
-/

namespace AutonomyLab.Admission

open Json Store Process Broker

/-- The view of a process. -/
abbrev Seen : Type := Broker.Seen Campaign Deed

abbrev Did : Type := Broker.Did Campaign Deed

variable {P : Platform} {t : ℕ} {o : String} {v : Seen} {d : Deed} {l : Label Deed}
  {w : World Campaign} {c r : Campaign} {hist past : List Did} {e : Did} {id : String} {j : Journal}

/-! ## Events -/

section
variable {β : Type} (T : Campaign → Table String β) (k : String)

/-- A row enters a table. -/
def Enters (e : Did) : Prop :=
  ((T e.pre.rest).find? k).isNone ∧ ((T e.post.rest).find? k).isSome

instance : DecidablePred (Enters T k) := fun _ => inferInstanceAs (Decidable (_ ∧ _))

/-- The events at which a row enters a table. -/
def entries (hist : List Did) : List Did := hist.filter fun e => Enters T k e

theorem mem_entries {T : Campaign → Table String β} {k : String} :
    e ∈ entries T k hist ↔ e ∈ hist ∧ Enters T k e := by
  rw [entries, List.mem_filter, decide_eq_true_eq]

end

/-- The rows of authorizations. -/
def Campaign.authorizations (c : Campaign) : Table String Authorization :=
  c.registry.authorizations

/-- The rows of selections. -/
def Campaign.pins (c : Campaign) : Table String (String × ℕ) := c.registry.pins

/-- The commits of an authorization of the operation. -/
def authorizations (id : String) (hist : List Did) : List Did :=
  entries Campaign.authorizations id hist

/-- The operation under which a patch leaves the process. -/
def sentFor : Label Deed → Option String
  | .ext (.transport id _ _ _) => some id
  | _ => none

/-- The patches that have left a process for the operation. -/
def transports (id : String) (hist : List Did) : List Did :=
  hist.filter fun e => sentFor e.label = some id

theorem mem_transports : e ∈ transports id hist ↔ e ∈ hist ∧ sentFor e.label = some id := by
  rw [transports, List.mem_filter, decide_eq_true_eq]

theorem transports_cons_of_ne (h : sentFor e.label ≠ some id) :
    transports id (e :: hist) = transports id hist :=
  List.filter_cons_of_neg (by rwa [decide_eq_true_eq])

/-! ## Deeds -/

section
variable (P : Platform) (t : ℕ)

/-- An authorization that thread `t` has committed covers a patch. -/
structure Covered (id : String) (patch : List Op) (row : Authorization) (v : Seen) : Prop where
  found : v.world.rest.authorizations.find? id = some row
  own : ∃ a ∈ authorizations id v.hist, a.tid = t
  request : ∃ p, Requested id p v.world.journal ∧ row.requestSha256 = requestDigest P p
  settled : Settled (v.world.journal.binding id)
  conditions : v.world.rest.registry.conditions.find? id =
    some ⟨encoded P (v.world.journal.binding id), encoded P (patchJson patch)⟩

/-- Thread `t` may send a patch: it is covered, it is on file, and none has been sent. -/
structure Cleared (id : String) (patch : List Op) (v : Seen) : Prop where
  covered : ∃ row, Covered P t id patch row v ∧
    (row.episode, id) ∈ (v.world.rest.operators t).bindings
  unsent : transports id v.hist = []

/-- Deeds that only look. -/
def Deed.isLook : Deed → Bool
  | .operationRows | .bindingExists _ | .authorization _ => true
  | _ => false

/-- The deeds of thread `t`, with what they leave. -/
inductive Does (v : Seen) : Deed → Campaign → Prop
  | look {d : Deed} : d.isLook = true → Does v d v.world.rest
  | makeEpisode {name} : Does v (.makeEpisode name) (v.world.rest.makeEpisode t name).2
  | startEpisode {files calibrated} :
      Does v .startEpisode (v.world.rest.startEpisode files calibrated t).2
  | authorize {p binding patch conditions calibrated exact} :
      Requested p.operationId.1 p v.world.journal →
      v.world.journal.binding p.operationId.1 = binding →
      executionConditions P p binding patch = .ok conditions →
      Does v (.authorize p binding patch)
        { v.world.rest with
          registry := v.world.rest.registry.commit (v.world.rest.registry.authorize P calibrated
            exact (v.world.rest.operators t).pin p conditions) }
  | saveBinding {id : String} : Does v (.saveBinding id) (v.world.rest.saveBinding t id).2
  | transport {id : String} {ns name patch} : Cleared P t id patch v →
      Does v (.transport id ns name patch) v.world.rest
  | recordRefusal {action details} : Does v (.recordRefusal action)
      { v.world.rest with registry := v.world.rest.registry.recordRefusal action details }
  | promote {receipt expected} : Does v (.promote receipt expected)
      { v.world.rest with
        registry := v.world.rest.registry.commit
          (v.world.rest.registry.recordPromotion receipt expected) }
  | withdraw {expected} : Does v (.withdraw expected)
      { v.world.rest with
        registry := v.world.rest.registry.commit (v.world.rest.registry.withdraw expected) }

end

/-- What is known of the code of a campaign. -/
def ext (P : Platform) : Ext Campaign Deed :=
  ⟨fun t _ v d r => Does P t v d r, fun _ _ _ _ _ _ => True⟩

/-- Deeds that select nothing and authorize nothing. -/
theorem Does.tables (h : Does P t v d r) (hs : d ≠ .startEpisode)
    (ha : ∀ p binding patch, d ≠ .authorize p binding patch) :
    r.authorizations = v.world.rest.authorizations ∧ r.pins = v.world.rest.pins := by
  cases h with
  | look _ => exact ⟨rfl, rfl⟩
  | makeEpisode =>
      unfold Campaign.makeEpisode
      dsimp only
      split <;> exact ⟨rfl, rfl⟩
  | startEpisode => exact absurd rfl hs
  | authorize _ _ _ => exact absurd rfl (ha _ _ _)
  | saveBinding =>
      unfold Campaign.saveBinding
      dsimp only
      split <;> exact ⟨rfl, rfl⟩
  | transport _ => exact ⟨rfl, rfl⟩
  | recordRefusal => exact ⟨rfl, rfl⟩
  | @promote receipt expected =>
      cases hf : v.world.rest.registry.recordPromotion receipt expected with
      | error _ => exact ⟨rfl, rfl⟩
      | ok x =>
          obtain ⟨_, _, _, hx, -⟩ := recordPromotion_eq_ok hf
          simp only [Campaign.authorizations, Campaign.pins, Registry.commit]
          rw [hx]
          exact ⟨rfl, rfl⟩
  | @withdraw expected =>
      cases hf : v.world.rest.registry.withdraw expected with
      | error _ => exact ⟨rfl, rfl⟩
      | ok x =>
          obtain ⟨_, _, hx⟩ := withdraw_eq_ok hf
          simp only [Campaign.authorizations, Campaign.pins, Registry.commit]
          rw [hx]
          exact ⟨rfl, rfl⟩

/-- An act of the broker itself leaves the campaign alone; any other is a deed. -/
theorem Act.rest (h : Act P (ext P) t o v l w) :
    (w.rest = v.world.rest ∧ ∀ d, l ≠ .ext d) ∨
      ∃ d, l = .ext d ∧ w.journal = v.world.journal ∧ Does P t v d w.rest := by
  cases h with
  | @read l hl => exact .inl ⟨rfl, fun d hd => by subst hd; cases hl⟩
  | @ext d r hd => exact .inr ⟨d, rfl, rfl, hd⟩
  | _ => exact .inl ⟨rfl, nofun⟩

/-! ## What a deed leaves alone -/

/-- What is the same, or still there, after a deed of thread `t`. -/
structure Campaign.Keeps (t : ℕ) (c c' : Campaign) : Prop where
  registry : Admission.Keeps c.registry c'.registry
  others : ∀ u, u ≠ t → c'.operators u = c.operators u
  bindings : ∀ u x, x ∈ (c.operators u).bindings → x ∈ (c'.operators u).bindings

theorem Campaign.Keeps.refl (t : ℕ) (c : Campaign) : Campaign.Keeps t c c :=
  ⟨.refl _, fun _ _ => rfl, fun _ _ hx => hx⟩

theorem keeps_registry {x : Registry} (h : Keeps c.registry x) :
    Campaign.Keeps t c { c with registry := x } :=
  ⟨h, fun _ _ => rfl, fun _ _ hx => hx⟩

@[simp] theorem Campaign.setOperator_self {x : Operator} : (c.setOperator t x).operators t = x :=
  Function.update_self _ _ _

theorem Campaign.setOperator_of_ne {u : ℕ} {x : Operator} (h : u ≠ t) :
    (c.setOperator t x).operators u = c.operators u := Function.update_of_ne h _ _

theorem keeps_setOperator {x : Operator} (h : ∀ y ∈ (c.operators t).bindings, y ∈ x.bindings) :
    Campaign.Keeps t c (c.setOperator t x) := by
  refine ⟨.refl _, fun u hu => Campaign.setOperator_of_ne hu, fun u y hy => ?_⟩
  by_cases hut : u = t
  · subst hut
    rw [Campaign.setOperator_self]
    exact h y hy
  · rw [Campaign.setOperator_of_ne hut]
    exact hy

theorem keeps_makeEpisode {name : String} : Campaign.Keeps t c (c.makeEpisode t name).2 := by
  unfold Campaign.makeEpisode
  dsimp only
  split
  · exact .refl t c
  · exact keeps_setOperator fun y hy => hy

theorem keeps_saveBinding : Campaign.Keeps t c (c.saveBinding t id).2 := by
  unfold Campaign.saveBinding
  dsimp only
  split
  · exact .refl t c
  · exact keeps_setOperator fun y hy => List.mem_cons_of_mem _ hy

/-- The start of an episode: nothing happens, or the present episode of the process
selects what it did not have, and the process keeps that. -/
theorem startEpisode_cases (files : Json) (calibrated : Except PyError Unit) (t : ℕ)
    (c : Campaign) :
    (c.startEpisode files calibrated t).2 = c ∨ ∃ (pin : Pin) (pins : Table String (String × ℕ)),
      (c.operators t).episode = some pin.episode ∧
      c.registry.pins.insert pin.episode (pin.version, pin.revision) = some pins ∧
      (c.startEpisode files calibrated t).2 =
        { c.setOperator t { c.operators t with pin := some pin } with
          registry := { c.registry with pins } } := by
  unfold Campaign.startEpisode
  dsimp only
  split
  · exact .inl rfl
  · rename_i episode he
    split
    · exact .inl rfl
    · rename_i pin x hstart
      obtain ⟨rfl, -, pins, hpins, rfl⟩ := startEpisode_eq_ok hstart
      exact .inr ⟨pin, pins, he, hpins, rfl⟩

theorem keeps_campaign_startEpisode {files : Json} {calibrated : Except PyError Unit} :
    Campaign.Keeps t c (c.startEpisode files calibrated t).2 := by
  rcases startEpisode_cases files calibrated t c with heq | ⟨pin, pins, -, hpins, heq⟩
  · rw [heq]
    exact .refl t c
  · rw [heq]
    have h : Campaign.Keeps t c (c.setOperator t { c.operators t with pin := some pin }) :=
      keeps_setOperator fun y hy => hy
    exact ⟨⟨find?_of_insert hpins, fun hx => hx, fun hx => hx, fun hx => hx⟩, h.others, h.bindings⟩

theorem Does.keeps (h : Does P t v d r) : Campaign.Keeps t v.world.rest r := by
  cases h with
  | look _ => exact .refl t _
  | makeEpisode => exact keeps_makeEpisode
  | startEpisode => exact keeps_campaign_startEpisode
  | authorize _ _ _ => exact keeps_registry keeps_authorize
  | saveBinding => exact keeps_saveBinding
  | transport _ => exact .refl t _
  | recordRefusal => exact keeps_registry keeps_recordRefusal
  | promote => exact keeps_registry keeps_recordPromotion
  | withdraw => exact keeps_registry keeps_withdraw

theorem Act.keeps (h : Act P (ext P) t o v l w) : Campaign.Keeps t v.world.rest w.rest := by
  rcases Act.rest h with ⟨heq, -⟩ | ⟨d, -, -, hd⟩
  · rw [heq]
    exact .refl t _
  · exact hd.keeps

/-! ## Histories -/

/-- A history of acts of a campaign, from its start on. -/
inductive Past (P : Platform) : List Did → Journal → Campaign → Prop
  | nil : Past P [] .empty .start
  | cons {e : Did} {past : List Did} : Past P past e.pre.journal e.pre.rest →
      Act P (ext P) e.tid e.actor ⟨e.pre, past⟩ e.label e.post →
      Past P (e :: past) e.post.journal e.post.rest

/-- What had happened at some point was a history too, and what it left is still there. -/
theorem Past.suffix (h : Past P hist j c) (hs : e :: past <:+ hist) :
    Past P past e.pre.journal e.pre.rest ∧
      Act P (ext P) e.tid e.actor ⟨e.pre, past⟩ e.label e.post ∧
      Keeps e.post.rest.registry c.registry ∧
      ∀ u x, x ∈ (e.post.rest.operators u).bindings → x ∈ (c.operators u).bindings := by
  induction h with
  | nil => simp at hs
  | @cons e' past' hp ha ih =>
      rcases List.suffix_cons_iff.1 hs with heq | hs
      · injection heq with he hpast
        subst he hpast
        exact ⟨hp, ha, .refl _, fun _ _ hx => hx⟩
      · obtain ⟨hp', ha', hk, hb⟩ := ih hs
        have hkeeps := Act.keeps ha
        exact ⟨hp', ha', hk.trans hkeeps.registry, fun u x hx => hkeeps.bindings u x (hb u x hx)⟩

theorem Past.of_mem (h : Past P hist j c) (he : e ∈ hist) :
    ∃ past, e :: past <:+ hist ∧ Past P past e.pre.journal e.pre.rest ∧
      Act P (ext P) e.tid e.actor ⟨e.pre, past⟩ e.label e.post ∧
      Keeps e.post.rest.registry c.registry ∧
      ∀ u x, x ∈ (e.post.rest.operators u).bindings → x ∈ (c.operators u).bindings := by
  obtain ⟨later, past, rfl⟩ := List.append_of_mem he
  exact ⟨past, List.suffix_append _ _, h.suffix (List.suffix_append _ _)⟩

section
variable {β : Type} {T : Campaign → Table String β} {k : String}

/-- **A row that is never changed has entered once.** -/
theorem Past.enters_once (hstart : (T .start).find? k = none)
    (keeps : ∀ t o v l w, Act P (ext P) t o v l w → ∀ row, (T v.world.rest).find? k = some row →
      (T w.rest).find? k = some row) (h : Past P hist j c) :
    ((T c).find? k = none → entries T k hist = []) ∧
      ∀ row, (T c).find? k = some row →
        ∃ e, entries T k hist = [e] ∧ (T e.post.rest).find? k = some row := by
  induction h with
  | nil => exact ⟨fun _ => rfl, fun row hrow => by rw [hstart] at hrow; cases hrow⟩
  | @cons e past hp ha ih =>
      obtain ⟨hnone, hsome⟩ := ih
      cases hpre : (T e.pre.rest).find? k with
      | some row =>
          -- the row was there before, so it enters no more
          have hpost := keeps _ _ _ _ _ ha _ hpre
          have hsame : entries T k (e :: past) = entries T k past :=
            List.filter_cons_of_neg (by simp [Enters, hpre])
          rw [hpost, hsame]
          exact ⟨fun hnil => (by cases hnil), fun row' hrow' => hsome row' (hpre.trans hrow')⟩
      | none =>
          cases hpost : (T e.post.rest).find? k with
          | none =>
              have hsame : entries T k (e :: past) = entries T k past :=
                List.filter_cons_of_neg (by simp [Enters, hpost])
              rw [hsame]
              exact ⟨fun _ => hnone hpre, fun row hrow => by cases hrow⟩
          | some row =>
              have hnew : entries T k (e :: past) = e :: entries T k past :=
                List.filter_cons_of_pos (by simp [Enters, hpre, hpost])
              rw [hnew, hnone hpre]
              refine ⟨fun hnil => (by cases hnil), fun row' hrow' => ⟨e, rfl, ?_⟩⟩
              rw [hpost, hrow']

end

/-- The commit of the authorization of an operation. -/
theorem Past.authorization_enters (h : Past P hist j c) (id : String) :
    (c.authorizations.find? id = none → authorizations id hist = []) ∧
      ∀ row, c.authorizations.find? id = some row →
        ∃ e, authorizations id hist = [e] ∧ e.post.rest.authorizations.find? id = some row :=
  h.enters_once rfl fun _ _ _ _ _ ha _ hrow => (Act.keeps ha).registry.authorizations hrow

theorem Past.pin_enters (h : Past P hist j c) (episode : String) :
    (c.pins.find? episode = none → entries Campaign.pins episode hist = []) ∧
      ∀ row, c.pins.find? episode = some row →
        ∃ e, entries Campaign.pins episode hist = [e] ∧
          e.post.rest.pins.find? episode = some row :=
  h.enters_once rfl fun _ _ _ _ _ ha _ hrow => (Act.keeps ha).registry.pins hrow

/-- **An authorization is committed at most once.** -/
theorem Past.authorizations_le_one (h : Past P hist j c) (id : String) :
    (authorizations id hist).length ≤ 1 := by
  cases hrow : c.authorizations.find? id with
  | none =>
      rw [(h.authorization_enters id).1 hrow]
      exact Nat.zero_le _
  | some row =>
      obtain ⟨e, he, -⟩ := (h.authorization_enters id).2 row hrow
      rw [he]
      exact le_refl 1

/-- Two processes never start the same episode. -/
theorem Past.start_unique (h : Past P hist j c) {episode : String} {e' : Did}
    (he : e ∈ entries Campaign.pins episode hist)
    (he' : e' ∈ entries Campaign.pins episode hist) : e = e' := by
  cases hrow : c.pins.find? episode with
  | none =>
      rw [(h.pin_enters episode).1 hrow] at he
      cases he
  | some row =>
      obtain ⟨x, hx, -⟩ := (h.pin_enters episode).2 row hrow
      rw [hx, List.mem_singleton] at he he'
      rw [he, he']

end AutonomyLab.Admission
