import AutonomyLab.Settlement.Audit
import AutonomyLab.Settlement.Fence

/-!
# What an accepted pair of receipts means

* `settlement_fence` — the counters of the gates, what is admitted, and that the audit
  accepts receipts of an epoch only if it is over in both services, and does accept them
  if it is.
-/

namespace AutonomyLab.Settlement

open Store Process

/-- A receipt of each service, each taken at a moment of its own. -/
structure Receipts (s₀ : State) (h : List Event) (s : State) where
  state : Kind → State
  before : Kind → List Event
  after : Kind → List Event
  whole : ∀ k, h = before k ++ after k
  reached : ∀ k, Run State.step s₀ (before k) (state k)
  rest : ∀ k, Run State.step (state k) (after k) s

variable {s₀ s : State} {h : List Event}

namespace Receipts

/-- The gate that a receipt is of. -/
def gate (r : Receipts s₀ h s) (k : Kind) : Gate := ((r.state k).server k).gate

/-- `receipts`. -/
def toJson (r : Receipts s₀ h s) : List (String × Json) := perService fun k => (r.gate k).snapshot

end Receipts

/-- An operation of the epoch runs. -/
def Active (k : Kind) (instanceId : Instance) (epoch : ℤ) (s : State) : Prop :=
  (s.server k).gate.instanceId = instanceId ∧ ∃ handler ∈ (s.server k).handlers, handler.epoch = epoch

/-- The rules for callers, as far as they name the epoch: they use the identities that
were issued, and Inventory is called for operations that Quote admitted. -/
structure Orderly (h : List Event) (instances : Kind → Instance) (epoch : ℤ)
    (dispatched : Finset ℤ) : Prop where
  issued : ∀ i ∈ dispatched, 0 ≤ i ∧ i < 128
  quote : ∀ τ ∈ h, ∀ headers, τ.action = (.quote, .call headers) →
    headers.instanceId = some (instances .quote).1 → headers.epoch = some (toString epoch) →
    ∃ i ∈ dispatched, headers.operation = some (toString i)
  inventory : ∀ τ ∈ h, ∀ headers, τ.action = (.inventory, .call headers) →
    headers.instanceId = some (instances .inventory).1 → headers.epoch = some (toString epoch) →
    ∃ q ∈ h, q.action.1 = .quote ∧ q.server.gate.instanceId = instances .quote ∧
      ∃ handler, q.server.starts q.action.2 = some handler ∧ propagate (some handler) = .ok headers

/-- The caller knows of admissions that there were.  Who knows that Inventory admitted an
operation knows that Quote had admitted it. -/
structure Truthful (h : List Event) (instances : Kind → Instance) (epoch : ℤ)
    (knownAdmitted knownDownstream : Finset ℤ) : Prop where
  admitted : ∀ i ∈ knownAdmitted, ⟨.quote, instances .quote, epoch, i⟩ ∈ admissions h
  downstream : ∀ i ∈ knownDownstream, ⟨.inventory, instances .inventory, epoch, i⟩ ∈ admissions h
  known : knownDownstream ⊆ knownAdmitted

/-- Both gates, wired to each other, are closed for the epoch, and all of their operations
have returned. -/
structure Settled (gates : Kind → Gate) (instances : Kind → Instance) (epoch : ℤ) : Prop where
  instanceId : ∀ k, (gates k).instanceId = instances k
  epoch : ∀ k, (gates k).epoch = epoch
  closed : ∀ k, (gates k).closed = true
  downstream : (gates .quote).downstream = some (instances .inventory)
  finished : ∀ k, ∀ row ∈ (gates k).operations.rows, row.2.state = .finished

/-! ## Accepted receipts -/

/-- An epoch whose receipt is accepted is over. -/
theorem sealed_of_audited (hs : Start s₀) (hrun : Run State.step s₀ h s) {k : Kind}
    {instanceId : Instance} {epoch : ℤ} {d : Option Instance} {dispatched ids : Finset ℤ}
    (ha : Audited (s.server k).gate instanceId epoch d dispatched ids) :
    Sealed k instanceId epoch s where
  drawn := ha.terminal.instanceId ▸ (recorded hs hrun).current k
  fenced _ := .inr ⟨ha.terminal.epoch, ha.terminal.closed⟩
  quiet _ handler hh := by
    rw [(good hs hrun k).handlers_eq_nil ha.all_finished] at hh
    cases hh

/-- Nothing of a sealed epoch runs or starts, however the run goes on. -/
theorem Sealed.run {k : Kind} {i : Instance} {e : ℤ} (hseal : Sealed k i e s) {s' : State}
    {h' : List Event} (hrun : Run State.step s h' s') :
    ¬ Active k i e s' ∧ ∀ n, ⟨k, i, e, n⟩ ∉ admissions h' := by
  have hstep : ∀ t a t', Sealed k i e t → t.step a = some t' → Sealed k i e t' :=
    fun _ _ _ ht => ht.step
  refine ⟨?_, fun n hn => ?_⟩
  · rintro ⟨hi, handler, hh, he⟩
    exact (hrun.invariant hstep hseal).quiet hi handler hh he
  · obtain ⟨τ, hτ, hadm⟩ := List.mem_filterMap.1 hn
    exact (hrun.later hstep hseal hτ).1.not_admitted (hrun.step_of_mem hτ) hadm

/-! ## Receipts that are accepted -/

/-- The event of an admission. -/
theorem mem_admissions {k : Kind} {i : Instance} {e n : ℤ} (hn : ⟨k, i, e, n⟩ ∈ admissions h) :
    ∃ τ ∈ h, ∃ headers, τ.action = (k, .call headers) ∧ headers.instanceId = some i.1 ∧
      headers.epoch = some (toString e) ∧ headers.operation = some (toString n) := by
  obtain ⟨τ, hτ, hadm⟩ := List.mem_filterMap.1 hn
  obtain ⟨handler, hstarts, heq⟩ := Option.map_eq_some_iff.1 hadm
  obtain ⟨hk, hi, he, hn⟩ := Admission.mk.inj heq
  obtain ⟨headers, ha, -, hinst, hepoch, hop, hcurrent⟩ := Server.starts_eq_some hstarts
  refine ⟨τ, hτ, headers, Prod.ext hk ha, ?_, ?_, ?_⟩
  · rw [hinst, hi]
  · rw [hepoch, ← he, hcurrent]
  · rw [hop, hn]

namespace Orderly

variable {instances : Kind → Instance} {epoch : ℤ} {dispatched : Finset ℤ}

theorem mem_dispatched (ho : Orderly h instances epoch dispatched) {n : ℤ}
    (hn : ⟨.quote, instances .quote, epoch, n⟩ ∈ admissions h) : n ∈ dispatched := by
  obtain ⟨τ, hτ, headers, ha, hi, he, hop⟩ := mem_admissions hn
  obtain ⟨m, hm, hop'⟩ := ho.quote τ hτ headers ha hi he
  rw [hop, Option.some.injEq] at hop'
  rw [toString_int_injective hop']
  exact hm

/-- What Inventory admitted, Quote had admitted. -/
theorem quote_of_inventory (ho : Orderly h instances epoch dispatched) {n : ℤ}
    (hn : ⟨.inventory, instances .inventory, epoch, n⟩ ∈ admissions h) :
    ⟨.quote, instances .quote, epoch, n⟩ ∈ admissions h := by
  obtain ⟨τ, hτ, headers, ha, hi, he, hop⟩ := mem_admissions hn
  obtain ⟨q, hq, hkind, hinst, handler, hstarts, hp⟩ := ho.inventory τ hτ headers ha hi he
  have hforwarded := propagate_eq_ok hp
  subst hforwarded
  have hepoch : handler.epoch = epoch := toString_int_injective (Option.some.inj he)
  have hidentity : handler.identity = n := toString_int_injective (Option.some.inj hop)
  refine List.mem_filterMap.2 ⟨q, hq, ?_⟩
  rw [Event.admission, hstarts, Option.map_some, hkind, hinst, hepoch, hidentity]

end Orderly

/-- The ledger of a gate that is settled has what was ever admitted of the epoch. -/
theorem Settled.ledger {r : Receipts s₀ h s} {instances : Kind → Instance} {epoch : ℤ}
    (hset : Settled r.gate instances epoch) (hs : Start s₀) (k : Kind) (n : ℤ) :
    toString n ∈ (r.gate k).operations.rows.map Prod.fst ↔
      ⟨k, instances k, epoch, n⟩ ∈ admissions h := by
  have hrec := recorded hs (r.reached k)
  have hseal : Sealed k (instances k) epoch (r.state k) := {
    drawn := hset.instanceId k ▸ hrec.current k
    fenced := fun _ => .inr ⟨hset.epoch k, hset.closed k⟩
    quiet := by
      intro _ handler hh
      rw [(good hs (r.reached k) k).handlers_eq_nil (hset.finished k)] at hh
      cases hh }
  have hledger := hrec.ledger k n
  rw [show ((r.state k).server k).gate = r.gate k from rfl, hset.instanceId k, hset.epoch k] at hledger
  have hadm : admissions h = admissions (r.before k) ++ admissions (r.after k) :=
    (congrArg admissions (r.whole k)).trans List.filterMap_append
  rw [hledger, hadm, List.mem_append]
  exact ⟨.inl, fun hmem => hmem.resolve_right ((hseal.run (r.rest k)).2 n)⟩

/-- A ledger has 128 operations at most. -/
theorem Server.Good.bounded {v : Server} (hv : v.Good) : v.gate.operations.rows.length ≤ 128 := by
  have hsub : v.gate.operations.rows.map Prod.fst ⊆
      (List.range 128).map fun n : ℕ => toString (n : ℤ) := by
    intro key hkey
    obtain ⟨⟨_, op⟩, hrow, rfl⟩ := List.mem_map.1 hkey
    obtain ⟨n, rfl, hlow, hhigh⟩ := hv.keys _ op hrow
    refine List.mem_map.2 ⟨n.toNat, List.mem_range.2 (by omega), ?_⟩
    rw [Int.toNat_of_nonneg hlow]
  have hle := (List.subperm_of_subset v.gate.operations.nodup hsub).length_le
  rwa [List.length_map, List.length_map, List.length_range] at hle

/-- A gate that is settled is terminal. -/
theorem Settled.terminal {r : Receipts s₀ h s} {instances : Kind → Instance} {epoch : ℤ}
    (hset : Settled r.gate instances epoch) (hs : Start s₀) (k : Kind) :
    Terminal (r.gate k) (instances k) epoch (behind instances k) := by
  have hgood := good hs (r.reached k) k
  have hcount : (r.gate k).operations.count (fun _ op => op.state = .finished) =
      (r.gate k).operations.rows.length := by
    refine List.countP_eq_length.2 fun row hrow => ?_
    exact decide_eq_true (hset.finished k row hrow)
  exact {
    instanceId := hset.instanceId k
    epoch := hset.epoch k
    closed := hset.closed k
    downstream := by
      cases k with
      | quote => exact hset.downstream
      | inventory => exact (wired hs (r.reached _) _).inventory rfl
    admitted := hgood.admitted
    finished := hgood.finished.trans hcount
    bounded := hgood.bounded }

/-- **An epoch that is over is accepted.** -/
theorem Settled.accepted {r : Receipts s₀ h s} {instances : Kind → Instance} {epoch : ℤ}
    {dispatched knownAdmitted knownDownstream : Finset ℤ}
    (hset : Settled r.gate instances epoch) (hs : Start s₀)
    (ho : Orderly h instances epoch dispatched)
    (ht : Truthful h instances epoch knownAdmitted knownDownstream) :
    ∃ result, settled r.toJson (perService fun k => .str (instances k).1) (.int epoch) dispatched
      knownAdmitted knownDownstream = .ok result := by
  have hmem : ∀ k n, ⟨k, instances k, epoch, n⟩ ∈ admissions h →
      ⟨.quote, instances .quote, epoch, n⟩ ∈ admissions h := by
    intro k n hn
    cases k with
    | quote => exact hn
    | inventory => exact ho.quote_of_inventory hn
  have hids : ∀ k n, n ∈ dispatched.filter (fun n => toString n ∈ (r.gate k).operations.rows.map Prod.fst) ↔
      ⟨k, instances k, epoch, n⟩ ∈ admissions h := by
    intro k n
    rw [Finset.mem_filter, hset.ledger hs k n]
    exact ⟨fun hn => hn.2, fun hn => ⟨ho.mem_dispatched (hmem k n hn), hn⟩⟩
  have haudited : ∀ k, Audited (r.gate k) (instances k) epoch (behind instances k) dispatched
      (dispatched.filter fun n => toString n ∈ (r.gate k).operations.rows.map Prod.fst) := by
    intro k
    refine audited_of_terminal (hset.terminal hs k) (fun n => ?_) ?_
    · rw [hids, ← hset.ledger hs k n, List.mem_map]
      exact ⟨fun ⟨row, hrow, hkey⟩ => ⟨row.2, hkey ▸ hrow⟩, fun ⟨op, hop⟩ => ⟨_, hop, rfl⟩⟩
    · rintro ⟨key, op⟩ hrow
      have hgood := good hs (r.reached k) k
      obtain ⟨n, rfl, hlow, -⟩ := hgood.keys key op hrow
      have hn := (hset.ledger hs k n).1 (List.mem_map_of_mem hrow)
      have hrecord := hgood.records _ op hrow
      have hfinished := hset.finished k _ hrow
      obtain ⟨f, hf, hle⟩ := hrecord.finished hfinished
      exact ⟨n, rfl, hlow, ho.mem_dispatched (hmem k n hn), hfinished, f, hf, hrecord.started.1,
        hrecord.started.1.trans hle, hle⟩
  have hopened : 0 < epoch := by
    have := (wired hs (r.reached .quote) .quote).opened
    rw [show ((r.state .quote).server .quote).gate = r.gate .quote from rfl, hset.downstream,
      hset.epoch] at this
    exact this rfl
  have hknown : knownAdmitted ⊆ dispatched := fun n hn => ho.mem_dispatched (ht.admitted n hn)
  refine ⟨_, settled_eq_ok.2 ⟨hopened, fun n hn => ?_, hknown, ht.known, _, haudited, ?_, ?_, ?_, rfl⟩⟩
  · rcases Finset.mem_union.1 hn with hn | hn
    · exact ho.issued n hn
    · exact ho.issued n (hknown hn)
  · exact fun n hn => (hids .quote n).2 (ht.admitted n hn)
  · exact fun n hn => (hids .quote n).2 (ho.quote_of_inventory ((hids .inventory n).1 hn))
  · exact fun n hn => (hids .inventory n).2 (ht.downstream n hn)

/-! ## The fence -/

/-- **The settlement fence.**  In every run of the two services:

* each gate counts its operations and those that have returned;
* no identity is admitted twice in an epoch of an instance;
* what is admitted names the instance and the epoch of a gate that is open;
* once receipts were accepted, in each service nothing of the epoch runs and nothing of
  it is ever admitted, from the moment the receipt was taken;
* where the callers kept to the rules, receipts are accepted as soon as both gates are
  closed and everything has returned. -/
theorem settlement_fence {s₀ s : State} {h : List Event} (hs : Start s₀)
    (hrun : Run State.step s₀ h s) :
    (∀ k, (s.server k).gate.admitted = (s.server k).gate.operations.rows.length ∧
      (s.server k).gate.finished =
        (s.server k).gate.operations.count fun _ op => op.state = .finished) ∧
    (admissions h).Nodup ∧
    (∀ τ ∈ h, ∀ handler, τ.server.starts τ.action.2 = some handler →
      τ.server.gate.closed = false ∧ ∃ headers, τ.action.2 = .call headers ∧
        headers.instanceId = some τ.server.gate.instanceId.1 ∧
        headers.epoch = some (toString τ.server.gate.epoch)) ∧
    (∀ (r : Receipts s₀ h s) (instances : Kind → Instance) (epoch : ℤ)
      (dispatched knownAdmitted knownDownstream : Finset ℤ) (result : Json),
      settled r.toJson (perService fun k => .str (instances k).1) (.int epoch) dispatched
        knownAdmitted knownDownstream = .ok result →
      ∀ k h' s', Run State.step (r.state k) h' s' →
        ¬ Active k (instances k) epoch s' ∧ ∀ n, ⟨k, instances k, epoch, n⟩ ∉ admissions h') ∧
    (∀ (r : Receipts s₀ h s) (instances : Kind → Instance) (epoch : ℤ)
      (dispatched knownAdmitted knownDownstream : Finset ℤ),
      Orderly h instances epoch dispatched →
      Truthful h instances epoch knownAdmitted knownDownstream →
      Settled r.gate instances epoch →
      ∃ result, settled r.toJson (perService fun k => .str (instances k).1) (.int epoch) dispatched
        knownAdmitted knownDownstream = .ok result) := by
  refine ⟨fun k => ?_, (recorded hs hrun).nodup, ?_, ?_, ?_⟩
  · have hgood := good hs hrun k
    exact ⟨hgood.admitted, hgood.finished⟩
  · intro τ _ handler hstarts
    obtain ⟨headers, ha, hopen, hi, he, -, -⟩ := Server.starts_eq_some hstarts
    exact ⟨hopen, headers, ha, hi, he⟩
  · intro r instances epoch dispatched knownAdmitted knownDownstream result hok k h' s' hrun'
    obtain ⟨-, -, -, -, ids, hids, -⟩ := settled_eq_ok.1 hok
    exact (sealed_of_audited hs (r.reached k) (hids k)).run hrun'
  · intro r instances epoch dispatched knownAdmitted knownDownstream ho ht hset
    exact hset.accepted hs ho ht

/-! One request to each service, and the end of the epoch. -/

def trialInstance : Kind → Instance
  | .quote => ⟨"00000000000000000000000000000000", by decide⟩
  | .inventory => ⟨"11111111111111111111111111111111", by decide⟩

def trialStart : State :=
  ⟨fun k => ⟨Gate.new (trialInstance k), [], 0⟩, [trialInstance .quote, trialInstance .inventory]⟩

def trialEpoch (k : Kind) : Epoch :=
  ⟨trialInstance k, ⟨1, by decide⟩, behind trialInstance k⟩

def trialCall (k : Kind) : Action :=
  .call ⟨some (trialInstance k).1, some "1", some "0"⟩

/-- Quote returns when its gate is closed, after Inventory has. -/
def trial : List (Kind × Action) := [
  (.inventory, .openEpoch (trialEpoch .inventory)), (.quote, .openEpoch (trialEpoch .quote)),
  (.quote, trialCall .quote), (.inventory, trialCall .inventory),
  (.inventory, .finish ⟨1, 0, none⟩), (.quote, .closeEpoch (trialEpoch .quote)),
  (.inventory, .closeEpoch (trialEpoch .inventory)),
  (.quote, .finish ⟨1, 0, some (trialInstance .inventory)⟩)]

def trialRun : List Event × State := (exec State.step trialStart trial).get (by decide)

theorem run_trial : Run State.step trialStart trialRun.1 trialRun.2 := by
  have he : exec State.step trialStart trial = some trialRun := (Option.some_get _).symm
  exact run_of_exec he

/-- The receipts at the end. -/
def trialReceipts : Receipts trialStart trialRun.1 trialRun.2 where
  state _ := trialRun.2
  before _ := trialRun.1
  after _ := []
  whole _ := (List.append_nil _).symm
  reached _ := run_trial
  rest _ := .nil

theorem start_trial : Start trialStart where
  gate _ := rfl
  handlers _ := rfl
  clock _ := le_rfl
  drawn k := by cases k <;> decide

theorem settlement_fence_trial :
    (admissions trialRun.1).length = 2 ∧
    (∃ result, settled trialReceipts.toJson (perService fun k => .str (trialInstance k).1) (.int 1)
      {0} {0} {0} = .ok result) ∧
    ∀ k h' s', Run State.step trialRun.2 h' s' → ¬ Active k (trialInstance k) 1 s' ∧
      ∀ n, ⟨k, trialInstance k, 1, n⟩ ∉ admissions h' := by
  have hok : settled trialReceipts.toJson (perService fun k => .str (trialInstance k).1) (.int 1)
      {0} {0} {0} = .ok (.obj [("settled", .bool true), ("epoch", .int 1),
        ("admitted", .obj [("quote", .int 1), ("inventory", .int 1)])]) := by
    decide +kernel
  refine ⟨by decide, ⟨_, hok⟩, fun k h' s' hrun => ?_⟩
  exact (settlement_fence start_trial run_trial).2.2.2.1 trialReceipts trialInstance 1 {0} {0} {0} _ hok
    k h' s' hrun

end AutonomyLab.Settlement
