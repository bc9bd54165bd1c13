import AutonomyLab.Settlement.Gate

/-!
# One of the two services, and what may happen to it

A service is one process with its gate, the handlers that run in it, and its clock.
Requests reach it in any order, from the controller, from the other service or from anyone
else; handlers return at any time; and the process may be replaced by another.

* `Server.step` — one of these.
* `Server.Good` — what is true of a server at every moment, and `Server.Good.step`.
* `Server.Changed` — the ways in which a step may change the gate.
-/

namespace AutonomyLab.Settlement

open Store

/-- A process that serves one of the services. -/
structure Server where
  gate : Gate
  /-- The handlers that run in it. -/
  handlers : List Handler
  /-- `time.monotonic()`. -/
  now : ℚ

/-- What may happen to a server. -/
inductive Action where
  | tick (now : ℚ)
  | openEpoch (body : Epoch)
  | closeEpoch (body : Epoch)
  /-- A request for a quote or for a product. -/
  | call (headers : Headers)
  /-- A handler returns, or raises. -/
  | finish (handler : Handler)
  | snapshot
  /-- The process is replaced by another. -/
  | restart (instanceId : Instance) (now : ℚ)

/-- A request that is refused changes nothing. -/
def Server.step (k : Kind) (v : Server) : Action → Option Server
  | .tick now => if v.now ≤ now then some { v with now := now } else none
  | .openEpoch body => match k.openEpoch v.gate body with
      | .ok g => some { v with gate := g }
      | .error _ => some v
  | .closeEpoch body => match v.gate.close body with
      | .ok g => some { v with gate := g }
      | .error _ => some v
  | .call headers => match v.gate.operation headers v.now with
      | .ok (g, handler) => some { v with gate := g, handlers := v.handlers ++ [handler] }
      | .error _ => some v
  | .finish handler =>
      if handler ∈ v.handlers
      then some { v with gate := v.gate.finish handler v.now, handlers := v.handlers.erase handler }
      else none
  | .snapshot => some v
  | .restart instanceId now => if 0 ≤ now then some ⟨Gate.new instanceId, [], now⟩ else none

/-! ## What is true of a server at every moment -/

/-- A record that the gate made. -/
structure Operation.Good (op : Operation) (now : ℚ) : Prop where
  started : 0 ≤ op.started ∧ op.started ≤ now
  finished : op.state = .finished → ∃ f, op.finished = some f ∧ op.started ≤ f

structure Server.Good (v : Server) : Prop where
  admitted : v.gate.admitted = v.gate.operations.rows.length
  finished : v.gate.finished = v.gate.operations.count fun _ op => op.state = .finished
  keys : ∀ key op, (key, op) ∈ v.gate.operations.rows → ∃ n : ℤ, key = toString n ∧ 0 ≤ n ∧ n < 128
  records : ∀ key op, (key, op) ∈ v.gate.operations.rows → op.Good v.now
  /-- No two handlers have one identity. -/
  handlers : (v.handlers.map Handler.identity).Nodup
  /-- A handler runs in the open epoch, and its record is active. -/
  running : ∀ h ∈ v.handlers, h.epoch = v.gate.epoch ∧
    ∃ op, v.gate.operations.find? (toString h.identity) = some op ∧ op.state = .active
  /-- An active record has a handler. -/
  active : ∀ key op, (key, op) ∈ v.gate.operations.rows → op.state = .active →
    ∃ h ∈ v.handlers, key = toString h.identity
  clock : 0 ≤ v.now

theorem Operation.Good.later {op : Operation} {now now' : ℚ} (h : op.Good now) (hle : now ≤ now') :
    op.Good now' :=
  ⟨⟨h.started.1, h.started.2.trans hle⟩, h.finished⟩

theorem Server.good_new (instanceId : Instance) {now : ℚ} (h : 0 ≤ now) :
    Server.Good ⟨Gate.new instanceId, [], now⟩ where
  admitted := rfl
  finished := rfl
  keys := nofun
  records := nofun
  handlers := List.nodup_nil
  running := nofun
  active := nofun
  clock := h

namespace Server.Good

variable {v : Server}

theorem tick (hv : v.Good) {now : ℚ} (h : v.now ≤ now) : Server.Good { v with now := now } where
  admitted := hv.admitted
  finished := hv.finished
  keys := hv.keys
  records key op hop := (hv.records key op hop).later h
  handlers := hv.handlers
  running := hv.running
  active := hv.active
  clock := hv.clock.trans h

/-- No handler runs where every operation has returned. -/
theorem handlers_eq_nil (hv : v.Good)
    (h : ∀ row ∈ v.gate.operations.rows, row.2.state = .finished) : v.handlers = [] := by
  refine List.eq_nil_iff_forall_not_mem.2 fun handler hh => ?_
  obtain ⟨-, op, hop, hactive⟩ := hv.running handler hh
  have := h _ (Table.find?_eq_some.1 hop)
  rw [hactive] at this
  cases this

theorem openEpoch (hv : v.Good) {k : Kind} {body : Epoch} {g : Gate}
    (h : k.openEpoch v.gate body = .ok g) : Server.Good { v with gate := g } := by
  obtain ⟨-, -, -, hall, -, rfl⟩ := Gate.openEpoch_eq_ok h
  have hnone := hv.handlers_eq_nil hall
  exact {
    admitted := rfl
    finished := rfl
    keys := nofun
    records := nofun
    handlers := hv.handlers
    running := by
      intro handler hh
      rw [show v.handlers = [] from hnone] at hh
      cases hh
    active := nofun
    clock := hv.clock }

theorem close (hv : v.Good) {body : Epoch} {g : Gate} (h : v.gate.close body = .ok g) :
    Server.Good { v with gate := g } := by
  obtain ⟨-, -, rfl⟩ := Gate.close_eq_ok h
  exact { hv with }

theorem operation (hv : v.Good) {headers : Headers} {g : Gate} {handler : Handler}
    (h : v.gate.operation headers v.now = .ok (g, handler)) :
    Server.Good { v with gate := g, handlers := v.handlers ++ [handler] } := by
  obtain ⟨-, -, -, -, hepoch, -, hlow, hhigh, operations, hins, rfl⟩ := Gate.operation_eq_ok h
  obtain ⟨habsent, hrows⟩ := Table.insert_eq_some hins
  have hnew : ∀ handler' ∈ v.handlers, handler'.identity ≠ handler.identity := by
    intro handler' hh heq
    obtain ⟨-, op, hop, -⟩ := hv.running handler' hh
    rw [heq, habsent] at hop
    cases hop
  exact {
    admitted := by
      dsimp only
      rw [hrows, List.length_append, List.length_singleton, hv.admitted]
    finished := by
      dsimp only
      rw [Table.count_insert hins, hv.finished]
      simp
    keys := by
      intro key op hop
      rw [hrows, List.mem_append, List.mem_singleton] at hop
      rcases hop with hop | hop
      · exact hv.keys key op hop
      · cases hop
        exact ⟨handler.identity, rfl, hlow, hhigh⟩
    records := by
      intro key op hop
      rw [hrows, List.mem_append, List.mem_singleton] at hop
      rcases hop with hop | hop
      · exact hv.records key op hop
      · cases hop
        exact ⟨⟨hv.clock, le_rfl⟩, nofun⟩
    handlers := by
      dsimp only
      rw [List.map_append, List.nodup_append]
      refine ⟨hv.handlers, List.nodup_singleton _, ?_⟩
      intro a ha b hb hab
      obtain ⟨handler', hh, rfl⟩ := List.mem_map.1 ha
      exact hnew handler' hh (hab.trans (List.mem_singleton.1 hb))
    running := by
      intro handler' hh
      dsimp only
      rw [List.mem_append, List.mem_singleton] at hh
      rcases hh with hh | rfl
      · obtain ⟨he, op, hop, hactive⟩ := hv.running handler' hh
        refine ⟨he, op, ?_, hactive⟩
        rw [Table.find?_insert hins,
          if_neg fun heq => hnew handler' hh (toString_int_injective heq), hop]
      · exact ⟨hepoch, _, by rw [Table.find?_insert hins, if_pos rfl], rfl⟩
    active := by
      intro key op hop hactive
      rw [hrows, List.mem_append, List.mem_singleton] at hop
      rcases hop with hop | hop
      · obtain ⟨handler', hh, hkey⟩ := hv.active key op hop hactive
        exact ⟨handler', List.mem_append_left _ hh, hkey⟩
      · cases hop
        exact ⟨handler, List.mem_append_right _ (List.mem_singleton_self _), rfl⟩
    clock := hv.clock }

theorem finish (hv : v.Good) {handler : Handler} (h : handler ∈ v.handlers) :
    Server.Good { v with
      gate := v.gate.finish handler v.now, handlers := v.handlers.erase handler } := by
  obtain ⟨hepoch, op, hop, hactive⟩ := hv.running handler h
  have hothers : ∀ handler' ∈ v.handlers.erase handler, handler' ∈ v.handlers ∧
      handler'.identity ≠ handler.identity := by
    intro handler' hh
    have hmem := List.mem_of_mem_erase hh
    refine ⟨hmem, fun heq => ?_⟩
    have : handler' = handler := List.inj_on_of_nodup_map hv.handlers hmem h heq
    rw [this, (List.Nodup.of_map _ hv.handlers).mem_erase_iff] at hh
    exact hh.1 rfl
  have hgate : (v.gate.finish handler v.now).operations =
      v.gate.operations.update (toString handler.identity) fun op =>
        { op with state := .finished, finished := some v.now } := if_pos hepoch
  exact {
    admitted := by
      rw [hgate, Table.length_update]
      exact hv.admitted
    finished := by
      have hcount := Table.count_update (p := fun _ op => decide (op.state = .finished)) hop
        (f := fun op => { op with state := .finished, finished := some v.now })
      have hf := hv.finished
      rw [hgate]
      change v.gate.finished + 1 = _
      simp only [hactive, reduceCtorEq, decide_false, Bool.false_eq_true, if_false, decide_true,
        if_true] at hcount
      omega
    keys := by
      intro key op' hop'
      rw [hgate] at hop'
      obtain ⟨op'', hmem, -⟩ := Table.mem_update hop'
      exact hv.keys key op'' hmem
    records := by
      intro key op' hop'
      rw [hgate] at hop'
      obtain ⟨op'', hmem, rfl⟩ := Table.mem_update hop'
      have hgood := hv.records key op'' hmem
      split
      · exact ⟨hgood.started, fun _ => ⟨v.now, rfl, hgood.started.2⟩⟩
      · exact hgood
    handlers := hv.handlers.sublist (List.erase_sublist.map _)
    running := by
      intro handler' hh
      obtain ⟨hmem, hne⟩ := hothers handler' hh
      obtain ⟨he, op', hop', hactive'⟩ := hv.running handler' hmem
      refine ⟨he, op', ?_, hactive'⟩
      rw [hgate, Table.find?_update_of_ne fun heq => hne (toString_int_injective heq), hop']
    active := by
      intro key op' hop' hactive'
      rw [hgate] at hop'
      obtain ⟨op'', hmem, rfl⟩ := Table.mem_update hop'
      split at hactive'
      · cases hactive'
      · rename_i hne
        obtain ⟨handler', hh, rfl⟩ := hv.active key op'' hmem hactive'
        exact ⟨handler', (List.mem_erase_of_ne fun heq => hne (by rw [heq])).2 hh, rfl⟩
    clock := hv.clock }

/-- **A server stays so, whatever happens to it.** -/
theorem step (hv : v.Good) {k : Kind} {a : Action} {v' : Server} (h : v.step k a = some v') :
    v'.Good := by
  cases a with
  | tick now =>
      simp only [Server.step] at h
      split at h
      · rename_i hle
        cases h
        exact hv.tick hle
      · cases h
  | openEpoch body =>
      simp only [Server.step] at h
      split at h
      · rename_i hg
        cases h
        exact hv.openEpoch hg
      · cases h
        exact hv
  | closeEpoch body =>
      simp only [Server.step] at h
      split at h
      · rename_i hg
        cases h
        exact hv.close hg
      · cases h
        exact hv
  | call headers =>
      simp only [Server.step] at h
      split at h
      · rename_i hg
        cases h
        exact hv.operation hg
      · cases h
        exact hv
  | finish handler =>
      simp only [Server.step] at h
      split at h
      · rename_i hmem
        cases h
        exact hv.finish hmem
      · cases h
  | snapshot =>
      cases h
      exact hv
  | restart instanceId now =>
      simp only [Server.step] at h
      split at h
      · rename_i hnow
        cases h
        exact Server.good_new instanceId hnow
      · cases h

end Server.Good

/-! ## What a step does to a gate -/

/-- The handler that an action starts. -/
def Server.starts (v : Server) : Action → Option Handler
  | .call headers => match v.gate.operation headers v.now with
      | .ok (_, handler) => some handler
      | .error _ => none
  | _ => none

/-- **A handler that starts was called for**, with the instance and the epoch of a gate that
is open. -/
theorem Server.starts_eq_some {v : Server} {a : Action} {handler : Handler}
    (h : v.starts a = some handler) : ∃ headers, a = .call headers ∧ v.gate.closed = false ∧
      headers.instanceId = some v.gate.instanceId.1 ∧ headers.epoch = some (toString v.gate.epoch) ∧
      headers.operation = some (toString handler.identity) ∧ handler.epoch = v.gate.epoch := by
  cases a with
  | call headers =>
      simp only [Server.starts] at h
      split at h
      · rename_i hg
        cases h
        obtain ⟨hopen, hi, he, ho, hepoch, -⟩ := Gate.operation_eq_ok hg
        exact ⟨headers, rfl, hopen, hi, he, ho, hepoch⟩
      · cases h
  | _ => cases h

/-- The ways in which the gate of a server may change. -/
inductive Server.Changed (k : Kind) (v : Server) (a : Action) (v' : Server) : Prop
  | kept (starts : v.starts a = none) (instanceId : v'.gate.instanceId = v.gate.instanceId)
      (epoch : v'.gate.epoch = v.gate.epoch)
      (keys : v'.gate.operations.rows.map Prod.fst = v.gate.operations.rows.map Prod.fst)
      (closed : v.gate.closed = true → v'.gate.closed = true)
      (handlers : ∀ h ∈ v'.handlers, h ∈ v.handlers)
      (downstream : v'.gate.downstream = v.gate.downstream)
  | opened (starts : v.starts a = none) (instanceId : v'.gate.instanceId = v.gate.instanceId)
      (epoch : v'.gate.epoch = v.gate.epoch + 1) (rows : v'.gate.operations.rows = [])
      (handlers : v'.handlers = v.handlers)
      (downstream : v'.gate.downstream.isSome = decide (k = .quote))
  | admitted (handler : Handler) (starts : v.starts a = some handler)
      (closed : v.gate.closed = false) (instanceId : v'.gate.instanceId = v.gate.instanceId)
      (epoch : v'.gate.epoch = v.gate.epoch) (current : handler.epoch = v.gate.epoch)
      (fresh : toString handler.identity ∉ v.gate.operations.rows.map Prod.fst)
      (keys : v'.gate.operations.rows.map Prod.fst =
        v.gate.operations.rows.map Prod.fst ++ [toString handler.identity])
      (handlers : v'.handlers = v.handlers ++ [handler])
      (downstream : v'.gate.downstream = v.gate.downstream)
  | replaced (instanceId : Instance) (now : ℚ) (restart : a = .restart instanceId now)
      (started : v' = ⟨Gate.new instanceId, [], now⟩)

theorem Server.step_changed {v v' : Server} {k : Kind} {a : Action} (h : v.step k a = some v') :
    Server.Changed k v a v' := by
  cases a with
  | tick now =>
      simp only [Server.step] at h
      split at h
      · cases h
        exact .kept rfl rfl rfl rfl id (fun _ => id) rfl
      · cases h
  | openEpoch body =>
      simp only [Server.step] at h
      split at h
      · rename_i hg
        cases h
        obtain ⟨-, -, -, -, hdown, rfl⟩ := Gate.openEpoch_eq_ok hg
        exact .opened rfl rfl rfl rfl rfl hdown
      · cases h
        exact .kept rfl rfl rfl rfl id (fun _ => id) rfl
  | closeEpoch body =>
      simp only [Server.step] at h
      split at h
      · rename_i hg
        cases h
        obtain ⟨-, -, rfl⟩ := Gate.close_eq_ok hg
        exact .kept rfl rfl rfl rfl (fun _ => rfl) (fun _ => id) rfl
      · cases h
        exact .kept rfl rfl rfl rfl id (fun _ => id) rfl
  | call headers =>
      simp only [Server.step] at h
      split at h
      · rename_i g handler hg
        cases h
        obtain ⟨hopen, -, -, -, hepoch, -, -, -, operations, hins, rfl⟩ := Gate.operation_eq_ok hg
        obtain ⟨habsent, hrows⟩ := Table.insert_eq_some hins
        refine .admitted handler ?_ hopen rfl rfl hepoch (Table.find?_eq_none.1 habsent) ?_ rfl rfl
        · simp only [Server.starts, hg]
        · dsimp only
          rw [hrows, List.map_append, List.map_singleton]
      · rename_i hg
        cases h
        refine .kept ?_ rfl rfl rfl id (fun _ => id) rfl
        simp only [Server.starts, hg]
  | finish handler =>
      simp only [Server.step] at h
      split at h
      · cases h
        refine .kept rfl rfl rfl ?_ id (fun _ => List.mem_of_mem_erase) rfl
        exact v.gate.finish_keys handler v.now
      · cases h
  | snapshot =>
      cases h
      exact .kept rfl rfl rfl rfl id (fun _ => id) rfl
  | restart instanceId now =>
      simp only [Server.step] at h
      split at h
      · cases h
        exact .replaced instanceId now rfl rfl
      · cases h

/-! ## The wiring of the services -/

/-- Only Quote has a service behind it, and only after its first epoch was opened. -/
structure Server.Wired (k : Kind) (v : Server) : Prop where
  inventory : k = .inventory → v.gate.downstream = none
  epoch : 0 ≤ v.gate.epoch
  opened : v.gate.downstream.isSome = true → 0 < v.gate.epoch

theorem Server.Wired.step {k : Kind} {v v' : Server} {a : Action} (hw : v.Wired k)
    (h : v.step k a = some v') : v'.Wired k := by
  cases Server.step_changed h with
  | kept _ _ epoch _ _ _ downstream =>
      exact ⟨by rw [downstream]; exact hw.inventory, by rw [epoch]; exact hw.epoch,
        by rw [epoch, downstream]; exact hw.opened⟩
  | opened _ _ epoch _ _ downstream =>
      have := hw.epoch
      refine ⟨fun hk => ?_, by omega, fun _ => by omega⟩
      rw [hk] at downstream
      exact Option.not_isSome_iff_eq_none.1 (by rw [downstream]; decide)
  | admitted _ _ _ _ epoch _ _ _ _ downstream =>
      exact ⟨by rw [downstream]; exact hw.inventory, by rw [epoch]; exact hw.epoch,
        by rw [epoch, downstream]; exact hw.opened⟩
  | replaced i now _ started =>
      subst started
      exact ⟨fun _ => rfl, le_rfl, nofun⟩

end AutonomyLab.Settlement
