import AutonomyLab.Admission.Conditions
import AutonomyLab.Audit.Sound
import AutonomyLab.Broker.Progress

/-!
# The three readings of a repair agree

The broker builds a repair from a service it has read, the registry recognizes it by its
text, and the audit by the service that came back.

* `Constructed` — what is known of a service from which a repair was built.
* `patched_of_repair` — what the repair makes of it.
* `judge_repair` — the audit finds the write to be the repair of its operation, and of no
  other one.
* `patch_agreement` — the three together.
-/

namespace AutonomyLab.Audit

open Json Contract Broker Admission

variable {P : Platform} {W : Window} {p : Proposal} {service event op : Json}

/-! ## The service a repair was built from -/

/-- A service with the port of the proposal at an index, and nowhere else. -/
structure Constructed (p : Proposal) (service : Json) (index : ℕ)
    (fs spec : List (String × Json)) (ports : List Json) (port : List (String × Json)) : Prop where
  hasFields : service = .obj fs
  hasSpec : fs.lookup "spec" = some (.obj spec)
  hasPorts : spec.lookup "ports" = some (.arr ports)
  hasPort : ports[index]? = some (.obj port)
  named : indicesNamed (.str p.portName.1) ports = .ok [index]

/-- What is found is a member, if it is not the default. -/
theorem getD_of_ne {key : String} {default value v : Json} (h : getD key default value = .ok v)
    (hne : v ≠ default) : ∃ fs, value = .obj fs ∧ fs.lookup key = some v := by
  cases value with
  | obj fs =>
      refine ⟨fs, rfl, ?_⟩
      cases hl : fs.lookup key with
      | none =>
          simp only [getD, hl, Option.getD_none, Except.ok.injEq] at h
          exact absurd h.symm hne
      | some w =>
          simp only [getD, hl, Option.getD_some, Except.ok.injEq] at h
          rw [h]
  | _ => cases h

theorem constructed_of_constructPatch {ops : List Op}
    (h : constructPatch p service = .ok (.ok ops)) :
    ∃ index fs spec ports port, ops = repair p index ∧
      Constructed p service index fs spec ports port := by
  obtain ⟨metadata, hmeta, h⟩ := bind_eq_ok.1 h
  obtain ⟨changed, -, h⟩ := bind_eq_ok.1 h
  cases changed with
  | some reason => cases h
  | none =>
      obtain ⟨spec, hspec, h⟩ := bind_eq_ok.1 h
      obtain ⟨list, hlist, h⟩ := bind_eq_ok.1 h
      obtain ⟨ports, hports, h⟩ := bind_eq_ok.1 h
      obtain ⟨named, hnamed, h⟩ := bind_eq_ok.1 h
      split at h
      · rename_i entry port b index hfilter
        obtain ⟨targetPort, htarget, h⟩ := bind_eq_ok.1 h
        split at h
        · cases h
        · cases h
          have hlen : ports.length = named.length := by
            have := congrArg List.length (mapM_eq_ok.1 hnamed)
            simpa using this
          -- the filter of the audit is that of the broker, without the ports
          have hzip : (ports.zip named).map Prod.snd = named := List.map_snd_zip hlen.ge
          have hindex : (named.zipIdx.filter fun entry => entry.1).map (fun entry => entry.2) =
              [index] := by
            have hcomp : ((ports.zip named).zipIdx.map (Prod.map Prod.snd id)).filter
                (fun entry => entry.1) = [(b, index)] := by
              rw [List.filter_map]
              exact congrArg (List.map _) hfilter
            rw [← hzip, List.zipIdx_map, hcomp, List.map_singleton]
          have hmem : ((port, b), index) ∈ (ports.zip named).zipIdx := by
            have := List.mem_singleton_self ((port, b), index)
            rw [← hfilter] at this
            exact List.mem_of_mem_filter this
          have hport : ports[index]? = some port := by
            have hget := List.mk_mem_zipIdx_iff_getElem?.1 hmem
            rw [List.getElem?_zip_eq_some] at hget
            exact hget.1
          obtain ⟨pf, rfl, -⟩ := get_eq_ok htarget
          have hlist' : list = .arr ports := by
            have hin : .obj pf ∈ ports := List.mem_of_getElem? hport
            cases list with
            | arr xs => rw [Except.ok.inj hports]
            | obj gs =>
                cases hports
                obtain ⟨q, -, hq⟩ := List.mem_map.1 hin
                cases hq
            | str s =>
                cases hports
                obtain ⟨q, -, hq⟩ := List.mem_map.1 hin
                cases hq
            | _ => cases hports
          subst hlist'
          have hne : ports ≠ [] := by
            rintro rfl
            simp at hport
          obtain ⟨ss, rfl, hps⟩ := getD_of_ne hlist fun h => hne (Json.arr.inj h)
          obtain ⟨fs, rfl, hss⟩ := getD_of_ne hspec fun h => by
            cases h
            simp at hps
          exact ⟨index, fs, ss, ports, pf, rfl, rfl, hss, hps, hport,
            bind_eq_ok.2 ⟨named, hnamed, congrArg Except.ok hindex⟩⟩
      · cases h

/-! ## What the repair makes of it -/

/-- Names and numbers without escapes are the parts of a path. -/
theorem tokens_port (index : ℕ) (member : String)
    (hm : '/' ∉ member.toList ∧ '~' ∉ member.toList) :
    Pointer.tokens ("/spec/ports/" ++ toString index ++ "/" ++ member) =
      some ["spec", "ports", toString index, member] := by
  have hdigits : (toString index).toList = Nat.toDigits 10 index := Nat.toList_repr
  have hplain : ∀ d : Char, d.isDigit = false → d ∉ (toString index).toList := by
    intro d hd hmem
    rw [hdigits] at hmem
    rw [isDigit_of_mem hmem] at hd
    cases hd
  have htext : ("/spec/ports/" ++ toString index ++ "/" ++ member).toList =
      '/' :: ("spec".toList ++ '/' :: ("ports".toList ++ '/' :: ((toString index).toList ++
        '/' :: member.toList))) := by
    rw [String.toList_append, String.toList_append, String.toList_append, List.append_assoc,
      List.append_assoc]
    rfl
  have hslash : '/' ∉ "spec".toList ∧ '/' ∉ "ports".toList := by decide
  have htilde : '~' ∉ "spec".toList ∧ '~' ∉ "ports".toList := by decide
  rw [Pointer.tokens, htext]
  simp only
  rw [Pointer.split_append hslash.1, Pointer.split_append hslash.2,
    Pointer.split_append (hplain '/' rfl), Pointer.split_plain hm.1]
  have hname : ∀ t : String, '~' ∉ t.toList →
      (Pointer.unescape t.toList).map String.ofList = some t := by
    intro t ht
    rw [Pointer.unescape_plain ht, Option.map_some, String.ofList_toList]
  simp only [List.mapM_cons, List.mapM_nil, hname "spec" htilde.1, hname "ports" htilde.2,
    hname (toString index) (hplain '~' rfl), hname member hm.2]
  rfl

theorem index?_toString (index : ℕ) : Pointer.index? (toString index) = some index := by
  have hdigits : (toString index).toList = Nat.toDigits 10 index := Nat.toList_repr
  have hall : (Nat.toDigits 10 index).all Char.isDigit = true :=
    List.all_eq_true.2 fun c hc => isDigit_of_mem hc
  have hvalue : (Nat.toDigits 10 index).foldl (fun n c => 10 * n + (c.toNat - 48)) 0 = index := by
    have := @Nat.ofDigitChars_ten_toDigits index
    rwa [Nat.ofDigitChars_eq_foldl] at this
  rw [Pointer.index?, hdigits]
  rcases Nat.eq_zero_or_pos index with rfl | hpos
  · rfl
  · obtain ⟨d, ds, hd, hne⟩ := head_toDigits hpos
    rw [hd] at hall hvalue ⊢
    split
    · rename_i h
      cases h
    · rename_i h
      exact absurd (List.cons.inj h).1 hne
    · rename_i h
      exact absurd (List.cons.inj h).1 hne
    · rw [if_pos hall, hvalue]

/-- A test changes nothing. -/
theorem eq_of_test {path : String} {value d d' : Json} (h : applyOp (.test path value) d = some d') :
    d' = d := by
  rw [applyOp, Option.bind_eq_bind, Option.bind_eq_some_iff] at h
  obtain ⟨tokens, -, h⟩ := h
  rw [Option.bind_eq_bind, Option.bind_eq_some_iff] at h
  obtain ⟨found, -, h⟩ := h
  split at h
  · exact (Option.some.inj h).symm
  · cases h

/-- **A repair changes the target port** of its port, and nothing else. -/
theorem patched_of_repair {index : ℕ} {fs spec : List (String × Json)} {ports : List Json}
    {port : List (String × Json)} {patched : Json}
    (hc : Constructed p service index fs spec ports port)
    (h : applyPatch (repair p index) service = some patched) :
    patched = .obj (setField "spec" (.obj (setField "ports" (.arr (ports.set index
      (.obj (setField "targetPort" (.int p.targetPort.1) port)))) spec)) fs) := by
  rw [repair, Admission.expectedPatch, applyPatch_cons, Option.bind_eq_some_iff] at h
  obtain ⟨_, h₁, h⟩ := h
  rw [applyPatch_cons, Option.bind_eq_some_iff] at h
  obtain ⟨_, h₂, h⟩ := h
  rw [applyPatch_cons, Option.bind_eq_some_iff] at h
  obtain ⟨_, h₃, h⟩ := h
  rw [applyPatch_cons, Option.bind_eq_some_iff] at h
  obtain ⟨_, h₄, h⟩ := h
  obtain rfl := eq_of_test h₁
  obtain rfl := eq_of_test h₂
  obtain rfl := eq_of_test h₃
  obtain rfl := eq_of_test h₄
  have hpath : "/spec/ports/" ++ toString index ++ "/targetPort" =
      "/spec/ports/" ++ toString index ++ "/" ++ "targetPort" := by
    have hname : "/targetPort" = "/" ++ "targetPort" := by decide
    rw [hname, ← String.append_assoc]
  have htokens := tokens_port index "targetPort" (by decide)
  rw [← hpath] at htokens
  rw [applyPatch_single, applyOp_replace htokens, hc.hasFields, replaceAt, modifyAt, hc.hasSpec] at h
  simp only [Option.bind_some, modifyAt, hc.hasPorts, index?_toString, hc.hasPort,
    Option.map_eq_some_iff] at h
  obtain ⟨_, ⟨_, ⟨_, hport, rfl⟩, rfl⟩, rfl⟩ := h
  obtain ⟨_, -, hport⟩ := Option.bind_eq_some_iff.1 hport
  rw [← Option.some.inj hport]

/-- An entry with the same result takes the place of another in a loop. -/
theorem mapM_set {ε α β : Type} {f : α → Except ε β} {x x' : α} (hf : f x' = f x) {xs : List α}
    {i : ℕ} (h : xs[i]? = some x) : (xs.set i x').mapM f = xs.mapM f := by
  induction xs generalizing i with
  | nil => rfl
  | cons y xs ih =>
      cases i with
      | zero =>
          obtain rfl : y = x := by simpa using h
          rw [List.set_cons_zero, List.mapM_cons, List.mapM_cons, hf]
      | succ i =>
          rw [List.getElem?_cons_succ] at h
          rw [List.set_cons_succ, List.mapM_cons, List.mapM_cons, ih h]

/-- The names of the ports are as they were. -/
theorem indicesNamed_set {name value : Json} {ports : List Json} {index : ℕ}
    {port : List (String × Json)} (h : ports[index]? = some (.obj port)) :
    indicesNamed name (ports.set index (.obj (setField "targetPort" value port))) =
      indicesNamed name ports := by
  have hname : get "name" (.obj (setField "targetPort" value port)) = get "name" (.obj port) := by
    rw [Json.get, Json.get, Json.getD, Json.getD, lookup_setField_ne (by decide)]
  rw [indicesNamed, indicesNamed, mapM_set (by rw [hname]) h]

/-! ## The audit of the write -/

/-- A row of a journal. -/
structure JournalRow (op : Json) (q : Proposal) : Prop where
  id : field? "operation_id" op = some (.str q.operationId.1)
  request : field? "request" op = some q.modelDump

/-- The event is the write of a repair: the patch, under the name of the operation, and the
service that came back. -/
structure CarriesRepair (W : Window) (p : Proposal) (ops : List Op) (patched event : Json) :
    Prop where
  write : Write W (W.identity "broker") event
  verb : member "verb" event = .str "patch"
  resource : member "resource" (member "objectRef" event) = .str "services"
  name : member "name" (member "objectRef" event) = .str "inventory"
  agent : member "userAgent" event = .str (operationAgent ++ p.operationId.1)
  body : PyEq (member "requestObject" event) (patchJson ops)
  response : member "spec" (member "responseObject" event) = member "spec" patched

theorem member_ne_null {key key' : String} {value v : Json}
    (h : member key' (member key value) = v) (hne : v ≠ .null) : member key value ≠ .null := by
  intro hnull
  rw [hnull] at h
  exact hne h.symm

/-- A member that is there is found. -/
theorem getD_of_member {key : String} {default value v : Json} (h : member key value = v)
    (hne : v ≠ .null) : getD key default value = .ok v := by
  cases value with
  | obj fs =>
      cases hf : fs.lookup key with
      | none => exact absurd (by simpa [hf] using h.symm) hne
      | some w => rw [getD, hf, Option.getD_some, ← h, member_obj, hf, Option.getD_some]
  | _ => exact absurd h.symm hne

theorem get_of_member {key : String} {value v : Json} (h : member key value = v) (hne : v ≠ .null) :
    get key value = .ok v := getD_of_member h hne

/-! ### Bindings of other operations -/

/-- The one exception that the audit lets through. -/
def NoIndexError {α : Type} (r : Except PyError α) : Prop := r ≠ .error .indexError

theorem noIndexError_ok {α : Type} (a : α) : NoIndexError (.ok a) := by rintro ⟨⟩

theorem noIndexError_bind {α β : Type} {x : Except PyError α} {f : α → Except PyError β}
    (hx : NoIndexError x) (hf : ∀ a, NoIndexError (f a)) : NoIndexError (x >>= f) := by
  cases x with
  | error e => exact fun h => hx (congrArg Except.error (Except.error.inj h))
  | ok a => exact hf a

theorem noIndexError_map {α β : Type} {x : Except PyError α} {f : α → β} (hx : NoIndexError x) :
    NoIndexError (x.map f) := by
  cases x with
  | error e => exact fun h => hx (congrArg Except.error (Except.error.inj h))
  | ok a => exact noIndexError_ok (f a)

theorem noIndexError_getD (key : String) (default value : Json) :
    NoIndexError (getD key default value) := by
  cases value <;> rintro ⟨⟩

theorem noIndexError_subscript (key : String) (value : Json) :
    NoIndexError (subscript key value) := by
  cases value with
  | obj fs =>
      rw [subscript]
      split <;> rintro ⟨⟩
  | _ => rintro ⟨⟩

theorem noIndexError_contains (key : String) (value : Json) :
    NoIndexError (contains key value) := by
  cases value <;> rintro ⟨⟩

theorem noIndexError_anyTrue {cs : List (Except PyError Bool)} (h : ∀ c ∈ cs, NoIndexError c) :
    NoIndexError (anyTrue cs) := by
  induction cs with
  | nil => rintro ⟨⟩
  | cons c cs ih =>
      refine noIndexError_bind (h c List.mem_cons_self) fun b => ?_
      cases b with
      | true => rintro ⟨⟩
      | false => exact ih fun c' hc' => h c' (List.mem_cons_of_mem c hc')

theorem noIndexError_mapM {α β : Type} {f : α → Except PyError β} {xs : List α}
    (h : ∀ x ∈ xs, NoIndexError (f x)) : NoIndexError (xs.mapM f) := by
  induction xs with
  | nil => rintro ⟨⟩
  | cons x xs ih =>
      rw [List.mapM_cons]
      refine noIndexError_bind (h x List.mem_cons_self) fun y => ?_
      exact noIndexError_bind (ih fun z hz => h z (List.mem_cons_of_mem x hz)) fun _ => noIndexError_ok _

theorem noIndexError_forM {α : Type} {f : α → Except PyError PUnit} {xs : List α}
    (h : ∀ x ∈ xs, NoIndexError (f x)) : NoIndexError (xs.forM f) := by
  induction xs with
  | nil => rintro ⟨⟩
  | cons x xs ih =>
      exact noIndexError_bind (h x List.mem_cons_self) fun _ =>
        ih fun z hz => h z (List.mem_cons_of_mem x hz)

theorem noIndexError_repairPatch (snapshot : Json) (arm : Arm) :
    NoIndexError (repairPatch snapshot arm) := by
  refine noIndexError_bind (noIndexError_subscript _ _) fun metadata => ?_
  refine noIndexError_bind (noIndexError_anyTrue ?_) fun b => ?_
  · have hget : ∀ key value, NoIndexError (Json.get key value) := fun key value =>
      noIndexError_getD key .null value
    have hdeep : ∀ key key' d value (f : Json → Bool), NoIndexError (do
        let inner ← getD key d value
        (Json.get key' inner).map f) := fun key key' d value f =>
      noIndexError_bind (noIndexError_getD _ _ _) fun _ => noIndexError_map (hget _ _)
    simp only [outsideScope, List.forall_mem_cons, List.not_mem_nil, false_imp_iff, implies_true,
      and_true]
    exact ⟨noIndexError_map (hget _ _), noIndexError_map (hget _ _), noIndexError_map (hget _ _),
      noIndexError_map (hget _ _), noIndexError_map (hget _ _), noIndexError_map (hget _ _),
      hdeep _ _ _ _ _, hdeep _ _ _ _ _, hdeep _ _ _ _ _,
      noIndexError_bind (noIndexError_subscript _ _) fun _ => noIndexError_map (hget _ _),
      noIndexError_map (noIndexError_contains _ _), noIndexError_contains _ _⟩
  · cases b with
    | true => rintro ⟨⟩
    | false =>
        cases arm with
        | version =>
            exact noIndexError_bind (noIndexError_subscript _ _) fun _ =>
              noIndexError_bind (noIndexError_subscript _ _) fun _ => noIndexError_ok _
        | contract =>
            refine noIndexError_bind (noIndexError_mapM fun key _ =>
              noIndexError_map (noIndexError_subscript _ _)) fun _ => ?_
            refine noIndexError_bind ?_ fun _ => noIndexError_ok _
            cases metadata with
            | obj fs =>
                refine noIndexError_bind (noIndexError_subscript _ _) fun annotations => ?_
                cases annotations <;> rintro ⟨⟩
            | _ => rintro ⟨⟩

theorem noIndexError_validateBinding (request binding : Json) :
    NoIndexError (validateBinding P request binding) := by
  unfold validateBinding
  dsimp only
  split
  · rintro ⟨⟩
  · refine noIndexError_bind (noIndexError_getD _ _ _) fun contractId => ?_
    refine noIndexError_bind (noIndexError_getD _ _ _) fun snapshot => ?_
    refine noIndexError_bind ?_ fun expected => ?_
    · unfold bindingFor
      split
      · rintro ⟨⟩
      · exact noIndexError_bind (noIndexError_subscript _ _) fun _ => noIndexError_ok _
    · split <;> rintro ⟨⟩

theorem noIndexError_patchForBinding (request binding : Json) :
    NoIndexError (patchForBinding P request binding) := by
  refine noIndexError_bind (noIndexError_validateBinding _ _) fun _ => ?_
  refine noIndexError_bind (noIndexError_subscript _ _) fun snapshot => ?_
  refine noIndexError_bind (noIndexError_subscript _ _) fun contractId => ?_
  split
  · rintro ⟨⟩
  · refine noIndexError_bind (noIndexError_forM fun q _ => ?_) fun _ => ?_
    · refine noIndexError_bind (noIndexError_getD _ _ _) fun v => ?_
      split <;> rintro ⟨⟩
    · refine noIndexError_bind (noIndexError_forM fun q _ => ?_) fun _ =>
        noIndexError_repairPatch _ _
      refine noIndexError_bind (noIndexError_getD _ _ _) fun _ => ?_
      refine noIndexError_bind (noIndexError_getD _ _ _) fun _ => ?_
      refine noIndexError_bind (noIndexError_subscript _ _) fun _ => ?_
      split <;> rintro ⟨⟩

/-- Under any bindings, an operation has a patch that is expected or none. -/
theorem boundPatch_ok (bindings : Option (List (String × Json))) {id : String} (request : Json)
    (expected : List Op) (h : field? "operation_id" op = some (.str id)) :
    ∃ bound, boundPatch P bindings op request expected = .ok bound := by
  cases bindings with
  | none => exact ⟨_, rfl⟩
  | some bindings =>
      have hid : get "operation_id" op = .ok (.str id) :=
        get_of_member (by rw [member, h, Option.getD_some]) (by simp)
      unfold boundPatch
      simp only [hid, bind, Except.bind, getKey]
      split
      · exact ⟨_, rfl⟩
      · rename_i hbound
        refine absurd hbound ?_
        refine noIndexError_bind (noIndexError_validateBinding _ _) fun _ => ?_
        refine noIndexError_bind (noIndexError_subscript _ _) fun contractId => ?_
        split
        · exact noIndexError_patchForBinding _ _
        · rintro ⟨⟩
      · exact ⟨_, rfl⟩

/-- Where bindings are given, the one of the operation is its legacy binding. -/
def BoundBy (P : Platform) (p : Proposal) (bindings : Option (List (String × Json))) : Prop :=
  ∀ b ∈ bindings, ∃ binding, b.lookup p.operationId.1 = some binding ∧ LegacyBinding P p binding

/-- Under its legacy binding, the patch that is expected of an operation is its repair. -/
theorem boundPatch_legacy {bindings : Option (List (String × Json))} {expected : List Op}
    (hb : BoundBy P p bindings) (h : field? "operation_id" op = some (.str p.operationId.1)) :
    boundPatch P bindings op p.modelDump expected = .ok (some expected) := by
  cases bindings with
  | none => rfl
  | some b =>
      obtain ⟨binding, hlookup, hlegacy⟩ := hb b rfl
      have hid : get "operation_id" op = .ok (.str p.operationId.1) :=
        get_of_member (by rw [member, h, Option.getD_some]) (by simp)
      have hne : ¬ PyEq (.str legacy) (.str precise) := by decide
      unfold boundPatch
      simp only [hid, bind, Except.bind, getKey, hlookup, Option.getD_some, hlegacy.valid,
        hlegacy.contract, if_neg hne]
      rfl

/-! ### One row -/

theorem JournalRow.subscript_id {q : Proposal} (h : JournalRow op q) :
    subscript "operation_id" op = .ok (.str q.operationId.1) := by
  have hid := h.id
  cases op with
  | obj fs => exact subscript_obj.2 hid
  | _ => cases hid

theorem JournalRow.get_request {q : Proposal} (h : JournalRow op q) :
    getD "request" (.obj []) op = .ok q.modelDump :=
  getD_of_member (by rw [member, h.request, Option.getD_some]) (by rintro ⟨⟩)

/-- The user agent of a repair is that of one operation. -/
theorem agentNames_row {q : Proposal} (h : JournalRow op q)
    (ha : member "userAgent" event = .str (operationAgent ++ p.operationId.1)) :
    agentNames event op = .ok (decide (p.operationId.1 = q.operationId.1)) := by
  have hprefix : startsWith operationAgent (.str (operationAgent ++ p.operationId.1)) = .ok true := by
    rw [startsWith, String.toList_append]
    exact congrArg Except.ok (List.isPrefixOf_iff_prefix.2 (List.prefix_append _ _))
  refine bind_eq_ok.2 ⟨_, getD_of_member ha (by simp), bind_eq_ok.2 ⟨true, hprefix, ?_⟩⟩
  rw [if_pos rfl]
  refine bind_eq_ok.2 ⟨_, get_of_member ha (by simp), bind_eq_ok.2 ⟨_, h.subscript_id,
    bind_eq_ok.2 ⟨_, rfl, congrArg Except.ok (decide_eq_decide.2 ?_)⟩⟩⟩
  rw [pyEq_str_iff, Json.str.injEq, String.append_right_inj]

/-- The ports of the service that came back. -/
structure CameBack (event : Json) (spec : List (String × Json)) (ports : List Json) : Prop where
  hasSpec : member "spec" (member "responseObject" event) = .obj spec
  hasPorts : member "ports" (.obj spec) = .arr ports

theorem indicesNamed_total {name name' : Json} {ports : List Json} {indices : List ℕ}
    (h : indicesNamed name ports = .ok indices) : ∃ indices', indicesNamed name' ports = .ok indices' := by
  obtain ⟨named, hnamed, -⟩ := bind_eq_ok.1 h
  suffices ∃ named', ports.mapM (fun port =>
      (get "name" port).map fun v => decide (PyEq v name')) = .ok named' by
    obtain ⟨named', hnamed'⟩ := this
    exact ⟨_, bind_eq_ok.2 ⟨named', hnamed', rfl⟩⟩
  clear h
  induction ports generalizing named with
  | nil => exact ⟨[], rfl⟩
  | cons port ports ih =>
      rw [List.mapM_cons] at hnamed
      obtain ⟨b, hb, hnamed⟩ := bind_eq_ok.1 hnamed
      obtain ⟨bs, hbs, -⟩ := bind_eq_ok.1 hnamed
      obtain ⟨v, hv, -⟩ := map_eq_ok.1 hb
      obtain ⟨named', hnamed'⟩ := ih bs hbs
      refine ⟨decide (PyEq v name') :: named', ?_⟩
      rw [List.mapM_cons, hv]
      exact bind_eq_ok.2 ⟨_, rfl, bind_eq_ok.2 ⟨_, hnamed', rfl⟩⟩

section
variable {bindings : Option (List (String × Json))} {ops : List Op} {patched : Json}
  {spec : List (String × Json)} {ports : List Json}

/-- The audit of a write against a row, once the documents have been read. -/
theorem matchOf_row {q : Proposal} {indices : List ℕ} {found : Option Json} (h : JournalRow op q)
    (hc : CameBack event spec ports) (hi : indicesNamed (.str q.portName.1) ports = .ok indices)
    (hfound : ∀ index, indices = [index] → ∃ bound,
      boundPatch P bindings op q.modelDump (repair q index) = .ok bound ∧
        (bound = none → found = none) ∧
        ∀ expected, bound = some expected → ∃ met,
          allTrue (conditions W event op q.modelDump expected) = .ok met ∧
            found = if met then some (.str q.operationId.1) else none)
    (hnone : (∀ index, indices ≠ [index]) → found = none) :
    matchOf P W bindings event op = .ok found := by
  have hresponse : member "responseObject" event ≠ .null := member_ne_null hc.hasSpec (by simp)
  refine bind_eq_ok.2 ⟨_, h.get_request, bind_eq_ok.2 ⟨_, getD_of_member rfl hresponse,
    bind_eq_ok.2 ⟨_, getD_of_member hc.hasSpec (by simp), bind_eq_ok.2 ⟨_, getD_of_member hc.hasPorts (by simp),
      bind_eq_ok.2 ⟨_, rfl, bind_eq_ok.2 ⟨.str q.portName.1, rfl, bind_eq_ok.2 ⟨indices, hi, ?_⟩⟩⟩⟩⟩⟩⟩
  split
  · rename_i index
    obtain ⟨bound, hbound, hunbound, hexpected⟩ := hfound index rfl
    refine bind_eq_ok.2 ⟨repair q index, rfl, bind_eq_ok.2 ⟨bound, hbound, ?_⟩⟩
    cases bound with
    | none =>
        rw [hunbound rfl]
        rfl
    | some expected =>
        obtain ⟨met, hmet, rfl⟩ := hexpected expected rfl
        refine bind_eq_ok.2 ⟨met, hmet, ?_⟩
        cases met with
        | true => exact bind_eq_ok.2 ⟨_, h.subscript_id, rfl⟩
        | false => rfl
  · rename_i hne
    rw [hnone hne]
    rfl

/-- The write of a repair is not found to be the repair of another operation. -/
theorem matchOf_other {q : Proposal} {name : Json} {indices : List ℕ} (h : JournalRow op q)
    (hc : CameBack event spec ports) (hi : indicesNamed name ports = .ok indices)
    (ha : member "userAgent" event = .str (operationAgent ++ p.operationId.1))
    (hne : p.operationId.1 ≠ q.operationId.1) : matchOf P W bindings event op = .ok none := by
  obtain ⟨indices', hi'⟩ := @indicesNamed_total name (.str q.portName.1) ports indices hi
  refine matchOf_row h hc hi' (fun index _ => ?_) fun _ => rfl
  obtain ⟨bound, hbound⟩ := @boundPatch_ok P op bindings _ q.modelDump (repair q index) h.id
  refine ⟨bound, hbound, fun _ => rfl, fun expected _ => ⟨false, ?_, rfl⟩⟩
  have hagent := agentNames_row h ha
  rw [decide_eq_false hne] at hagent
  rw [conditions, allTrue, hagent]
  rfl

theorem exists_of_mem_right {α β : Type} {R : α → β → Prop} {xs : List α} {ys : List β}
    (h : List.Forall₂ R xs ys) {y : β} (hy : y ∈ ys) : ∃ x ∈ xs, R x y := by
  induction h with
  | nil => cases hy
  | @cons x y' xs ys hxy _ ih =>
      rcases List.mem_cons.1 hy with rfl | hy
      · exact ⟨x, List.mem_cons_self, hxy⟩
      · obtain ⟨x', hx', hR⟩ := ih hy
        exact ⟨x', List.mem_cons_of_mem x hx', hR⟩

/-- **The write of a repair is found to be the repair of its operation.** -/
theorem matchOf_own {index : ℕ} (h : JournalRow op p) (hc : CameBack event spec ports)
    (hi : indicesNamed (.str p.portName.1) ports = .ok [index])
    (he : CarriesRepair W p (repair p index) patched event) (hb : BoundBy P p bindings)
    (hns : p.ns.1 = W.ns) (hservice : p.serviceName.1 = "inventory") (hport : p.portName.1 = "http")
    (htarget : p.targetPort.1 = 8080) :
    matchOf P W bindings event op = .ok (some (.str p.operationId.1)) := by
  refine matchOf_row h hc hi (fun i hi => ?_) fun hne => absurd rfl (hne index)
  obtain rfl : index = i := by simpa using hi
  refine ⟨_, boundPatch_legacy hb h.id, fun hnone => (by cases hnone), ?_⟩
  rintro _ ⟨⟩
  refine ⟨true, allTrue_eq_true.2 ?_, rfl⟩
  obtain ⟨steps, hbody, hsteps⟩ := he.body.arr_right
  have hagent := agentNames_row h he.agent
  rw [decide_eq_true rfl] at hagent
  have href : getD "objectRef" (.obj []) event = .ok (member "objectRef" event) :=
    getD_of_member rfl (member_ne_null he.resource (by simp))
  have hstr : ∀ {key : String} {value : Json} {s : String}, member key value = .str s →
      (get key value).map (fun v => decide (PyEq v (.str s))) = .ok true := by
    intro key value s hs
    rw [get_of_member hs (by simp)]
    exact congrArg Except.ok (decide_eq_true (PyEq.refl _))
  simp only [conditions, List.forall_mem_cons, List.not_mem_nil, false_imp_iff, implies_true,
    and_true]
  refine ⟨hagent, bind_eq_ok.2 ⟨_, href, hstr he.resource⟩, bind_eq_ok.2 ⟨_, href, bind_eq_ok.2
    ⟨_, get_of_member he.name (by simp), map_eq_ok.2 ⟨.str p.serviceName.1, rfl, ?_⟩⟩⟩, hstr ?_, hstr ?_, hstr ?_,
    hstr he.verb, map_eq_ok.2 ⟨_, get_of_member hbody (by simp), ?_⟩, ?_⟩
  · rw [hservice]
    exact decide_eq_true (PyEq.refl _)
  · exact congrArg Json.str hservice
  · exact congrArg Json.str hns
  · exact congrArg Json.str hport
  · -- every step that is expected is in the patch, since the patch is those steps
    refine Bool.and_eq_true_iff.2 ⟨List.all_eq_true.2 fun step hstep => List.any_eq_true.2 ?_,
      decide_eq_true (hbody ▸ he.body)⟩
    obtain ⟨x, hx, heq⟩ := exists_of_mem_right hsteps (List.mem_map_of_mem hstep)
    exact ⟨x, hx, decide_eq_true heq.symm⟩
  · refine map_eq_ok.2 ⟨.int p.targetPort.1, rfl, ?_⟩
    rw [htarget]
    exact decide_eq_true (PyEq.refl _)

/-! ### The journal -/

/-- The operations of a journal. -/
structure Rows (operations : List Json) : Prop where
  rows : ∀ op ∈ operations, ∃ q, JournalRow op q
  distinct : DistinctIds operations

theorem JournalRow.member_id {q : Proposal} (h : JournalRow op q) :
    member "operation_id" op = .str q.operationId.1 := by
  rw [member, h.id, Option.getD_some]

/-- Rows of one id are one. -/
theorem Rows.unique {op' : Json} (h : Rows operations) (hop : op ∈ operations)
    (hop' : op' ∈ operations) (heq : PyEq (member "operation_id" op) (member "operation_id" op')) :
    op = op' := by
  obtain ⟨i, rfl⟩ := List.mem_iff_get.1 hop
  obtain ⟨j, rfl⟩ := List.mem_iff_get.1 hop'
  have hget := List.pairwise_iff_get.1 h.distinct
  rcases lt_trichotomy i j with hlt | rfl | hlt
  · exact absurd heq (hget i j hlt)
  · rfl
  · exact absurd heq.symm (hget j i hlt)

/-- In a journal, one row has the id of one of its rows. -/
theorem filterMap_id {id : String} (h : DistinctIds operations) (hop : op ∈ operations)
    (hid : member "operation_id" op = .str id) :
    operations.filterMap (fun op => if member "operation_id" op = .str id then some (Json.str id)
      else none) = [.str id] := by
  induction operations with
  | nil => cases hop
  | cons x xs ih =>
      obtain ⟨hx, hxs⟩ := List.pairwise_cons.1 h
      rcases List.mem_cons.1 hop with rfl | hmem
      · have hrest : ∀ y ∈ xs, ¬ member "operation_id" y = .str id := fun y hy heq =>
          hx y hy (by rw [hid, heq])
        rw [List.filterMap_cons, if_pos hid, List.filterMap_eq_nil_iff.2 fun y hy =>
          if_neg (hrest y hy)]
      · have hne : ¬ member "operation_id" x = .str id := fun heq =>
          hx op hmem (by rw [hid, heq])
        rw [List.filterMap_cons, if_neg hne, ih hxs hmem]

/-- The proposals that the audit knows of. -/
structure Audited (W : Window) (p : Proposal) : Prop where
  window : W.ns = "autonomy-lab"
  ns : p.ns.1 = "autonomy-lab"
  service : p.serviceName.1 = "inventory"
  port : p.portName.1 = "http"
  target : p.targetPort.1 = 8080

/-- What the service that came back shows of the repair. -/
theorem cameBack_of_repair (h : constructPatch p service = .ok (.ok ops))
    (happ : applyPatch ops service = some patched) (he : CarriesRepair W p ops patched event) :
    ∃ index spec ports, ops = repair p index ∧ CameBack event spec ports ∧
      indicesNamed (.str p.portName.1) ports = .ok [index] := by
  obtain ⟨index, fs, spec, ports, port, rfl, hc⟩ := constructed_of_constructPatch h
  have hresponse := he.response
  rw [patched_of_repair hc happ, member_obj, lookup_setField_self, Option.getD_some] at hresponse
  have hports : ∀ ports' : Json, member "ports" (.obj (setField "ports" ports' spec)) = ports' := by
    intro ports'
    rw [member_obj, lookup_setField_self, Option.getD_some]
  exact ⟨index, _, _, rfl, ⟨hresponse, hports _⟩, (indicesNamed_set hc.hasPort).trans hc.named⟩

/-- **The audit finds the write of a repair to be the repair of its operation**, whatever
else is in the journal. -/
theorem judge_repair {auditId : Json} (h : constructPatch p service = .ok (.ok ops))
    (happ : applyPatch ops service = some patched) (he : CarriesRepair W p ops patched event)
    (hid : subscript "auditID" event = .ok auditId) (ha : Audited W p) (hrows : Rows operations)
    (hop : op ∈ operations) (hrow : JournalRow op p) (hb : BoundBy P p bindings) :
    judge P W bindings operations event = .ok (some (.correlated auditId (.str p.operationId.1))) ∧
      ∀ op' ∈ operations, ∀ id, matchOf P W bindings event op' = .ok (some id) → op' = op := by
  obtain ⟨index, spec, ports, rfl, hc, hi⟩ := cameBack_of_repair h happ he
  have hmatch : ∀ op' ∈ operations, matchOf P W bindings event op' =
      .ok (if member "operation_id" op' = .str p.operationId.1 then
        some (Json.str p.operationId.1) else none) := by
    intro op' hop'
    obtain ⟨q, hq⟩ := hrows.rows op' hop'
    split
    · rename_i hsame
      obtain rfl : op' = op := hrows.unique hop' hop (by rw [hsame, hrow.member_id])
      exact matchOf_own hrow hc hi he hb (ha.ns.trans ha.window.symm) ha.service ha.port ha.target
    · rename_i hne
      refine matchOf_other hq hc hi he.agent fun heq => hne ?_
      rw [hq.member_id, heq]
  refine ⟨?_, fun op' hop' id hid => ?_⟩
  · have hmapM : operations.mapM (matchOf P W bindings event) = .ok (operations.map fun op' =>
        if member "operation_id" op' = .str p.operationId.1 then some (Json.str p.operationId.1)
        else none) := by
      rw [mapM_eq_ok, List.map_map]
      exact List.map_congr_left hmatch
    have hfound : (operations.map fun op' =>
        if member "operation_id" op' = .str p.operationId.1 then some (Json.str p.operationId.1)
        else none).reduceOption = [.str p.operationId.1] := by
      rw [List.reduceOption, List.filterMap_map]
      exact filterMap_id hrows.distinct hop hrow.member_id
    have huser : getD "user" (.obj []) event = .ok (member "user" event) :=
      getD_of_member rfl (member_ne_null he.write.user (by simp))
    obtain ⟨code, hcode, hsuccess⟩ := he.write.code
    have hstatus : getD "responseStatus" (.obj []) event = .ok (member "responseStatus" event) :=
      getD_of_member rfl (member_ne_null hcode (by simp))
    have hothers : inSet (.str (W.identity "broker")) [W.identity "observer", W.identity "verifier"] =
        .ok false := by
      have hne : ∀ role, role ≠ "broker" → W.identity "broker" ≠ W.identity role := fun role hr heq =>
        hr (identity_injective W heq).symm
      rw [inSet, List.contains_eq_mem]
      exact congrArg Except.ok (decide_eq_false (by
        simp [hne "observer" (by decide), hne "verifier" (by decide)]))
    refine bind_eq_ok.2 ⟨_, huser, bind_eq_ok.2 ⟨_, get_of_member he.write.user (by simp),
      bind_eq_ok.2 ⟨_, hstatus, bind_eq_ok.2 ⟨_, get_of_member hcode (by simp), ?_⟩⟩⟩⟩
    rw [if_neg (not_not.2 (isSuccess_iff.2 ⟨code, rfl, hsuccess⟩))]
    refine bind_eq_ok.2 ⟨false, hothers, ?_⟩
    rw [if_neg Bool.false_ne_true, if_pos (PyEq.refl _)]
    refine bind_eq_ok.2 ⟨_, hmapM, ?_⟩
    rw [hfound]
    exact bind_eq_ok.2 ⟨_, hid, rfl⟩
  · rw [hmatch op' hop'] at hid
    split at hid
    · rename_i hsame
      exact hrows.unique hop' hop (by rw [hsame, hrow.member_id])
    · cases hid

/-- What an event was found to be is in the report. -/
theorem correlated_of_judge {malformedLines : ℕ} {report : Report} {auditId id : Json}
    {identity : String} (h : assess P W bindings malformedLines events operations = .ok report)
    (he : event ∈ events) (hw : Write W identity event)
    (hj : judge P W bindings operations event = .ok (some (.correlated auditId id))) :
    (auditId, id) ∈ report.correlatedMutations := by
  have hA := assess_eq_ok h
  obtain ⟨writes, hwrites, hc, -⟩ := hA.correlated
  rw [hc, List.mem_filterMap]
  exact ⟨event, (hwrites event).2 (hA.judged_of_write he hw), attribution_eq_some.2 hj⟩

end

/-! ## The three together -/

/-- A repair that was built from a service and written, and what the audit is given of it. -/
structure AuditedRepair (P : Platform) (W : Window) (p : Proposal)
    (bindings : Option (List (String × Json))) (operations : List Json) (op service : Json)
    (ops : List Op) (event auditId : Json) : Prop where
  audited : Audited W p
  constructed : constructPatch p service = .ok (.ok ops)
  carries : ∃ patched, applyPatch ops service = some patched ∧ CarriesRepair W p ops patched event
  auditId : subscript "auditID" event = .ok auditId
  rows : Rows operations
  mem : op ∈ operations
  row : JournalRow op p
  bound : BoundBy P p bindings

/-- **Constructor, authorizer and auditor agree.**  What the broker builds is admitted;
what is admitted is what the broker builds, for a service with the port at some index; and
the audit attributes the write of it to its operation and to no other. -/
theorem patch_agreement {parseFloat : String → Option ℚ} (hf : FloatText P.reprFloat parseFloat)
    (p : Proposal) :
    (∀ service ops binding, constructPatch p service = .ok (.ok ops) → LegacyBinding P p binding →
      ∃ conditions, executionConditionsOf P p.modelDump binding (patchJson ops) = .ok conditions) ∧
    (∀ binding patch conditions, executionConditionsOf P p.modelDump binding patch = .ok conditions →
      ∃ index ops, constructPatch p (serviceWith p index) = .ok (.ok ops) ∧
        SameJson patch (patchJson ops)) ∧
    ∀ W bindings operations op service ops event auditId,
      AuditedRepair P W p bindings operations op service ops event auditId →
        judge P W bindings operations event =
          .ok (some (.correlated auditId (.str p.operationId.1))) ∧
        (∀ op' ∈ operations, ∀ id, matchOf P W bindings event op' = .ok (some id) → op' = op) ∧
        ∀ malformedLines events report, event ∈ events →
          assess P W bindings malformedLines events operations = .ok report →
            (auditId, .str p.operationId.1) ∈ report.correlatedMutations := by
  refine ⟨fun service ops binding h hb => ⟨_, conditions_of_constructed h hb⟩,
    fun binding patch conditions h => ?_, ?_⟩
  · obtain ⟨index, hsame⟩ := constructed_of_conditions hf h
    exact ⟨index, _, constructPatch_serviceWith p index, hsame⟩
  · intro W bindings operations op service ops event auditId h
    obtain ⟨patched, happ, hcarries⟩ := h.carries
    obtain ⟨hj, honly⟩ := judge_repair h.constructed happ hcarries h.auditId h.audited h.rows h.mem
      h.row h.bound
    exact ⟨hj, honly, fun malformedLines events report he hr =>
      correlated_of_judge hr he hcarries.write hj⟩

/-- A proposal, and the write of its repair. -/
def sampleRepair : Proposal :=
  { sampleProposal with
    runId := ⟨"run", by decide⟩
    resourceVersion := ⟨"7", by decide⟩
    evidenceIds := ⟨[⟨"e-1", by decide⟩], by decide⟩ }

def sampleRow : Json := .obj [
  ("operation_id", .str "op-1"), ("request", sampleRepair.modelDump), ("status", .str "uncertain")]

def sampleWrite : Json := .obj [
  ("auditID", .str "audit-1"), ("requestReceivedTimestamp", .str "2"), ("verb", .str "patch"),
  ("userAgent", .str "autonomy-lab-operation/op-1"),
  ("user", .obj [("username", .str "system:serviceaccount:autonomy-lab:broker")]),
  ("objectRef", .obj [("namespace", .str "autonomy-lab"), ("resource", .str "services"),
    ("name", .str "inventory")]),
  ("requestObject", patchJson (repair sampleRepair 0)), ("responseStatus", .obj [("code", .int 200)]),
  ("responseObject", patched (repair sampleRepair 0) (serviceWith sampleRepair 0))]

theorem patch_agreement_sample :
    (∃ conditions, executionConditionsOf ⟨id, fractionText⟩ sampleRepair.modelDump
      ((bindingFor ⟨id, fractionText⟩ sampleRepair.modelDump (.str legacy) .null).toOption.getD .null)
      (patchJson (repair sampleRepair 0)) = .ok conditions ∧
      ∃ index ops, constructPatch sampleRepair (serviceWith sampleRepair index) = .ok (.ok ops) ∧
        SameJson (patchJson (repair sampleRepair 0)) (patchJson ops)) ∧
    judge ⟨id, fractionText⟩ ⟨"1", "3", "autonomy-lab"⟩ none [sampleRow] sampleWrite =
      .ok (some (.correlated (.str "audit-1") (.str "op-1"))) := by
  obtain ⟨haccepts, hbuilds, haudit⟩ := @patch_agreement ⟨id, fractionText⟩ parseFraction
    floatText_fraction sampleRepair
  obtain ⟨binding, hb⟩ : ∃ binding, bindingFor ⟨id, fractionText⟩ sampleRepair.modelDump
      (.str legacy) .null = .ok binding := ⟨_, rfl⟩
  have hconstructed := constructPatch_serviceWith sampleRepair 0
  obtain ⟨conditions, hc⟩ := haccepts _ _ binding hconstructed
    ⟨validate_bindingFor hb, (subscript_bindingFor hb).2⟩
  have hcase : AuditedRepair ⟨id, fractionText⟩ ⟨"1", "3", "autonomy-lab"⟩ sampleRepair none
      [sampleRow] sampleRow (serviceWith sampleRepair 0) (repair sampleRepair 0) sampleWrite
      (.str "audit-1") :=
    { audited := ⟨rfl, rfl, rfl, rfl, rfl⟩
      constructed := hconstructed
      carries := ⟨patched (repair sampleRepair 0) (serviceWith sampleRepair 0), by rfl, {
        write := ⟨⟨⟨"2", rfl, by decide, by decide⟩, rfl⟩, ⟨"patch", by decide, rfl⟩,
          ⟨200, rfl, by decide, by decide⟩, by decide⟩
        verb := rfl
        resource := rfl
        name := rfl
        agent := by decide
        body := PyEq.refl _
        response := rfl }⟩
      auditId := rfl
      rows := ⟨by simpa using ⟨sampleRepair, rfl, rfl⟩, List.pairwise_singleton _ _⟩
      mem := List.mem_singleton_self _
      row := ⟨rfl, rfl⟩
      bound := by rintro _ ⟨⟩ }
  refine ⟨⟨conditions, ?_, hbuilds binding _ conditions hc⟩, (haudit _ _ _ _ _ _ _ _ hcase).1⟩
  rw [hb]
  exact hc

end AutonomyLab.Audit
