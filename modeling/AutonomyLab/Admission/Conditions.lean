import Mathlib.Data.List.Induction
import AutonomyLab.Admission.Registry
import AutonomyLab.Broker.Program
import AutonomyLab.Json.RoundTrip

/-!
# What an authorization may be for

`execution_conditions` compares a patch with the one that is admitted, by their texts.  The
patch it is given is one that `_construct_patch` built, or is claimed to be.

* `executionConditionsOf` — the comparison, of whatever is given as a patch.
* `repair` — the patch that is built for a proposal, at the port of an index.
* `conditions_of_constructed` — what the broker builds is admitted.
* `constructed_of_conditions` — **what is admitted is what the broker builds**, for a
  service with the port at some index.
-/

namespace AutonomyLab.Admission

open Json Broker
open Contract (legacy validateBinding)

variable {P : Platform} {parseFloat : String → Option ℚ} {p : Proposal} {binding patch : Json}

/-! ## Patches as they are given -/

/-- The path of the third of five operations, where that one is a dictionary. -/
def namedPathOf? : Json → Option String
  | .arr [_, _, named, _, _] => match field? "path" named with
      | some (.str path) => some path
      | _ => none
  | _ => none

/-- `execution_conditions`. -/
def executionConditionsOf (P : Platform) (proposal binding patch : Json) :
    Except BrokerError Conditions :=
  match Proposal.modelValidate proposal with
  | none => .error .validation
  | some p => do
      checkBinding P p binding
      let contractId ← walk (subscript "contract_id" binding)
      require (PyEq contractId (.str legacy)) "Execution contract has not been admitted"
      match (namedPathOf? patch).bind portIndex? with
      | none => .error (.refused "Dispatch patch differs from admitted semantics")
      | some index =>
          require (encoded P patch =
              encoded P (patchJson (expectedPatch p ("/spec/ports/" ++ index))))
            "Dispatch patch differs from admitted semantics"
          return ⟨encoded P binding, encoded P patch⟩

theorem namedPathOf?_patchJson (ops : List Op) : namedPathOf? (patchJson ops) = namedPath? ops := by
  match ops with
  | [] | [_] | [_, _] | [_, _, _] | [_, _, _, _] | [_, _, _, _, _] => rfl
  | _ :: _ :: _ :: _ :: _ :: _ :: _ => rfl

/-- The operations of a patch are compared as what they are written as. -/
theorem executionConditions_patchJson (ops : List Op) :
    executionConditionsOf P p.modelDump binding (patchJson ops) =
      executionConditions P p binding ops := by
  rw [executionConditionsOf, Proposal.modelValidate_modelDump]
  simp only [namedPathOf?_patchJson]
  rfl

/-! ## The index in a path -/

/-- Digits without a leading zero are those of the number they stand for. -/
theorem toDigits_ofDigitChars {cs : List Char} (hd : ∀ c ∈ cs, c.isDigit = true) (hne : cs ≠ [])
    (hz : cs = ['0'] ∨ cs.head? ≠ some '0') :
    Nat.toDigits 10 (Nat.ofDigitChars 10 cs 0) = cs ∧
      (cs ≠ ['0'] → 0 < Nat.ofDigitChars 10 cs 0) := by
  have hdigit : ∀ d : Char, d.isDigit = true → ∃ n < 10, d = n.digitChar := by
    intro d h
    have h : 48 ≤ d.toNat ∧ d.toNat ≤ 57 := Char.isDigit_iff_toNat.1 h
    refine ⟨d.toNat - 48, by omega, Char.toNat_inj.1 ?_⟩
    rw [Nat.toNat_digitChar_of_lt_ten (by omega)]
    omega
  induction cs using List.reverseRecOn with
  | nil => exact absurd rfl hne
  | append_singleton ds d ih =>
      obtain ⟨n, hn, rfl⟩ := hdigit d (hd d (by simp))
      have hlast : Nat.ofDigitChars 10 (ds ++ [n.digitChar]) 0 =
          10 * Nat.ofDigitChars 10 ds 0 + n := by
        rw [Nat.ofDigitChars_append, Nat.ofDigitChars_cons_digitChar_of_lt_ten hn,
          Nat.ofDigitChars_nil]
      rw [hlast]
      by_cases hds : ds = []
      · subst hds
        rw [Nat.ofDigitChars_nil, List.nil_append, Nat.toDigits_of_lt_base (by omega)]
        refine ⟨by simp, fun hne => ?_⟩
        by_contra h0
        obtain rfl : n = 0 := by omega
        exact hne rfl
      · have hz' : ds.head? ≠ some '0' := by
          rcases hz with hz | hz
          · have hlen := congrArg List.length hz
            rw [List.length_append, List.length_singleton, List.length_singleton] at hlen
            exact absurd (List.length_eq_zero_iff.1 (by omega)) hds
          · rwa [List.head?_append_of_ne_nil _ hds] at hz
        have hne0 : ds ≠ ['0'] := by
          rintro rfl
          exact hz' rfl
        obtain ⟨heq, hpos⟩ := ih (fun c hc => hd c (by simp [hc])) hds (.inr hz')
        have hpos := hpos hne0
        refine ⟨?_, fun _ => by omega⟩
        rw [← Nat.toDigits_append_toDigits (by decide) hpos hn, heq, Nat.toDigits_of_lt_base hn]

theorem portIndex?_of_digits {path : String} {cs : List Char}
    (h : path.toList = "/spec/ports/".toList ++ (cs ++ "/name".toList)) (hne : cs ≠ [])
    (hd : ∀ c ∈ cs, c.isDigit = true) (hz : cs = ['0'] ∨ cs.head? ≠ some '0') :
    portIndex? path = some (String.ofList cs) := by
  unfold portIndex?
  extract_lets before after rest index
  have hrest : rest = cs ++ after := (congrArg _ h).trans (@List.drop_left _ before _)
  have hindex : index = cs := by
    have htake : rest.take (rest.length - after.length) = cs := by
      rw [hrest, List.length_append, Nat.add_sub_cancel, List.take_left]
    exact htake
  rw [hindex, if_pos ⟨(List.append_assoc _ _ _).trans h.symm, hne, List.all_eq_true.2 hd, hz⟩]

theorem portIndex?_name (n : ℕ) :
    portIndex? ("/spec/ports/" ++ toString n ++ "/name") = some (toString n) := by
  have hdigits : (toString n).toList = Nat.toDigits 10 n := Nat.toList_repr
  have hcanonical : Nat.toDigits 10 n = ['0'] ∨ (Nat.toDigits 10 n).head? ≠ some '0' := by
    rcases Nat.eq_zero_or_pos n with rfl | hn
    · exact .inl (Nat.toDigits_zero 10)
    · obtain ⟨d, ds, hd, hne⟩ := head_toDigits hn
      refine .inr ?_
      rw [hd]
      exact fun h => hne (Option.some.inj h)
  rw [portIndex?_of_digits (by rw [String.toList_append, String.toList_append, List.append_assoc])
    (hdigits ▸ Nat.toDigits_ne_nil) (hdigits ▸ fun c hc => isDigit_of_mem hc)
    (hdigits ▸ hcanonical), String.ofList_toList]

theorem portIndex?_eq_some {path index : String} (h : portIndex? path = some index) :
    ∃ n : ℕ, index = toString n := by
  unfold portIndex? at h
  extract_lets before after rest digits at h
  split at h
  · rename_i hc
    obtain ⟨-, hne, hd, hz⟩ := hc
    obtain rfl := Option.some.inj h
    refine ⟨Nat.ofDigitChars 10 digits 0, String.toList_injective ?_⟩
    rw [String.toList_ofList]
    have hdigits := toDigits_ofDigitChars (fun c hc => List.all_eq_true.1 hd c hc) hne hz
    exact (Nat.toList_repr.trans hdigits.1).symm
  · cases h

/-! ## The two meet -/

/-- The patch that is built for a proposal, at the port of an index. -/
def repair (p : Proposal) (index : ℕ) : List Op := expectedPatch p ("/spec/ports/" ++ toString index)

theorem repair_of_constructPatch {service : Json} {ops : List Op}
    (h : constructPatch p service = .ok (.ok ops)) : ∃ index, ops = repair p index := by
  obtain ⟨metadata, -, h⟩ := bind_eq_ok.1 h
  obtain ⟨changed, -, h⟩ := bind_eq_ok.1 h
  cases changed with
  | some reason => cases h
  | none =>
      obtain ⟨spec, -, h⟩ := bind_eq_ok.1 h
      obtain ⟨list, -, h⟩ := bind_eq_ok.1 h
      obtain ⟨ports, -, h⟩ := bind_eq_ok.1 h
      obtain ⟨named, -, h⟩ := bind_eq_ok.1 h
      split at h
      · rename_i index _
        obtain ⟨targetPort, -, h⟩ := bind_eq_ok.1 h
        split at h
        · cases h
        · cases h
          exact ⟨index, rfl⟩
      · cases h

/-- The stored binding of an operation under the legacy contract. -/
structure LegacyBinding (P : Platform) (p : Proposal) (binding : Json) : Prop where
  valid : validateBinding P p.modelDump binding = .ok ()
  contract : subscript "contract_id" binding = .ok (.str legacy)

/-- **What the broker builds is admitted**, under the legacy binding of the operation. -/
theorem conditions_of_constructed {service : Json} {ops : List Op}
    (h : constructPatch p service = .ok (.ok ops)) (hb : LegacyBinding P p binding) :
    executionConditionsOf P p.modelDump binding (patchJson ops) =
      .ok ⟨encoded P binding, encoded P (patchJson ops)⟩ := by
  obtain ⟨index, rfl⟩ := repair_of_constructPatch h
  have hcheck : checkBinding P p binding = .ok () := by rw [checkBinding, hb.valid]
  have hnamed : (namedPath? (repair p index)).bind portIndex? = some (toString index) :=
    portIndex?_name index
  rw [executionConditions_patchJson, executionConditions, hcheck, hb.contract]
  simp only [walk, Except.mapError, bind, Except.bind, require, if_pos (PyEq.refl (.str legacy)), hnamed]
  rw [repair, if_pos rfl]
  rfl

/-- A service that has the port of a proposal at an index, and nothing to object to. -/
def serviceWith (p : Proposal) (index : ℕ) : Json := .obj [
  ("metadata", .obj [("uid", .str p.serviceUid.1), ("resourceVersion", .str p.resourceVersion.1),
    ("namespace", .str p.ns.1), ("name", .str p.serviceName.1)]),
  ("spec", .obj [("ports", .arr (List.replicate index (.obj []) ++
    [.obj [("name", .str p.portName.1), ("targetPort", .int p.expectedTargetPort.1)]]))])]

theorem mapM_append_eq_ok {ε α β : Type} {f : α → Except ε β} {xs ys : List α} {us vs : List β}
    (hx : xs.mapM f = .ok us) (hy : ys.mapM f = .ok vs) :
    (xs ++ ys).mapM f = .ok (us ++ vs) := by
  rw [mapM_eq_ok, List.map_append, mapM_eq_ok.1 hx, mapM_eq_ok.1 hy, List.map_append]

/-- Every index is that of a port the broker builds the patch for. -/
theorem constructPatch_serviceWith (p : Proposal) (index : ℕ) :
    constructPatch p (serviceWith p index) = .ok (.ok (repair p index)) := by
  have hothers : (List.replicate index (Json.obj [])).mapM (fun port =>
      (get "name" port).map fun v => decide (PyEq v (.str p.portName.1))) =
        .ok (List.replicate index false) := by
    rw [mapM_eq_ok, List.map_replicate, List.map_replicate]
    rfl
  have hport : [Json.obj [("name", .str p.portName.1),
      ("targetPort", .int p.expectedTargetPort.1)]].mapM (fun port =>
        (get "name" port).map fun v => decide (PyEq v (.str p.portName.1))) = .ok [true] := by
    rw [mapM_eq_ok, List.map_singleton, List.map_singleton]
    exact congrArg (fun b => [Except.ok b]) (decide_eq_true (PyEq.refl (.str p.portName.1)))
  have hnamed := mapM_append_eq_ok hothers hport
  have hpairs : ((List.replicate index (Json.obj []) ++ [Json.obj [("name", .str p.portName.1),
      ("targetPort", .int p.expectedTargetPort.1)]]).zip
        (List.replicate index false ++ [true])).zipIdx.filter (fun entry => entry.1.2) =
          [((.obj [("name", .str p.portName.1), ("targetPort", .int p.expectedTargetPort.1)], true),
            index)] := by
    have hnone : (((List.replicate index (Json.obj [])).zip
        (List.replicate index false)).zipIdx.filter fun entry => entry.1.2) = [] := by
      refine List.filter_eq_nil_iff.2 ?_
      rintro ⟨⟨port, b⟩, i⟩ hmem
      have hb := (List.of_mem_zip (List.fst_mem_of_mem_zipIdx hmem)).2
      rw [List.eq_of_mem_replicate hb]
      exact Bool.false_ne_true
    rw [List.zip_append (by simp), List.zipIdx_append, List.filter_append, hnone]
    simp
  have hchanged : [
      ("uid", p.serviceUid.1, "service_uid_changed"),
      ("resourceVersion", p.resourceVersion.1, "resource_version_changed"),
      ("namespace", p.ns.1, "service_namespace_changed"),
      ("name", p.serviceName.1, "service_name_changed")].findSomeM? (fun f =>
        (get f.1 (.obj [("uid", .str p.serviceUid.1), ("resourceVersion", .str p.resourceVersion.1),
          ("namespace", .str p.ns.1), ("name", .str p.serviceName.1)])).map fun v =>
            if PyEq v (.str f.2.1) then none else some f.2.2) = .ok none := by
    have hpy : ∀ s : String, PyEq (.str s) (.str s) := fun s => PyEq.refl _
    simp [List.findSomeM?, Json.get, Json.getD, lookup_cons_eq, Except.map, bind, Except.bind, hpy, pure,
      Except.pure]
  refine bind_eq_ok.2 ⟨_, rfl, bind_eq_ok.2 ⟨none, hchanged, bind_eq_ok.2 ⟨_, rfl,
    bind_eq_ok.2 ⟨_, rfl, bind_eq_ok.2 ⟨_, rfl, bind_eq_ok.2 ⟨_, hnamed, ?_⟩⟩⟩⟩⟩⟩
  rw [hpairs]
  refine bind_eq_ok.2 ⟨.int p.expectedTargetPort.1, rfl, ?_⟩
  exact congrArg Except.ok (if_neg (not_not.2 rfl))

/-- Values that differ in nothing but the order of the members of their objects. -/
def SameJson (v w : Json) : Prop := ordered ⟨", ", ": ", true⟩ v = ordered ⟨", ", ": ", true⟩ w

/-- **What is admitted is what the broker builds**, up to the order in which the members of
its operations stand: for a service with the port at some index. -/
theorem constructed_of_conditions (hf : FloatText P.reprFloat parseFloat) {conditions : Conditions}
    (h : executionConditionsOf P p.modelDump binding patch = .ok conditions) :
    ∃ index, SameJson patch (patchJson (repair p index)) := by
  have hL : Layout.Valid ⟨", ", ": ", true⟩ := Layout.valid_spaced true
  rw [executionConditionsOf, Proposal.modelValidate_modelDump] at h
  obtain ⟨_, -, h⟩ := bind_eq_ok.1 h
  obtain ⟨_, -, h⟩ := bind_eq_ok.1 h
  obtain ⟨_, -, h⟩ := bind_eq_ok.1 h
  split at h
  · cases h
  · rename_i index hindex
    obtain ⟨path, -, hpath⟩ := Option.bind_eq_some_iff.1 hindex
    obtain ⟨n, rfl⟩ := portIndex?_eq_some hpath
    obtain ⟨_, hsame, -⟩ := bind_eq_ok.1 h
    exact ⟨n, ordered_of_dumps_eq hf hL (require_eq_ok.1 hsame)⟩

end AutonomyLab.Admission
