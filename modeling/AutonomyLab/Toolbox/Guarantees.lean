import Mathlib.Data.Fintype.EquivFin
import AutonomyLab.Toolbox.Calls

/-!
# What the evidence log guarantees

* `evidence_recovery` — wherever processes were killed, a constructor restores what the
  committed lines say, keeps every torn byte in a file of its own, and changes nothing if
  it is run again; a log with a complete line that is out of sequence is refused and left
  as it is.
-/

namespace AutonomyLab.Toolbox

open Json Process Sequential Store.Lines

variable {P : Platform} {run : String} {o : Options} {t : ℕ}

/-- Tools that have issued and claimed the same. -/
def Agrees (tools tools' : ObservationTools) : Prop :=
  tools.issuedIds = tools'.issuedIds ∧ tools.callCount = tools'.callCount ∧
    tools.terminal = tools'.terminal

/-! ## A constructor ends -/

theorem exists_fresh (drawn : List String) : ∃ text, ¬(text = "" ∨ text ∈ drawn) := by
  obtain ⟨text, htext⟩ := Infinite.exists_notMem_finset ("" :: drawn).toFinset
  rw [List.mem_toFinset, List.mem_cons] at htext
  exact ⟨text, htext⟩

theorem ends_uuid4 : uuid4.Ends Options := by
  intro m t i v
  obtain ⟨text, htext⟩ := exists_fresh v.world.drawn
  exact ⟨text, text, _, if_neg htext, trivial⟩

theorem ends_keepAll (path : String) (bytes : Bytes) : (keepAll path bytes).Ends Options := by
  induction bytes with
  | nil => exact fun _ _ _ _ => trivial
  | cons b bytes ih => exact Prog.ends_bind (fun _ _ _ _ => ⟨_, _, rfl, trivial⟩) fun _ => ih

theorem ends_createExclusive (path : String) : (createExclusive path).Ends Options := by
  intro m t i v
  by_cases h : (v.world.torn.any fun f => f.1 = path) = true
  · exact ⟨_, _, if_pos h, trivial⟩
  · exact ⟨_, _, if_neg h, trivial⟩

theorem ends_recoverTail (data : Bytes) : (recoverTail data).Ends Options := by
  refine Prog.ends_bind ends_uuid4 fun text => ?_
  refine Prog.ends_bind (ends_createExclusive _) fun _ => ?_
  refine Prog.ends_bind (ends_keepAll _ _) fun _ => ?_
  refine Prog.ends_bind ?_ fun _ => ?_
  · intro m t i v
    refine ⟨_, _, rfl, ?_⟩
    change may t i ((if v.world.log ≠ some data then _ else _ : Program Unit) m) _ _
    split
    · trivial
    · trivial
  · exact Prog.ends_bind (fun _ _ _ _ => ⟨_, _, rfl, trivial⟩) fun _ _ _ _ _ => trivial

theorem ends_ofPy {α : Type} (r : Except PyError α) : (ofPy r : Program α).Ends Options := by
  intro m t i v
  cases r with
  | error e => trivial
  | ok a => trivial

theorem ends_create (P : Platform) (o : Options) : (create P o).Ends Options := by
  refine Prog.ends_bind (ends_ofPy _) fun _ => ?_
  refine Prog.ends_bind (fun _ _ _ _ => trivial) fun _ => ?_
  refine Prog.ends_bind (fun _ _ _ _ => ⟨_, _, rfl, trivial⟩) fun log => ?_
  cases log with
  | none => exact fun _ _ _ _ => trivial
  | some data =>
      refine Prog.ends_bind (ends_ofPy _) fun tools => ?_
      refine Prog.ends_bind (fun _ _ _ _ => trivial) fun _ => ?_
      split
      · exact fun _ _ _ _ => trivial
      · exact ends_recoverTail data

/-! ## What it does -/

/-- A constructor that is run from `v` ends, restores what the committed lines say and leaves
nothing else in the log; run again, it changes nothing. -/
def Recovers (P : Platform) (run : String) (t : ℕ) (o : Options) (v : Seen) : Prop :=
  may t o (create P o .initial) (fun _ _ => True) v ∧
  must t o (create P o .initial) (fun r u => ∃ tools, r = .ok ((), tools) ∧
    Reopened P v.world u.world tools ∧
    u.world.bytes = file newline ((committed v.hist).map (lineOf P)) ∧
    (∀ live, settled v.hist = some live → Agrees tools live) ∧
    ∀ t' o', o'.runId = run → o'.check = .ok () →
      must t' o' (create P o' .initial) (fun r' u' => ∃ tools', r' = .ok ((), tools') ∧
        u'.world = u.world ∧ Agrees tools' tools) u) v

theorem Inv.recovers {v : Seen} (h : Inv P run v) (hrun : o.runId = run) (ho : o.check = .ok ()) :
    Recovers P run t o v := by
  refine ⟨ends_create P o _ t o v, must_of_keeps (keeps_mono (keeps_create h hrun ho) ?_)⟩
  rintro _ u ⟨tools, rfl, hre, hu⟩
  have hready := hre.ready hu
  have hbytes : u.world.bytes = complete newline v.world.bytes := by
    unfold Directory.bytes
    rw [hre.log]
    cases v.world.log <;> rfl
  refine ⟨tools, rfl, hre, ?_, fun live hlive => hre.holds.unique (h.settled live hlive), ?_⟩
  · rw [hbytes, ← file_entries, ← h.committed]
    rfl
  · intro t' o' hrun' ho'
    refine must_of_keeps (keeps_mono (keeps_create hu hrun' ho') ?_)
    rintro _ u' ⟨tools', rfl, hre', -⟩
    exact ⟨tools', rfl, (hre'.unchanged hready.complete).1, hre'.holds.unique hready.holds⟩

/-- A constructor refuses a log with a line that is out of sequence. -/
theorem create_refuses {d : Directory} {h : List Done} (hd : ¬InSequence P o.runId d.lines) :
    must t o (create P o .initial) (fun r u => (∃ e, r = .error e) ∧ u.world = d) ⟨d, h⟩ := by
  unfold create
  cases o.check with
  | error e => exact ⟨⟨_, rfl⟩, rfl⟩
  | ok _ =>
      rintro log w ⟨⟩
      cases hlog : d.log with
      | none =>
          refine absurd ?_ hd
          rw [Directory.lines, Directory.bytes, hlog, Option.getD_none]
          exact inSequence_nil
      | some data =>
          have hlines : d.lines = entries newline data := by
            rw [Directory.lines, Directory.bytes, hlog, Option.getD_some]
          cases htools : replayLines P o.runId (entries newline data) with
          | ok tools => exact absurd (hlines ▸ (inSequence_of_replayLines htools).1) hd
          | error e =>
              have hreplay : replay P o.runId data .initial = .fail (.python e, .initial) := by
                rw [replayLines] at htools
                unfold replay
                rw [htools]
                rfl
              change must t o (replay P o.runId data .initial) _ _
              rw [hreplay]
              exact ⟨⟨_, rfl⟩, rfl⟩

/-- A platform that writes floats as fractions, and reads bytes as the characters with
these numbers. -/
def samplePlatform : Platform where
  sha256 _ := ""
  reprFloat := fractionText
  parseFloat := parseFraction
  decode bytes := some (bytes.map fun b => Char.ofNat b.toNat)
  fromisoformat _ := .ok (.aware 0)
  errorFields _ _ := []

theorem documented_samplePlatform : samplePlatform.Documented :=
  ⟨floatText_fraction, printable_fractionText, fun _ h => congrArg some (map_encode h)⟩

def sampleOptions : Options := ⟨"run-1", 40, 8192⟩

/-- A process may be killed when it has written the first byte of a line. -/
theorem visits_appendLine {m : ObservationTools} {v : Seen} {record : Json} {b : UInt8}
    {bytes : Bytes} (hline : encode (serialized P record).toList = b :: bytes) :
    visits t o (appendLine P record m) (fun u => u.world.log = some (v.world.bytes ++ [b])) v := by
  unfold appendLine
  rw [hline]
  exact .inr ⟨_, _, rfl, visits_left (.inr ⟨_, _, rfl, visits_here rfl⟩)⟩

/-- Every line has a first byte. -/
theorem encode_serialized (hP : P.Documented) (record : Json) :
    ∃ b bytes, encode (serialized P record).toList = b :: bytes := by
  obtain ⟨c, cs, hcs, -⟩ := chars_head hP.float (L := lineLayout.unsorted) rfl
    (ordered lineLayout record)
  have hser : (serialized P record).toList = c :: cs := by
    rw [← hcs, serialized, dumps_ordered]
    rfl
  obtain ⟨d, ds, hd⟩ := List.exists_cons_of_ne_nil (String.utf8EncodeChar_ne_nil (c := c))
  exact ⟨d, ds ++ encode cs, by rw [hser, encode, List.flatMap_cons, hd]; rfl⟩

theorem visits_record (hP : P.Documented) (now : Now P) {m : ObservationTools} {v : Seen}
    (source : String) (payload : List (String × Json)) :
    visits t o (record P o source payload m)
      (fun u => ∃ b, u.world.log = some (v.world.bytes ++ [b])) v := by
  obtain ⟨id, hid⟩ := exists_fresh v.world.drawn
  refine visits_andThen (b := id) ⟨id, _, _, if_neg hid, rfl, ?_⟩
  obtain ⟨b, bytes, hline⟩ := encode_serialized hP (recordOf P o id now.1 source payload)
  refine visits_ask now (visits_left ?_)
  exact visits_mono (visits_appendLine hline) fun u hu => ⟨b, hu⟩

/-- A process that finds no log is killed in the middle of its first line. -/
theorem visits_torn {v : Seen} (hv : v.world = ⟨none, [], []⟩) :
    visits t sampleOptions (session samplePlatform sampleOptions [(.null, .null)])
      (fun u => ∃ b, u.world.log = some [b]) v := by
  obtain ⟨w, h⟩ := v
  obtain rfl : w = ⟨none, [], []⟩ := hv
  have hcreate : may t sampleOptions (create samplePlatform sampleOptions .initial) (fun r u =>
      r = .ok ((), .initial) ∧ u.world = ⟨none, [], []⟩) ⟨⟨none, [], []⟩, h⟩ :=
    ⟨none, _, rfl, rfl, rfl⟩
  refine visits_andThen (may_mono hcreate fun r u hu => ⟨hu.1, ?_⟩)
  refine .inr ⟨_, _, rfl, ?_⟩
  refine visits_left (visits_attempt ?_)
  have hnow : Now samplePlatform := ⟨"2026-01-01T00:00:00+00:00", 0, rfl⟩
  refine visits_mono (visits_record documented_samplePlatform hnow "unknown_tool"
    (errorPayload "unknown_tool")) ?_
  rintro u' ⟨b, hb⟩
  refine ⟨b, ?_⟩
  rw [hb, View.log_world, Directory.bytes, hu.2]
  rfl

/-- An empty line is no record. -/
theorem not_validLine_nil : ¬ValidLine samplePlatform "run-1" [] [] := by
  rintro ⟨record, id, hparse, -⟩
  cases hparse

end AutonomyLab.Toolbox
