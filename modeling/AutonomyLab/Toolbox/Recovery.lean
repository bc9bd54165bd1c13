import AutonomyLab.Toolbox.Replay

/-!
# Every process finds the log in sequence

Whatever is called and wherever processes are killed: the complete lines of the log stay
in sequence, no torn line is lost, and tools that are not at work hold what the lines say.

* `Inv` — what holds of every view; `Inv.quiet` is the frame rule for acts that complete
  no line.
* `keeps_create`, `keeps_call` — what a constructor and a call make of it.
* `Reopened` — what a constructor leaves.
-/

namespace AutonomyLab.Toolbox

open Json Process Sequential Store.Lines

/-- What processes did, and the files of the run. -/
abbrev Seen := View Directory Act Options

abbrev Done := Event Directory Act Options

/-- What the log holds, nothing where there is none. -/
def Directory.bytes (d : Directory) : Bytes := d.log.getD []

/-- The complete lines of the log. -/
def Directory.lines (d : Directory) : List Bytes := entries newline d.bytes

/-- The memory of the tools where they last returned, if no line has been completed since. -/
def settled : List Done → Option ObservationTools
  | [] => none
  | e :: h => match e.label with
      | .opened tools | .answered tools => some tools
      | .commit _ => none
      | _ => settled h

/-- The records whose lines were completed, oldest first. -/
def committed : List Done → List Json
  | [] => []
  | e :: h => match e.label with
      | .commit record => committed h ++ [record]
      | _ => committed h

/-- The acts that complete no line and return nothing. -/
def Act.isQuiet : Act → Bool
  | .opened _ | .answered _ | .commit _ => false
  | _ => true

theorem hist_quiet {e : Done} (h : e.label.isQuiet = true) (before : List Done) :
    settled (e :: before) = settled before ∧ committed (e :: before) = committed before := by
  obtain ⟨_, _, l, _, _⟩ := e
  cases l <;> first | exact ⟨rfl, rfl⟩ | cases h

variable (P : Platform) (run : String)

/-- What holds of every view. -/
structure Inv (v : Seen) : Prop where
  lines : InSequence P run v.world.lines
  committed : v.world.lines = (committed v.hist).map (lineOf P)
  drawn : ∀ r ∈ recordsOf P v.world.lines, ∀ id, r.member "observation_id" = .str id →
    id ∈ v.world.drawn
  torn : ∀ f ∈ v.world.torn, ∃ text ∈ v.world.drawn, f.1 = quarantinePath text
  settled : ∀ tools, settled v.hist = some tools → Holds tools (recordsOf P v.world.lines)

/-- The proof is relative to the invariant; a process may be killed anywhere. -/
def logic : Logic (evidence P run fun d => d = ⟨none, [], []⟩) where
  inv := Inv P run
  idle _ := True
  inv_init hd := by
    subst hd
    exact ⟨inSequence_nil, rfl, nofun, nofun, nofun⟩
  idle_init _ := trivial

variable {P run} {t : ℕ} {o : Options} {v : Seen} {tools : ObservationTools}

theorem Inv.point (h : Inv P run v) : Point (logic P run) v := ⟨h, fun _ => trivial⟩

/-- An act that completes no line keeps the invariant. -/
theorem Inv.quiet (h : Inv P run v) {l : Act} {d : Directory} (hl : l.isQuiet = true)
    (hlines : d.lines = v.world.lines) (hdrawn : v.world.drawn ⊆ d.drawn)
    (htorn : ∀ f ∈ d.torn, ∃ text ∈ d.drawn, f.1 = quarantinePath text) :
    Inv P run (v.log t o l d) := by
  obtain ⟨hsettled, hcommitted⟩ := hist_quiet (e := ⟨t, o, l, v.world, d⟩) hl v.hist
  refine ⟨?_, ?_, ?_, htorn, ?_⟩
  · rw [View.log_world, hlines]
    exact h.lines
  · rw [View.log_world, hlines, View.log_hist, hcommitted]
    exact h.committed
  · rw [View.log_world, hlines]
    exact fun r hr id hid => hdrawn (h.drawn r hr id hid)
  · rw [View.log_world, hlines, View.log_hist, hsettled]
    exact h.settled

theorem Inv.torn_of_subset (h : Inv P run v) {drawn : List String} (hd : v.world.drawn ⊆ drawn) :
    ∀ f ∈ v.world.torn, ∃ text ∈ drawn, f.1 = quarantinePath text := by
  intro f hf
  obtain ⟨text, htext, hpath⟩ := h.torn f hf
  exact ⟨text, hd htext, hpath⟩

theorem append_append_cancel {a b s s' : String} (h : a ++ s ++ b = a ++ s' ++ b) : s = s' := by
  have hl := congrArg String.toList h
  simp only [String.toList_append] at hl
  exact String.toList_inj.1 (List.append_cancel_left (List.append_cancel_right hl))

theorem quarantinePath_injective {s s' : String} (h : quarantinePath s = quarantinePath s') :
    s = s' := append_append_cancel h

/-! ## Drawing a uuid -/

/-- The directory after a uuid was drawn. -/
def Directory.draw (d : Directory) (text : String) : Directory :=
  { d with drawn := text :: d.drawn }

theorem keeps_uuid4 (h : Inv P run v) :
    keeps (logic P run) t o (uuid4 tools) (fun r u => ∃ text, r = .ok (text, tools) ∧ text ≠ "" ∧
      text ∉ v.world.drawn ∧ u.world = v.world.draw text ∧ Inv P run u ∧
      settled u.hist = settled v.hist) v := by
  intro text b w hf
  dsimp only at hf
  split at hf
  · cases hf
  · rename_i hnew
    cases hf
    obtain ⟨hne, hnew⟩ := not_or.1 hnew
    have hinv : Inv P run (v.log t o (.draw text) (v.world.draw text)) :=
      h.quiet rfl rfl (List.subset_cons_self _ _) (h.torn_of_subset (List.subset_cons_self _ _))
    exact ⟨hinv.point, text, rfl, hne, hnew, rfl, hinv, rfl⟩

/-! ## Cutting off a torn line -/

/-- The directory after `bytes` were written to a file for a torn line. -/
def Directory.kept (d : Directory) (path : String) (bytes : Bytes) : Directory :=
  { d with torn := d.torn.map fun f => if f.1 = path then (f.1, f.2 ++ bytes) else f }

theorem Directory.kept_kept (d : Directory) (path : String) (bytes bytes' : Bytes) :
    (d.kept path bytes).kept path bytes' = d.kept path (bytes ++ bytes') := by
  simp only [Directory.kept, List.map_map]
  congr 2
  funext f
  by_cases hf : f.1 = path
  · simp [hf]
  · simp [hf]

theorem Directory.kept_nil (d : Directory) (path : String) : d.kept path [] = d := by
  simp [Directory.kept]

theorem Inv.kept (h : Inv P run v) (path : String) (bytes : Bytes) :
    ∀ f ∈ (v.world.kept path bytes).torn, ∃ text ∈ v.world.drawn, f.1 = quarantinePath text := by
  intro f hf
  obtain ⟨g, hg, rfl⟩ := List.mem_map.1 hf
  obtain ⟨text, htext, hpath⟩ := h.torn g hg
  refine ⟨text, htext, ?_⟩
  split
  · exact hpath
  · exact hpath

theorem keeps_keepAll (path : String) (bytes : Bytes) (h : Inv P run v) :
    keeps (logic P run) t o (keepAll path bytes tools) (fun r u => r = .ok ((), tools) ∧
      u.world = v.world.kept path bytes ∧ Inv P run u ∧ settled u.hist = settled v.hist) v := by
  induction bytes generalizing v with
  | nil => exact ⟨rfl, (Directory.kept_nil _ _).symm, h, rfl⟩
  | cons b bytes ih =>
      rintro ⟨⟩ _ ⟨⟩
      have hinv : Inv P run (v.log t o (.keep path b) (v.world.kept path [b])) :=
        h.quiet rfl rfl (List.Subset.refl _) (h.kept path [b])
      refine ⟨hinv.point, keeps_mono (ih hinv) ?_⟩
      rintro r u ⟨hr, hw, hu, hs⟩
      change u.world = (v.world.kept path [b]).kept path bytes at hw
      rw [Directory.kept_kept] at hw
      exact ⟨hr, hw, hu, hs⟩

/-- A file that was just created is the only one that is written to. -/
theorem torn_kept {d : Directory} {path : String} (hnew : ∀ f ∈ d.torn, f.1 ≠ path) (bytes : Bytes) :
    ({ d with torn := d.torn ++ [(path, [])] }.kept path bytes).torn = d.torn ++ [(path, bytes)] := by
  have hold : d.torn.map (fun f => if f.1 = path then (f.1, f.2 ++ bytes) else f) = d.torn := by
    refine (List.map_congr_left fun f hf => ?_).trans (List.map_id _)
    rw [if_neg (hnew f hf), id_eq]
  simp [Directory.kept, hold]

/-- The directory with one more file for a torn line. -/
def Directory.created (d : Directory) (path : String) : Directory :=
  { d with torn := d.torn ++ [(path, [])] }

theorem keeps_createExclusive (h : Inv P run v) {text : String} (htext : text ∈ v.world.drawn)
    (hnew : ∀ f ∈ v.world.torn, f.1 ≠ quarantinePath text) :
    keeps (logic P run) t o (createExclusive (quarantinePath text) tools) (fun r u =>
      r = .ok ((), tools) ∧ u.world = v.world.created (quarantinePath text) ∧ Inv P run u) v := by
  have hnone : (v.world.torn.any fun f => f.1 = quarantinePath text) = false := by
    simpa using hnew
  have hcreated : ∀ f ∈ (v.world.created (quarantinePath text)).torn,
      ∃ text ∈ v.world.drawn, f.1 = quarantinePath text := by
    intro f hf
    rcases List.mem_append.1 hf with hf | hf
    · exact h.torn f hf
    · rw [List.mem_singleton.1 hf]
      exact ⟨text, htext, rfl⟩
  intro created w hf
  dsimp only at hf
  rw [hnone] at hf
  cases hf
  have hinv : Inv P run (v.log t o (.quarantine (quarantinePath text))
      (v.world.created (quarantinePath text))) := h.quiet rfl rfl (List.Subset.refl _) hcreated
  exact ⟨hinv.point, rfl, rfl, hinv⟩

theorem keeps_readLog (h : Inv P run v) :
    keeps (logic P run) t o (readLog tools) (fun r u => r = .ok (v.world.log, tools) ∧
      u.world = v.world ∧ Inv P run u ∧ settled u.hist = settled v.hist) v := by
  rintro read w ⟨⟩
  have hinv := h.quiet (t := t) (o := o) (l := .read) (d := v.world) rfl rfl (List.Subset.refl _)
    h.torn
  exact ⟨hinv.point, rfl, rfl, hinv, rfl⟩

theorem keeps_checkUnchanged (h : Inv P run v) {data : Bytes} (hlog : v.world.log = some data) :
    keeps (logic P run) t o (checkUnchanged data tools) (fun r u => r = .ok ((), tools) ∧
      u.world = v.world ∧ Inv P run u) v := by
  refine keeps_andThen (keeps_mono (keeps_readLog h) ?_)
  rintro _ u ⟨rfl, hw, hinv, -⟩
  dsimp only
  rw [if_neg (not_not.2 hlog)]
  exact ⟨rfl, hw, hinv⟩

/-- The directory whose log was cut after its last complete line. -/
def Directory.cut (d : Directory) : Directory := { d with log := d.log.map (complete newline) }

theorem Directory.lines_cut (d : Directory) : d.cut.lines = d.lines := by
  unfold Directory.lines Directory.bytes Directory.cut
  cases d.log with
  | none => rfl
  | some data => exact entries_complete data

theorem keeps_truncateLog (h : Inv P run v) {data : Bytes} (hlog : v.world.log = some data) :
    keeps (logic P run) t o (truncateLog (complete newline data).length tools) (fun r u =>
      r = .ok ((), tools) ∧ u.world = v.world.cut ∧ Inv P run u) v := by
  have hcut : v.world.log.map (fun bytes => bytes.take (complete newline data).length) =
      v.world.log.map (complete newline) := by
    rw [hlog, Option.map_some, Option.map_some, take_complete]
  rintro ⟨⟩ w ⟨⟩
  rw [hcut]
  have hinv := h.quiet (t := t) (o := o) (l := .truncate (complete newline data).length)
    (d := v.world.cut) rfl v.world.lines_cut (List.Subset.refl _) h.torn
  exact ⟨hinv.point, rfl, rfl, hinv⟩

/-- **A torn line is kept in a file of its own before the log is cut.** -/
theorem keeps_recoverTail (h : Inv P run v) {data : Bytes} (hlog : v.world.log = some data) :
    keeps (logic P run) t o (recoverTail data tools) (fun r u => ∃ path,
      r = .ok ((), { tools with recoveredTailPath := some path }) ∧
      u.world.log = some (complete newline data) ∧
      u.world.torn = v.world.torn ++ [(path, tail newline data)] ∧ Inv P run u) v := by
  refine keeps_andThen (keeps_mono (keeps_uuid4 h) ?_)
  rintro _ u₁ ⟨text, rfl, -, hfresh, hw₁, hinv₁, -⟩
  have hnew : ∀ f ∈ u₁.world.torn, f.1 ≠ quarantinePath text := by
    intro f hf hpath
    rw [hw₁] at hf
    obtain ⟨text', htext', hpath'⟩ := h.torn f hf
    rw [hpath] at hpath'
    exact hfresh (quarantinePath_injective hpath' ▸ htext')
  have htext : text ∈ u₁.world.drawn := by
    rw [hw₁]
    exact List.mem_cons_self
  refine keeps_andThen (keeps_mono (keeps_createExclusive hinv₁ htext hnew) ?_)
  rintro _ u₂ ⟨rfl, hw₂, hinv₂⟩
  refine keeps_andThen (keeps_mono (keeps_keepAll _ _ hinv₂) ?_)
  rintro _ u₃ ⟨rfl, hw₃, hinv₃, -⟩
  have hlog₃ : u₃.world.log = some data := by
    rw [hw₃, hw₂, hw₁]
    exact hlog
  have htorn₃ : u₃.world.torn = v.world.torn ++ [(quarantinePath text, tail newline data)] := by
    rw [hw₃, hw₂]
    refine (torn_kept hnew _).trans ?_
    rw [hw₁]
    rfl
  refine keeps_andThen (keeps_mono (keeps_checkUnchanged hinv₃ hlog₃) ?_)
  rintro _ u₄ ⟨rfl, hw₄, hinv₄⟩
  rw [← hw₄] at hlog₃ htorn₃
  refine keeps_andThen (keeps_mono (keeps_truncateLog hinv₄ hlog₃) ?_)
  rintro _ u₅ ⟨rfl, hw₅, hinv₅⟩
  refine ⟨quarantinePath text, rfl, ?_, ?_, hinv₅⟩
  · rw [hw₅, Directory.cut, hlog₃, Option.map_some]
  · rw [hw₅]
    exact htorn₃

/-- What a constructor leaves of a directory: the log without its torn line, which is in a
file of its own if there was one. -/
structure Reopened (P : Platform) (d d' : Directory) (tools : ObservationTools) : Prop where
  holds : Holds tools (recordsOf P d.lines)
  log : d'.log = d.log.map (complete newline)
  torn : tail newline d.bytes ≠ [] → ∃ path, tools.recoveredTailPath = some path ∧
    (path, tail newline d.bytes) ∈ d'.torn
  kept : ∀ f ∈ d.torn, f ∈ d'.torn
  /-- A log without a torn line stays as it is, and so does everything else. -/
  unchanged : tail newline d.bytes = [] → d' = d ∧ tools.recoveredTailPath = none

theorem Reopened.of_complete {d : Directory} (h : Holds tools (recordsOf P d.lines))
    (ht : tail newline d.bytes = []) (hp : tools.recoveredTailPath = none) :
    Reopened P d d tools := by
  refine ⟨h, ?_, fun hne => absurd ht hne, fun f hf => hf, fun _ => ⟨rfl, hp⟩⟩
  unfold Directory.bytes at ht
  cases hl : d.log with
  | none => rfl
  | some data =>
      rw [hl, Option.getD_some] at ht
      rw [Option.map_some, complete_of_tail ht]

/-- Replayed tools have found no torn line. -/
theorem recoveredTailPath_replayLines {lines : List Bytes} {tools : ObservationTools}
    (h : replayLines P run lines = .ok tools) : tools.recoveredTailPath = none := by
  induction lines using List.reverseRecOn generalizing tools with
  | nil =>
      cases h
      rfl
  | append_singleton lines line ih =>
      rw [replayLines_concat] at h
      obtain ⟨before, hbefore, hline⟩ := bind_eq_ok.1 h
      obtain ⟨_, _, _, _, htools⟩ :=
        (replayLine_eq_ok (inSequence_of_replayLines hbefore).2).1 hline
      have hpath := ih hbefore
      rw [htools]
      exact hpath

theorem keeps_replay (h : Inv P run v) {data : Bytes} (hlog : v.world.log = some data) :
    keeps (logic P run) t o (replay P run data tools) (fun r u => ∃ tools',
      r = .ok ((), tools') ∧ Reopened P v.world u.world tools' ∧ Inv P run u) v := by
  have hbytes : v.world.bytes = data := by rw [Directory.bytes, hlog, Option.getD_some]
  have hlines : v.world.lines = entries newline data := by rw [Directory.lines, hbytes]
  obtain ⟨tools', htools⟩ := replayLines_of_inSequence h.lines
  have hholds := (inSequence_of_replayLines htools).2
  have hpath := recoveredTailPath_replayLines htools
  rw [hlines, replayLines] at htools
  unfold replay
  rw [htools]
  change keeps _ _ _ ((if tail newline data = [] then pure () else recoverTail data :
    Program Unit) tools') _ _
  by_cases htail : tail newline data = []
  · rw [if_pos htail]
    rw [← hbytes] at htail
    exact ⟨tools', rfl, .of_complete hholds htail hpath, h⟩
  · rw [if_neg htail]
    refine keeps_mono (keeps_recoverTail h hlog) ?_
    rintro _ u ⟨path, rfl, hlog', htorn', hinv⟩
    refine ⟨_, rfl, ⟨⟨hholds.issuedIds, hholds.callCount, hholds.terminal⟩, ?_, fun _ => ?_, ?_,
      fun hnil => ?_⟩, hinv⟩
    · rw [hlog', hlog, Option.map_some]
    · rw [hbytes, htorn']
      exact ⟨path, rfl, List.mem_append_right _ (List.mem_singleton_self _)⟩
    · rw [htorn']
      exact fun f hf => List.mem_append_left _ hf
    · rw [hbytes] at hnil
      exact absurd hnil htail

/-- **A constructor restores what the complete lines say**, and leaves a log of nothing
else. -/
theorem keeps_create (h : Inv P run v) (hrun : o.runId = run) (ho : o.check = .ok ()) :
    keeps (logic P run) t o (create P o tools) (fun r u => ∃ tools',
      r = .ok ((), tools') ∧ Reopened P v.world u.world tools' ∧ Inv P run u) v := by
  subst hrun
  unfold create
  rw [ho]
  refine keeps_ofExcept (keeps_set ?_)
  refine keeps_andThen (keeps_mono (keeps_readLog h) ?_)
  rintro _ u ⟨rfl, hw, hinv, -⟩
  rw [← hw]
  cases hlog : u.world.log with
  | none =>
      have hbytes : u.world.bytes = [] := by rw [Directory.bytes, hlog, Option.getD_none]
      have hholds : Holds .initial (recordsOf P u.world.lines) := by
        rw [Directory.lines, hbytes]
        exact holds_initial
      have htail : tail newline u.world.bytes = [] := by
        rw [hbytes]
        rfl
      exact ⟨_, rfl, .of_complete hholds htail rfl, hinv⟩
  | some data => exact keeps_replay hinv hlog

end AutonomyLab.Toolbox
