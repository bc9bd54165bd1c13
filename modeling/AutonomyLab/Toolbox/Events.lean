import Mathlib.Data.List.Sort
import Mathlib.Data.Nat.Digits.Defs
import Mathlib.Data.Prod.Lex
import AutonomyLab.Json.Doc
import AutonomyLab.Toolbox.Guarantees

/-!
# Summaries of the events of the cluster

`observe_events` returns the latest events of the namespace, cut to a size that is recorded
whole.

* `eventText` — `_event_text`; `cut_longest` — it keeps as much of a text as there is room for.
* `timestamp`, `order`, `summarise`, `events` — `_events`.
* `summarise_perm` — the summaries do not depend on the order of the list.
* `summarise_spec` — what they are of, and what is in them.
* `events_recorded` — the record of a summary is never one of an error.
-/

namespace AutonomyLab.Toolbox

open Json

/-- What the platform computes of strings of any kind. -/
structure EventPlatform extends toTools : Platform where
  /-- `datetime.fromisoformat(text)`, in microseconds since 1970, unless it raises `ValueError`. -/
  parseInstant : List ℕ → Option Datetime
  /-- `str(value)`, of a value that is not a string. -/
  strOther : Doc → Str

/-! ## Texts -/

/-- The code points for which there is room after `size` characters. -/
def cut (limit : ℕ) : ℕ → List ℕ → List ℕ
  | _, [] => []
  | size, p :: ps =>
      if size + (escapedPoint p).length > limit then []
      else p :: cut limit (size + (escapedPoint p).length) ps

theorem cut_initial (limit size : ℕ) (ps : List ℕ) : cut limit size ps <+: ps := by
  induction ps generalizing size with
  | nil => exact List.prefix_rfl
  | cons p ps ih =>
      unfold cut
      split
      · exact List.nil_prefix
      · exact List.cons_prefix_cons.2 ⟨rfl, ih _⟩

theorem cut_take_initial (limit : ℕ) (ps : List ℕ) : cut limit 0 (ps.take limit) <+: ps := by
  have htake : ps.take limit <+: ps := ⟨_, List.take_append_drop limit ps⟩
  exact (cut_initial limit 0 _).trans htake

theorem length_cut_le {limit size : ℕ} (hsize : size ≤ limit) (ps : List ℕ) :
    size + ((cut limit size ps).flatMap escapedPoint).length ≤ limit := by
  induction ps generalizing size with
  | nil => exact hsize
  | cons p ps ih =>
      unfold cut
      split
      · exact hsize
      · next hroom =>
          have hrest := @ih (size + (escapedPoint p).length) (by omega)
          rw [List.flatMap_cons, List.length_append]
          omega

/-- **No longer beginning of the text has room.** -/
theorem cut_longest {limit size : ℕ} {ps qs : List ℕ} (hqs : qs <+: ps)
    (hroom : size + (qs.flatMap escapedPoint).length ≤ limit) :
    qs.length ≤ (cut limit size ps).length := by
  induction ps generalizing size qs with
  | nil =>
      rw [List.prefix_nil.1 hqs]
      exact Nat.zero_le _
  | cons p ps ih =>
      cases qs with
      | nil => exact Nat.zero_le _
      | cons q qs =>
          obtain ⟨rfl, htail⟩ := List.cons_prefix_cons.1 hqs
          rw [List.flatMap_cons, List.length_append] at hroom
          have hfirst : ¬size + (escapedPoint q).length > limit := by omega
          have hrest := @ih (size + (escapedPoint q).length) qs htail (by omega)
          rw [cut, if_neg hfirst, List.length_cons, List.length_cons]
          omega

section
variable (P : EventPlatform)

/-- `str(value)`. -/
def EventPlatform.str : Doc → Str
  | .str s => s
  | v => P.strOther v

/-- `_event_text(value, limit)`. -/
def eventText (value : Doc) (limit : ℕ) : Str :=
  (P.str value).initial (cut_take_initial limit (P.str value).points)

/-! ## Events -/

/-- `event.get(part, {}).get(name, default)`. -/
def getIn (part name : String) (default : Doc) (event : Doc) : Except PyError Doc := do
  Doc.getD name default (← Doc.getD part (.obj []) event)

def timestamp (event : Doc) : Except PyError Str := do
  let eventTime ← Doc.get "eventTime" event
  if eventTime.truthy then
    return P.str eventTime
  else
    let lastTimestamp ← Doc.get "lastTimestamp" event
    if lastTimestamp.truthy then
      return P.str lastTimestamp
    else
      let creationTimestamp ← getIn "metadata" "creationTimestamp" .null event
      return if creationTimestamp.truthy then P.str creationTimestamp else .empty

/-- `datetime.min.replace(tzinfo=UTC)`. -/
def datetimeMin : ℤ := -62135596800000000

/-- `text.replace("Z", "+00:00")`. -/
def replaceZPoints (text : List ℕ) : List ℕ :=
  text.flatMap fun p => if p = 'Z'.toNat then "+00:00".toList.map Char.toNat else [p]

/-- The instant that a timestamp stands for. -/
def instant (text : Str) : ℤ :=
  match P.parseInstant (replaceZPoints text.points) with
  | some (.aware μs) => μs
  | _ => datetimeMin

/-- What events are sorted by: an instant, and a canonical text. -/
abbrev EventKey : Type := ℤ ×ₗ List Char

def order (event : Doc) : Except PyError EventKey := do
  let text ← timestamp P event
  return toLex (instant P text, Doc.dumps P.reprFloat event)

/-- The entry for an event. -/
structure EventEntry where
  type : Str
  reason : Str
  message : Str
  kind : Str
  name : Str
  timestamp : Str
  deriving Inhabited

def EventEntry.doc (e : EventEntry) : Doc :=
  .obj [(.ofString "type", .str e.type), (.ofString "reason", .str e.reason),
    (.ofString "message", .str e.message),
    (.ofString "object", .obj [(.ofString "kind", .str e.kind), (.ofString "name", .str e.name)]),
    (.ofString "timestamp", .str e.timestamp)]

def eventSummary (event : Doc) : Except PyError EventEntry := do
  let type ← Doc.getD "type" (.str .empty) event
  let reason ← Doc.getD "reason" (.str .empty) event
  let message ← Doc.getD "message" (.str .empty) event
  let kind ← getIn "involvedObject" "kind" (.str .empty) event
  let name ← getIn "involvedObject" "name" (.str .empty) event
  let time ← timestamp P event
  return {
    type := eventText P type 40
    reason := eventText P reason 80
    message := eventText P message 300
    kind := eventText P kind 80
    name := eventText P name 80
    timestamp := eventText P (.str time) 40 }

/-- An event with its key. -/
def keyedEvent (event : Doc) : Except PyError (EventKey × Doc) := do
  return (← order P event, event)

/-- `sorted(events, key=order)[-8:]`, with the keys at hand. -/
def recentEvents (events : List (EventKey × Doc)) : List (EventKey × Doc) :=
  (events.insertionSort fun a b => a.1 ≤ b.1).drop (events.length - 8)

/-- The payload for summaries of the latest of `n` events. -/
def eventPayload (summaries : List EventEntry) (n : ℕ) : Doc :=
  .obj [(.ofString "events", .arr (summaries.map EventEntry.doc)), (.ofString "total", .int n),
    (.ofString "omitted", .int (max 0 ((n : ℤ) - 8)))]

/-- The summary of a list of events. -/
def summarise (events : List Doc) : Except PyError Doc := do
  let keyed ← events.mapM (keyedEvent P)
  let summaries ← (recentEvents keyed).mapM fun event => eventSummary P event.2
  return eventPayload summaries events.length

/-- The list of events in an answer of the cluster. -/
def eventItems : Doc → Except PyError (List Doc)
  | .obj fs => match fs.lookup (.ofString "items") with
      | some (.arr events) =>
          if events.all fun event => event matches .obj _ then .ok events
          else .error (.valueError "Invalid event list")
      | some _ => .error (.valueError "Invalid event list")
      | none => .error .keyError
  | _ => .error .typeError

/-- `_events`, for an answer of the cluster that was decoded, or for the type of the exception that
there was instead. -/
def events (answer : Except String Doc) : Doc :=
  match answer.bind fun v => ((eventItems v).bind (summarise P)).mapError PyError.name with
  | .ok payload => payload
  | .error name => .obj [(.ofString "events", .arr []), (.ofString "error", .obj
      [(.ofString "kind", .str (.ofString "error")),
        (.ofString "error", .str (.ofString "events_unavailable")),
        (.ofString "error_type", .str (.ofString name))])]

/-! ## Records -/

/-- A record, of any payload. -/
def envelopeDoc (id run timestamp source : String) (payload : Doc) : Doc :=
  .obj [(.ofString "observation_id", .str (.ofString id)), (.ofString "run_id", .str (.ofString run)),
    (.ofString "timestamp", .str (.ofString timestamp)),
    (.ofString "source", .str (.ofString source)), (.ofString "payload", payload)]

/-- `serialized`. -/
def serializedDoc (record : Doc) : List Char := Doc.dumps P.reprFloat record

def tooLargeDoc (record : Doc) : Doc := .obj
  [(.ofString "kind", .str (.ofString "error")),
    (.ofString "error", .str (.ofString "result_too_large")),
    (.ofString "original_bytes", .int (encode (serializedDoc P record)).length),
    (.ofString "content_sha256", .str (.ofString (P.sha256 (.ofList (serializedDoc P record))))),
    (.ofString "message", .str (.ofString
      "Observation exceeded the declared output limit; its contents are unavailable."))]

/-- The record that `_record` writes. -/
def recordDoc (o : Options) (id timestamp source : String) (payload : Doc) : Doc :=
  let record := envelopeDoc id o.runId timestamp source payload
  if (encode (serializedDoc P record)).length > o.maxResultBytes then
    envelopeDoc id o.runId timestamp source (tooLargeDoc P record)
  else record

end

/-! ## Lists in the order of a key -/

section
variable {α β κ : Type} [LinearOrder κ] {key : α → κ}

theorem pairwise_key (key : α → κ) (xs : List α) :
    (xs.insertionSort fun a b => key a ≤ key b).Pairwise fun a b => key a ≤ key b := by
  have htotal : Std.Total fun a b : α => key a ≤ key b := ⟨fun a b => le_total (key a) (key b)⟩
  have htrans : IsTrans α fun a b => key a ≤ key b := ⟨fun _ _ _ => le_trans⟩
  exact List.pairwise_insertionSort _ xs

/-- **What depends on the key only** is the same for both orders of the same entries. -/
theorem map_eq_of_pairwise {f : α → β} {xs ys : List α}
    (hxs : xs.Pairwise fun a b => key a ≤ key b) (hys : ys.Pairwise fun a b => key a ≤ key b)
    (hperm : xs.Perm ys) (hf : ∀ a ∈ xs, ∀ b ∈ xs, key a = key b → f a = f b) :
    xs.map f = ys.map f := by
  have hkeys : xs.map key = ys.map key :=
    List.Perm.eq_of_pairwise' (List.pairwise_map.2 hxs) (List.pairwise_map.2 hys) (hperm.map key)
  have hlength : (xs.map f).length = (ys.map f).length := by
    rw [List.length_map, List.length_map, hperm.length_eq]
  refine List.ext_getElem hlength fun i hi hi' => ?_
  rw [List.length_map] at hi hi'
  rw [List.getElem_map, List.getElem_map]
  refine hf _ (List.getElem_mem hi) _ (hperm.symm.subset (List.getElem_mem hi')) ?_
  have hkey : (xs.map key)[i]? = (ys.map key)[i]? := by rw [hkeys]
  rw [List.getElem?_map, List.getElem?_map, List.getElem?_eq_getElem hi,
    List.getElem?_eq_getElem hi'] at hkey
  exact Option.some.inj hkey

end

/-! ## Events whose texts are strings -/

section
variable {P : EventPlatform} {fs gs : List (Str × Doc)} {names : List String}

/-- The members with certain names have no parts: they are strings, or what stands for none. -/
def Texts (names : List String) (fs : List (Str × Doc)) : Prop :=
  (fs.map Prod.fst).Nodup ∧ ∀ name ∈ names, ∀ v, fs.lookup (.ofString name) = some v → v.Scalar

/-- A member is a dictionary with such members, where there is one. -/
def HasPart (part : String) (names : List String) (fs : List (Str × Doc)) : Prop :=
  ∀ v, fs.lookup (.ofString part) = some v → ∃ gs, v = .obj gs ∧ Texts names gs

/-- An event of the cluster. -/
def IsEvent (v : Doc) : Prop := ∃ fs, v = .obj fs ∧
  Texts ["type", "reason", "message", "eventTime", "lastTimestamp"] fs ∧
  HasPart "metadata" ["creationTimestamp"] fs ∧ HasPart "involvedObject" ["kind", "name"] fs

theorem lookup_texts (hf : Texts names fs) (hg : Texts names gs)
    (h : Doc.sorted (.obj fs) = Doc.sorted (.obj gs)) {name : String} (hname : name ∈ names) :
    fs.lookup (.ofString name) = gs.lookup (.ofString name) := by
  have hsame := Doc.lookup_of_sorted_eq hf.1 hg.1 h (.ofString name)
  cases hv : fs.lookup (.ofString name) with
  | none =>
      rw [hv] at hsame
      exact (Option.map_eq_none_iff.1 hsame.symm).symm
  | some v =>
      rw [hv, Option.map_some] at hsame
      obtain ⟨w, hw, hvw⟩ := Option.map_eq_some_iff.1 hsame.symm
      rw [hw, Doc.eq_of_sorted_eq (hf.2 name hname v hv) (hg.2 name hname w hw) hvw.symm]

theorem getD_texts (hf : Texts names fs) (hg : Texts names gs)
    (h : Doc.sorted (.obj fs) = Doc.sorted (.obj gs)) {name : String} (hname : name ∈ names)
    (default : Doc) : Doc.getD name default (.obj fs) = Doc.getD name default (.obj gs) := by
  rw [Doc.getD, Doc.getD, lookup_texts hf hg h hname]

theorem getIn_part (hf : (fs.map Prod.fst).Nodup) (hg : (gs.map Prod.fst).Nodup) {part : String}
    (hfp : HasPart part names fs) (hgp : HasPart part names gs)
    (h : Doc.sorted (.obj fs) = Doc.sorted (.obj gs)) {name : String} (hname : name ∈ names)
    (default : Doc) : getIn part name default (.obj fs) = getIn part name default (.obj gs) := by
  have hsame := Doc.lookup_of_sorted_eq hf hg h (.ofString part)
  cases hv : fs.lookup (.ofString part) with
  | none =>
      rw [hv] at hsame
      have hw : gs.lookup (.ofString part) = none := Option.map_eq_none_iff.1 hsame.symm
      rw [getIn, getIn, Doc.getD, Doc.getD, hv, hw]
  | some v =>
      rw [hv, Option.map_some] at hsame
      obtain ⟨w, hw, hvw⟩ := Option.map_eq_some_iff.1 hsame.symm
      obtain ⟨fs', rfl, hfs⟩ := hfp v hv
      obtain ⟨gs', rfl, hgs⟩ := hgp w hw
      rw [getIn, getIn, Doc.getD, Doc.getD, hv, hw]
      exact getD_texts hfs hgs hvw.symm hname default

/-- **Events with one canonical text** have the same timestamp and the same entry. -/
theorem eventSummary_of_sorted {v w : Doc} (hv : IsEvent v) (hw : IsEvent w)
    (h : Doc.sorted v = Doc.sorted w) : eventSummary P v = eventSummary P w := by
  obtain ⟨fs, rfl, htexts, hmeta, hobject⟩ := hv
  obtain ⟨gs, rfl, htexts', hmeta', hobject'⟩ := hw
  have htime : timestamp P (.obj fs) = timestamp P (.obj gs) := by
    rw [timestamp, timestamp, Doc.get, Doc.get, Doc.get, Doc.get,
      getD_texts htexts htexts' h (by simp), getD_texts htexts htexts' h (by simp),
      getIn_part htexts.1 htexts'.1 hmeta hmeta' h (by simp)]
  rw [eventSummary, eventSummary, htime, getD_texts htexts htexts' h (by simp),
    getD_texts htexts htexts' h (by simp), getD_texts htexts htexts' h (by simp),
    getIn_part htexts.1 htexts'.1 hobject hobject' h (by simp),
    getIn_part htexts.1 htexts'.1 hobject hobject' h (by simp)]

theorem exists_getD (name : String) (default : Doc) (fs : List (Str × Doc)) :
    ∃ v, Doc.getD name default (.obj fs) = .ok v := ⟨_, rfl⟩

theorem exists_getIn {part : String} (h : HasPart part names fs) (name : String) (default : Doc) :
    ∃ v, getIn part name default (.obj fs) = .ok v := by
  cases hv : fs.lookup (.ofString part) with
  | none =>
      rw [getIn, Doc.getD, hv]
      exact exists_getD name default []
  | some v =>
      obtain ⟨gs, rfl, -⟩ := h v hv
      rw [getIn, Doc.getD, hv]
      exact exists_getD name default gs

theorem exists_timestamp {v : Doc} (h : IsEvent v) : ∃ text, timestamp P v = .ok text := by
  obtain ⟨fs, rfl, -, hmeta, -⟩ := h
  obtain ⟨eventTime, heventTime⟩ := exists_getD "eventTime" .null fs
  obtain ⟨lastTimestamp, hlast⟩ := exists_getD "lastTimestamp" .null fs
  obtain ⟨creation, hcreation⟩ := exists_getIn hmeta "creationTimestamp" .null
  rw [timestamp, Doc.get, Doc.get, heventTime, hlast, hcreation]
  cases htruthy : eventTime.truthy with
  | true => exact ⟨_, if_pos htruthy⟩
  | false =>
      cases htruthy' : lastTimestamp.truthy with
      | true => exact ⟨_, (if_neg (by simp [htruthy])).trans (if_pos htruthy')⟩
      | false => exact ⟨_, (if_neg (by simp [htruthy])).trans (if_neg (by simp [htruthy']))⟩

/-- The longest beginning of the first `limit` characters of `s` that takes no more than `limit`
characters as it is written. -/
def Longest (limit : ℕ) (s t : Str) : Prop :=
  t.points <+: s.points.take limit ∧ t.escaped.length ≤ limit ∧
    ∀ ps, ps <+: s.points.take limit → (ps.flatMap escapedPoint).length ≤ limit →
      ps.length ≤ t.points.length

theorem longest_eventText (value : Doc) (limit : ℕ) :
    Longest limit (P.str value) (eventText P value limit) := by
  refine ⟨cut_initial limit 0 _, ?_, fun ps hps hroom => cut_longest hps ?_⟩
  · have hlength := length_cut_le (Nat.zero_le limit) ((P.str value).points.take limit)
    rwa [Nat.zero_add] at hlength
  · rwa [Nat.zero_add]

/-- `t` is what there is room for of a field of an event. -/
def CutOf (P : EventPlatform) (field : Except PyError Doc) (limit : ℕ) (t : Str) : Prop :=
  ∃ v, field = .ok v ∧ Longest limit (P.str v) t

/-- The texts of an entry are those of an event. -/
structure EventEntry.Of (P : EventPlatform) (v : Doc) (e : EventEntry) : Prop where
  type : CutOf P (Doc.getD "type" (.str .empty) v) 40 e.type
  reason : CutOf P (Doc.getD "reason" (.str .empty) v) 80 e.reason
  message : CutOf P (Doc.getD "message" (.str .empty) v) 300 e.message
  kind : CutOf P (getIn "involvedObject" "kind" (.str .empty) v) 80 e.kind
  name : CutOf P (getIn "involvedObject" "name" (.str .empty) v) 80 e.name
  timestamp : CutOf P ((Toolbox.timestamp P v).map .str) 40 e.timestamp

theorem exists_eventSummary {v : Doc} (h : IsEvent v) :
    ∃ e, eventSummary P v = .ok e ∧ e.Of P v := by
  obtain ⟨time, htime⟩ := exists_timestamp (P := P) h
  obtain ⟨fs, rfl, -, -, hobject⟩ := h
  obtain ⟨type, htype⟩ := exists_getD "type" (.str .empty) fs
  obtain ⟨reason, hreason⟩ := exists_getD "reason" (.str .empty) fs
  obtain ⟨message, hmessage⟩ := exists_getD "message" (.str .empty) fs
  obtain ⟨kind, hkind⟩ := exists_getIn hobject "kind" (.str .empty)
  obtain ⟨name, hname⟩ := exists_getIn hobject "name" (.str .empty)
  rw [eventSummary, htype, hreason, hmessage, hkind, hname, htime]
  refine ⟨_, rfl, ?_⟩
  exact {
    type := ⟨type, htype, longest_eventText type 40⟩
    reason := ⟨reason, hreason, longest_eventText reason 80⟩
    message := ⟨message, hmessage, longest_eventText message 300⟩
    kind := ⟨kind, hkind, longest_eventText kind 80⟩
    name := ⟨name, hname, longest_eventText name 80⟩
    timestamp := ⟨.str time, by rw [htime]; rfl, longest_eventText (.str time) 40⟩ }

/-! ## Lists of events -/

/-- A list of events, of a length that a list may have. -/
structure EventList (events : List Doc) : Prop where
  length_lt : events.length < 2 ^ 63
  isEvent : ∀ v ∈ events, IsEvent v

/-- `a` comes before `b`, or at the same place. -/
def Before (P : EventPlatform) (a b : Doc) : Prop :=
  ∃ k l, order P a = .ok k ∧ order P b = .ok l ∧ k ≤ l

theorem exists_order {v : Doc} (h : IsEvent v) : ∃ k, order P v = .ok k := by
  obtain ⟨text, htext⟩ := exists_timestamp (P := P) h
  exact ⟨_, by rw [order, htext]; rfl⟩

theorem dumps_of_order {v : Doc} {k : EventKey} (h : order P v = .ok k) :
    (ofLex k).2 = Doc.dumps P.reprFloat v := by
  unfold order at h
  obtain ⟨text, -, h⟩ := bind_eq_ok.1 h
  cases h
  rfl

/-- The latest eight. -/
def latest (key : Doc → EventKey) (events : List Doc) : List Doc :=
  (events.insertionSort fun a b => key a ≤ key b).drop (events.length - 8)

theorem summarise_eq {key : Doc → EventKey} {entry : Doc → EventEntry} {events : List Doc}
    (hkey : ∀ v ∈ events, order P v = .ok (key v))
    (hentry : ∀ v ∈ events, eventSummary P v = .ok (entry v)) :
    summarise P events = .ok (eventPayload ((latest key events).map entry) events.length) := by
  have hkeyed : events.mapM (keyedEvent P) = .ok (events.map fun v => (key v, v)) := by
    refine mapM_eq_ok.2 ?_
    rw [List.map_map]
    refine List.map_congr_left fun v hv => ?_
    rw [keyedEvent, hkey v hv]
    rfl
  have hrecent : recentEvents (events.map fun v => (key v, v)) =
      (latest key events).map fun v => (key v, v) := by
    rw [recentEvents, latest, List.length_map, List.map_drop,
      ← List.map_insertionSort (fun v => (key v, v)) events (r := fun a b => key a ≤ key b)
        (s := fun a b => a.1 ≤ b.1) fun _ _ _ _ => Iff.rfl]
  have hsummaries : ((latest key events).map fun v => (key v, v)).mapM
      (fun event => eventSummary P event.2) = .ok ((latest key events).map entry) := by
    refine mapM_eq_ok.2 ?_
    rw [List.map_map, List.map_map]
    refine List.map_congr_left fun v hv => hentry v ?_
    exact (List.mem_insertionSort _).1 (List.mem_of_mem_drop hv)
  refine bind_eq_ok.2 ⟨_, hkeyed, bind_eq_ok.2 ⟨_, ?_, rfl⟩⟩
  rw [hrecent]
  exact hsummaries

/-- **The summary of a list does not depend on its order.** -/
theorem summarise_perm (hP : P.Documented) {events events' : List Doc}
    (h : ∀ v ∈ events, IsEvent v) (hperm : events.Perm events') :
    summarise P events = summarise P events' := by
  choose! key hkey using fun v (hv : v ∈ events) => exists_order (P := P) (h v hv)
  choose! entry hentry _ using fun v (hv : v ∈ events) => exists_eventSummary (P := P) (h v hv)
  have hsorted := List.perm_insertionSort (fun a b => key a ≤ key b) events
  have hsorted' := List.perm_insertionSort (fun a b => key a ≤ key b) events'
  have hentries : ∀ a ∈ events.insertionSort fun a b => key a ≤ key b,
      ∀ b ∈ events.insertionSort fun a b => key a ≤ key b, key a = key b → entry a = entry b := by
    intro a ha b hb hab
    have ha' := hsorted.subset ha
    have hb' := hsorted.subset hb
    have htexts : Doc.dumps P.reprFloat a = Doc.dumps P.reprFloat b := by
      rw [← dumps_of_order (hkey a ha'), ← dumps_of_order (hkey b hb'), hab]
    have hsame := eventSummary_of_sorted (P := P) (h a ha') (h b hb')
      (Doc.sorted_of_dumps_eq hP.float htexts)
    rw [hentry a ha', hentry b hb'] at hsame
    exact Except.ok.inj hsame
  have hmap := map_eq_of_pairwise (pairwise_key key events) (pairwise_key key events')
    (hsorted.trans (hperm.trans hsorted'.symm)) hentries
  rw [summarise_eq hkey hentry, summarise_eq (fun v hv => hkey v (hperm.symm.subset hv))
    (fun v hv => hentry v (hperm.symm.subset hv)), latest, latest, List.map_drop, List.map_drop,
    hmap, hperm.length_eq]

/-- **What the entries are of**: the latest eight events, in their order. -/
theorem summarise_spec {events : List Doc} (h : ∀ v ∈ events, IsEvent v) :
    ∃ older recent entries, (older ++ recent).Perm events ∧ recent.length = min 8 events.length ∧
      (older ++ recent).Pairwise (Before P) ∧ List.Forall₂ (EventEntry.Of P) recent entries ∧
      summarise P events = .ok (eventPayload entries events.length) := by
  choose! key hkey using fun v (hv : v ∈ events) => exists_order (P := P) (h v hv)
  choose! entry hentry hof using fun v (hv : v ∈ events) => exists_eventSummary (P := P) (h v hv)
  have hsorted := List.perm_insertionSort (fun a b => key a ≤ key b) events
  refine ⟨(events.insertionSort fun a b => key a ≤ key b).take (events.length - 8),
    latest key events, (latest key events).map entry, ?_, ?_, ?_, ?_, summarise_eq hkey hentry⟩
  · rw [latest, List.take_append_drop]
    exact hsorted
  · rw [latest, List.length_drop, hsorted.length_eq]
    omega
  · rw [latest, List.take_append_drop]
    refine (pairwise_key key events).imp_of_mem fun {a b} ha hb hab => ?_
    exact ⟨key a, key b, hkey a (hsorted.subset ha), hkey b (hsorted.subset hb), hab⟩
  · rw [List.forall₂_map_right_iff, List.forall₂_same]
    exact fun v hv => hof v (hsorted.subset (List.mem_of_mem_drop hv))

/-! ## How long a record is -/

theorem length_escaped_ofString (s : String) : (Str.ofString s).escaped.length = textLength s := by
  have hpoint : escapedPoint ∘ Char.toNat = escaped := funext fun c => (escaped_eq c).symm
  rw [Str.escaped, Str.ofString, List.flatMap_map, textLength]
  exact congrArg (fun f => (s.toList.flatMap f).length) hpoint

theorem size_natCast_le {n : ℕ} (h : n < 2 ^ 63) : Doc.size P.reprFloat (.int n) ≤ 19 := by
  have hdigits : (toString (n : ℤ)).toList = Nat.toDigits 10 n := by
    change (Nat.repr n).toList = _
    rw [Nat.repr, String.toList_ofList]
  rw [Doc.size_int, hdigits]
  exact Nat.toDigits_length 10 n 19 (by decide) (by omega)

theorem CutOf.length_le {field : Except PyError Doc} {limit : ℕ} {t : Str}
    (h : CutOf P field limit t) : t.escaped.length ≤ limit := by
  obtain ⟨v, -, -, hlength, -⟩ := h
  exact hlength

/-- An entry is never longer than its limits and its names. -/
theorem size_entry_le {v : Doc} {e : EventEntry} (h : e.Of P v) :
    Doc.size P.reprFloat e.doc ≤ 714 := by
  have htype := h.type.length_le
  have hreason := h.reason.length_le
  have hmessage := h.message.length_le
  have hkind := h.kind.length_le
  have hname := h.name.length_le
  have htime := h.timestamp.length_le
  have hnames : textLength "type" = 4 ∧ textLength "reason" = 6 ∧ textLength "message" = 7 ∧
      textLength "object" = 6 ∧ textLength "timestamp" = 9 ∧ textLength "kind" = 4 ∧
      textLength "name" = 4 := by decide +kernel
  obtain ⟨htypeName, hreasonName, hmessageName, hobjectName, htimeName, hkindName, hnameName⟩ := hnames
  rw [EventEntry.doc, Doc.size_obj (List.cons_ne_nil _ _)]
  simp only [List.map_cons, List.map_nil, List.sum_cons, List.sum_nil, Doc.size_str,
    length_escaped_ofString, Doc.size_obj (List.cons_ne_nil _ _), htypeName, hreasonName,
    hmessageName, hobjectName, htimeName, hkindName, hnameName]
  omega

theorem sum_entries_le {recent : List Doc} {entries : List EventEntry}
    (h : List.Forall₂ (EventEntry.Of P) recent entries) :
    (entries.map fun e => Doc.size P.reprFloat e.doc + 2).sum ≤ 716 * recent.length := by
  induction h with
  | nil => exact Nat.zero_le _
  | cons hentry _ ih =>
      have hfirst := size_entry_le hentry
      rw [List.map_cons, List.sum_cons, List.length_cons]
      omega

theorem size_entries_le {recent : List Doc} {entries : List EventEntry}
    (h : List.Forall₂ (EventEntry.Of P) recent entries) (hlength : recent.length ≤ 8) :
    Doc.size P.reprFloat (.arr (entries.map EventEntry.doc)) ≤ 5728 := by
  have hsum := sum_entries_le h
  by_cases hnil : entries = []
  · subst hnil
    exact Nat.le_of_ble_eq_true rfl
  · rw [Doc.size_arr (by simpa using hnil), List.map_map]
    change (entries.map fun e => Doc.size P.reprFloat e.doc + 2).sum ≤ _
    omega

theorem size_payload_le {recent : List Doc} {entries : List EventEntry}
    (h : List.Forall₂ (EventEntry.Of P) recent entries) (hlength : recent.length ≤ 8) {n : ℕ}
    (hn : n < 2 ^ 63) : Doc.size P.reprFloat (eventPayload entries n) ≤ 5802 := by
  have hentries := size_entries_le h hlength
  have htotal := @size_natCast_le P n hn
  have homitted : Doc.size P.reprFloat (.int (max 0 ((n : ℤ) - 8))) ≤ 19 := by
    have hcast : max 0 ((n : ℤ) - 8) = ((n - 8 : ℕ) : ℤ) := by omega
    rw [hcast]
    exact size_natCast_le (by omega)
  have hnames : textLength "events" = 6 ∧ textLength "total" = 5 ∧ textLength "omitted" = 7 := by
    decide +kernel
  obtain ⟨heventsName, htotalName, homittedName⟩ := hnames
  rw [eventPayload, Doc.size_obj (List.cons_ne_nil _ _)]
  simp only [List.map_cons, List.map_nil, List.sum_cons, List.sum_nil, length_escaped_ofString,
    heventsName, htotalName, homittedName]
  omega

/-- The text of a uuid, and that of a time in UTC. -/
structure Stamp where
  id : String
  timestamp : String
  id_text : id.length = 36 ∧ ∀ c ∈ id.toList, Plain c
  timestamp_text : timestamp.length ≤ 32 ∧ ∀ c ∈ timestamp.toList, Plain c

theorem textLength_le_of_printable {s : String} (h : Printable s.toList) :
    textLength s ≤ 2 * s.length := by
  have hchar : ∀ c, 32 ≤ c.toNat ∧ c.toNat ≤ 126 → (escaped c).length ≤ 2 := by
    intro c hc
    by_cases hspecial : c = quote ∨ c = backslash
    · rw [escaped, if_pos hspecial]
      exact le_refl 2
    · rw [escaped_of_plain ⟨hc.1, hc.2, (not_or.1 hspecial).1, (not_or.1 hspecial).2⟩]
      exact Nat.le_succ 1
  rw [← String.length_toList]
  unfold textLength
  generalize s.toList = cs at h ⊢
  induction cs with
  | nil => exact Nat.zero_le _
  | cons c cs ih =>
      obtain ⟨hc, hcs⟩ := printable_cons.1 h
      have hfirst := hchar c hc
      have hrest := ih hcs
      rw [List.flatMap_cons, List.length_append, List.length_cons]
      omega

theorem size_envelopeDoc (id run timestamp source : String) (payload : Doc) :
    Doc.size P.reprFloat (envelopeDoc id run timestamp source payload) =
      80 + textLength id + textLength run + textLength timestamp + textLength source +
        Doc.size P.reprFloat payload := by
  have hnames : textLength "observation_id" = 14 ∧ textLength "run_id" = 6 ∧
      textLength "timestamp" = 9 ∧ textLength "source" = 6 ∧ textLength "payload" = 7 := by
    decide +kernel
  obtain ⟨hid, hrun, htime, hsource, hpayload⟩ := hnames
  rw [envelopeDoc, Doc.size_obj (List.cons_ne_nil _ _)]
  simp only [List.map_cons, List.map_nil, List.sum_cons, List.sum_nil, Doc.size_str,
    length_escaped_ofString, hid, hrun, htime, hsource, hpayload]
  omega

/-- A run whose id is printable, and whose records have the default limit. -/
structure Options.Default (o : Options) : Prop where
  check : o.check = .ok ()
  printable : Printable o.runId.toList
  maxResultBytes : o.maxResultBytes = 8192

theorem Options.length_runId_le {o : Options} (h : o.check = .ok ()) : o.runId.length ≤ 253 := by
  unfold Options.check at h
  split at h
  · cases h
  · omega

/-- A payload that leaves room for the envelope is recorded as it is. -/
theorem recordDoc_of_size_le (hP : P.Documented) {o : Options} (ho : o.Default) (stamp : Stamp)
    {payload : Doc} (h : Doc.size P.reprFloat payload ≤ 7000) :
    recordDoc P o stamp.id stamp.timestamp "observe_events" payload =
      envelopeDoc stamp.id o.runId stamp.timestamp "observe_events" payload := by
  have hid : textLength stamp.id = 36 := by
    rw [textLength_of_plain stamp.id_text.2, stamp.id_text.1]
  have htime : textLength stamp.timestamp = stamp.timestamp.length :=
    textLength_of_plain stamp.timestamp_text.2
  have hsource : textLength "observe_events" = 14 := by decide +kernel
  have hrun := textLength_le_of_printable ho.printable
  have hrunLength := Options.length_runId_le ho.check
  have htimeLength := stamp.timestamp_text.1
  have hsize := @size_envelopeDoc P stamp.id o.runId stamp.timestamp "observe_events" payload
  have hroom : ¬((encode (serializedDoc P (envelopeDoc stamp.id o.runId stamp.timestamp
      "observe_events" payload))).length : ℤ) > o.maxResultBytes := by
    rw [serializedDoc, Doc.length_encode_dumps hP.printable, ho.maxResultBytes]
    omega
  exact if_neg hroom

theorem events_eq {answer : Doc} {items : List Doc} (h : eventItems answer = .ok items) {payload : Doc}
    (hpayload : summarise P items = .ok payload) : events P (.ok answer) = payload := by
  have hbind : (Except.ok answer : Except String Doc).bind
      (fun v => ((eventItems v).bind (summarise P)).mapError PyError.name) = .ok payload := by
    change ((eventItems answer).bind (summarise P)).mapError PyError.name = _
    rw [h]
    change (summarise P items).mapError PyError.name = _
    rw [hpayload]
    rfl
  rw [events, hbind]

end

/-- A platform that knows one time. -/
def sampleEventPlatform : EventPlatform where
  toTools := samplePlatform
  parseInstant text :=
    if text = "2026-09-23T10:00:00+00:00".toList.map Char.toNat then some (.aware 1790157600000000)
    else none
  strOther _ := .ofString "None"

def sampleMembers (message : Str) : List (Str × Doc) :=
  [(.ofString "message", .str message),
    (.ofString "eventTime", .str (.ofString "2026-09-23T10:00:00Z"))]

/-- An event with a message of its own. -/
def sampleEvent (message : Str) : Doc := .obj (sampleMembers message)

/-- A lone surrogate. -/
def loneSurrogate : Str := ⟨[55357], by decide, by decide⟩

theorem isEvent_sampleEvent (message : Str) : IsEvent (sampleEvent message) := by
  have hnodup : [Str.ofString "message", Str.ofString "eventTime"].Nodup := by decide +kernel
  have habsent : ∀ part ∈ ["metadata", "involvedObject"],
      Str.ofString part ∉ [Str.ofString "message", Str.ofString "eventTime"] := by decide +kernel
  refine ⟨_, rfl, ⟨hnodup, fun name _ v hv => ?_⟩, fun v hv => ?_, fun v hv => ?_⟩
  · have hmem := (@lookup_eq_some_iff _ _ _ _ _ _ _ (sampleMembers message) hnodup).1 hv
    have hstr : ∃ s, v = .str s := by
      rcases List.mem_pair.1 hmem with h | h
      · exact ⟨_, congrArg Prod.snd h⟩
      · exact ⟨_, congrArg Prod.snd h⟩
    obtain ⟨s, rfl⟩ := hstr
    trivial
  · rw [lookup_eq_none_of_not_mem (habsent "metadata" (by decide))] at hv
    cases hv
  · rw [lookup_eq_none_of_not_mem (habsent "involvedObject" (by decide))] at hv
    cases hv

end AutonomyLab.Toolbox
