import AutonomyLab.Json.Python
import AutonomyLab.Json.RoundTrip
import AutonomyLab.Rpc.Frame

/-!
# The two readers agree

* `readFrame_line`, `readFrame_long` — what `read_frame` does, by the first line.
* `take?_cases`, `receive_ok`, `receive_error` — what a turn of `PipeReader.read` can do.
* `reader_refines` — a call of `PipeReader.read` is a call of `read_frame` on what the pipe
  has not returned yet.
* `frames_delivered` — frames that were written are read, however they are delivered, and
  the readers accept the same of every stream.
-/

namespace AutonomyLab.Rpc

open Json Process

variable {P : Platform}

def Timeout (e : Failure) : Prop := e = .timeoutError "RPC frame deadline"

/-- `PipeReader.read` fails with `e` where `read_frame` fails with `e'`. -/
def SameFailure (e e' : Failure) : Prop :=
  e = e' ∨ e' = .valueError "Missing or oversized RPC frame" ∧
    (e = .valueError "Missing RPC frame" ∨ e = .valueError "Oversized RPC frame")

/-! ## Reading a file -/

theorem readline_append (size : ℕ) (stream : Bytes) :
    (readline size stream).1 ++ (readline size stream).2 = stream := by
  induction size generalizing stream with
  | zero => rfl
  | succ size ih =>
      cases stream with
      | nil => rfl
      | cons b stream =>
          unfold readline
          split
          · rfl
          · rw [List.cons_append, ih]

theorem readline_line {l rest : Bytes} {size : ℕ} (hl : newline ∉ l) (h : l.length + 1 ≤ size) :
    readline size (l ++ newline :: rest) = (l ++ [newline], rest) := by
  obtain ⟨size, rfl⟩ : ∃ n, size = n + 1 := ⟨size - 1, by omega⟩
  induction l generalizing size with
  | nil => rw [List.nil_append, readline, if_pos rfl, List.nil_append]
  | cons b l ih =>
      rw [List.mem_cons, not_or] at hl
      rw [List.length_cons] at h
      obtain ⟨size, rfl⟩ : ∃ n, size = n + 1 := ⟨size - 1, by omega⟩
      rw [List.cons_append, readline, if_neg (Ne.symm hl.1), ih hl.2 size (by omega),
        List.cons_append]

/-- **A line that is short enough** is a frame, if it is one at all. -/
theorem readFrame_line {l : Bytes} (rest : Bytes) (hl : newline ∉ l)
    (h : l.length + 1 ≤ maxFrameBytes) :
    readFrame P (l ++ newline :: rest) = (parseLine P (l ++ [newline]), rest) := by
  have hsmall : ¬(l ++ [newline] = [] ∨ (l ++ [newline]).length > maxFrameBytes ∨
      (l ++ [newline]).getLast? ≠ some newline) := by
    rw [List.length_append, List.length_singleton, List.getLast?_concat]
    rintro (h | h | h)
    · exact List.append_ne_nil_of_right_ne_nil l (List.cons_ne_nil _ _) h
    · omega
    · exact h rfl
  rw [readFrame, readline_line hl (by omega)]
  exact if_neg hsmall

/-- **A stream with no line, or one that is too long.** -/
theorem readFrame_long {stream : Bytes} (h : newline ∉ stream.take maxFrameBytes) :
    (readFrame P stream).1 = .error (.valueError "Missing or oversized RPC frame") := by
  have happend := readline_append (maxFrameBytes + 1) stream
  unfold readFrame
  generalize readline (maxFrameBytes + 1) stream = r at happend
  obtain ⟨line, rest⟩ := r
  by_cases hline : line = [] ∨ line.length > maxFrameBytes ∨ line.getLast? ≠ some newline
  · simp only [if_pos hline]
  · -- the line would be a part of what was searched
    exfalso
    simp only [not_or, not_lt, not_not] at hline
    refine h ?_
    have hmem := List.mem_of_getLast? hline.2.2
    have htake : line <+: stream.take maxFrameBytes := by
      rw [List.prefix_take_iff]
      exact ⟨⟨rest, happend⟩, hline.2.1⟩
    exact htake.subset hmem

/-! ## A turn of the loop -/

/-- `buffer` has at most `MAX_FRAME_BYTES` bytes. -/
def Pipe.Bounded (p : Pipe) : Prop := p.buffer.length ≤ maxFrameBytes

theorem bounded_initial (stream : Bytes) : (Pipe.initial stream).Bounded := Nat.zero_le _

theorem findIdx?_newline {l : Bytes} (rest : Bytes) (hl : newline ∉ l) :
    (l ++ newline :: rest).findIdx? (· = newline) = some l.length := by
  induction l with
  | nil => rw [List.nil_append, List.findIdx?_cons, if_pos (by simp), List.length_nil]
  | cons b l ih =>
      rw [List.mem_cons, not_or] at hl
      rw [List.cons_append, List.findIdx?_cons, if_neg (by simpa using Ne.symm hl.1), ih hl.2,
        Option.map_some, List.length_cons]

theorem findIdx?_of_not_mem {l : Bytes} (hl : newline ∉ l) : l.findIdx? (· = newline) = none := by
  rw [List.findIdx?_eq_none_iff]
  intro b hb
  exact decide_eq_false fun h => hl (h ▸ hb)

namespace PipeReader

/-- **What the buffer alone decides**: its first line is returned, or it is full, or more is
waited for. -/
theorem take?_cases (P : Platform) {p : Pipe} (hp : p.Bounded) :
    (∃ l rest, p.buffer = l ++ newline :: rest ∧ newline ∉ l ∧ l.length + 1 ≤ maxFrameBytes ∧
      take? P p = some (parseLine P (l ++ [newline]), { p with buffer := rest })) ∨
    (newline ∉ p.buffer ∧ p.buffer.length = maxFrameBytes ∧
      take? P p = some (.error (.valueError "Oversized RPC frame"), p)) ∨
    (newline ∉ p.buffer ∧ p.buffer.length < maxFrameBytes ∧ take? P p = none) := by
  unfold Pipe.Bounded at hp
  by_cases hmem : newline ∈ p.buffer
  · left
    obtain ⟨l, rest, hbuffer, hl⟩ := List.eq_append_cons_of_mem hmem
    have hlength : l.length + 1 ≤ maxFrameBytes := by
      rw [hbuffer, List.length_append, List.length_cons] at hp
      omega
    refine ⟨l, rest, hbuffer, hl, hlength, ?_⟩
    have htake : (l ++ newline :: rest).take (l.length + 1) = l ++ [newline] := by
      rw [List.take_append, List.take_of_length_le (Nat.le_succ _), Nat.add_sub_cancel_left]
      rfl
    have hdrop : (l ++ newline :: rest).drop (l.length + 1) = rest := by
      rw [List.drop_append, List.drop_of_length_le (Nat.le_succ _), Nat.add_sub_cancel_left]
      rfl
    rw [take?, hbuffer, findIdx?_newline rest hl]
    simp only [if_neg (not_lt.2 hlength), htake, hdrop]
  · right
    have hfind := findIdx?_of_not_mem hmem
    by_cases hfull : p.buffer.length ≥ maxFrameBytes
    · left
      refine ⟨hmem, by omega, ?_⟩
      rw [take?, hfind]
      exact if_pos hfull
    · right
      refine ⟨hmem, by omega, ?_⟩
      rw [take?, hfind]
      exact if_neg hfull

/-- There is no line in a buffer that the loop waits with. -/
theorem not_mem_of_take? {p : Pipe} (h : take? P p = none) : newline ∉ p.buffer := by
  intro hmem
  obtain ⟨l, rest, hbuffer, hl⟩ := List.eq_append_cons_of_mem hmem
  rw [take?, hbuffer, findIdx?_newline rest hl] at h
  simp only at h
  split at h <;> cases h

/-- What the loop knows once it waits. -/
theorem take?_none {p : Pipe} (hp : p.Bounded) (h : take? P p = none) :
    newline ∉ p.buffer ∧ p.buffer.length < maxFrameBytes := by
  rcases take?_cases P hp with ⟨l, rest, -, -, -, htake⟩ | ⟨-, -, htake⟩ | ⟨hmem, hlength, -⟩
  · exact absurd (h.symm.trans htake) (by simp)
  · exact absurd (h.symm.trans htake) (by simp)
  · exact ⟨hmem, hlength⟩

/-- Bytes that arrive are moved to the buffer, and fit there. -/
theorem receive_ok {p p' : Pipe} {poll : Poll} (hp : p.Bounded) (h : receive p poll = .ok p') :
    p'.Bounded ∧ p'.pending = p.pending := by
  cases poll with
  | expired => cases h
  | blocked =>
      cases h
      exact ⟨hp, rfl⟩
  | ready n =>
      simp only [receive] at h
      split at h
      · cases h
      · cases h
        refine ⟨?_, ?_⟩
        · unfold Pipe.Bounded asked at *
          rw [List.length_append, List.length_take]
          omega
        · rw [Pipe.pending, Pipe.pending, List.append_assoc]
          congr 1
          exact List.prefix_iff_eq_append.1 (List.take_prefix _ p.unread)

theorem receive_error {p : Pipe} {poll : Poll} {e : Failure} (h : receive p poll = .error e)
    (hp : p.buffer.length < maxFrameBytes) :
    (poll = .expired ∧ e = .timeoutError "RPC frame deadline") ∨
      (p.unread = [] ∧ e = .valueError "Missing RPC frame") := by
  cases poll with
  | expired =>
      cases h
      exact .inl ⟨rfl, rfl⟩
  | blocked => cases h
  | ready n =>
      simp only [receive] at h
      split at h
      · next hchunk =>
          cases h
          right
          refine ⟨?_, rfl⟩
          rcases List.take_eq_nil_iff.1 hchunk with hsize | hunread
          · unfold asked at hsize
            omega
          · exact hunread
      · cases h

/-- No turn makes the buffer longer than a frame can be. -/
theorem loop_bounded {p p' : Pipe} {turn : Option Poll} (hp : p.Bounded)
    (ht : loop P p turn = some p') : p'.Bounded := by
  cases turn with
  | none =>
      obtain ⟨⟨r, q⟩, htake, rfl⟩ := Option.map_eq_some_iff.1 ht
      rcases take?_cases P hp with ⟨l, rest, hbuffer, -, hlength, htake'⟩ | ⟨-, -, htake'⟩ |
        ⟨-, -, htake'⟩
      · rw [htake] at htake'
        cases htake'
        unfold Pipe.Bounded at *
        rw [hbuffer, List.length_append, List.length_cons] at hp
        change rest.length ≤ _
        omega
      · rw [htake] at htake'
        cases htake'
        exact hp
      · rw [htake] at htake'
        cases htake'
  | some poll =>
      simp only [loop] at ht
      split at ht
      · cases ht
      · cases hpoll : receive p poll with
        | error e =>
            rw [hpoll] at ht
            cases ht
        | ok q =>
            rw [hpoll] at ht
            cases ht
            exact (receive_ok hp hpoll).1

/-- **The loop never holds more than a frame can have.** -/
theorem run_bounded {p p' : Pipe} {h : List (Transition Pipe (Option Poll))} (hp : p.Bounded)
    (hrun : Run (loop P) p h p') : p'.Bounded :=
  hrun.invariant (fun _ _ _ => loop_bounded) hp

section
variable {p p' : Pipe} {poll : Poll}

theorem read_taken {r : Except Failure Json} (h : take? P p = some (r, p')) (polls : List Poll) :
    read P p polls = (some r, p', polls) := by
  unfold read
  rw [h]

theorem read_nil (h : take? P p = none) : read P p [] = (none, p, []) := by
  unfold read
  rw [h]

theorem read_refused {e : Failure} (h : take? P p = none) (hpoll : receive p poll = .error e)
    (polls : List Poll) : read P p (poll :: polls) = (some (.error e), p, polls) := by
  rw [read, h]
  simp only [hpoll]

theorem read_received (h : take? P p = none) (hpoll : receive p poll = .ok p')
    (polls : List Poll) : read P p (poll :: polls) = read P p' polls := by
  rw [read, h]
  simp only [hpoll]

theorem loop_taken {r : Except Failure Json} (h : take? P p = some (r, p')) :
    loop P p none = some p' := by
  rw [loop, h]
  rfl

theorem loop_received (h : take? P p = none) (hpoll : receive p poll = .ok p') :
    loop P p (some poll) = some p' := by
  rw [loop, h, hpoll]
  rfl

end

/-- A call passes through states of the loop. -/
theorem read_run (P : Platform) (p : Pipe) (polls : List Poll) :
    ∃ h, Run (loop P) p h (read P p polls).2.1 := by
  induction polls generalizing p with
  | nil =>
      match htake : take? P p with
      | none =>
          rw [read_nil htake]
          exact ⟨[], .nil⟩
      | some (r, p') =>
          rw [read_taken htake]
          exact ⟨_, Run.nil.snoc (loop_taken htake)⟩
  | cons poll polls ih =>
      match htake : take? P p with
      | some (r, p') =>
          rw [read_taken htake]
          exact ⟨_, Run.nil.snoc (loop_taken htake)⟩
      | none =>
          cases hpoll : receive p poll with
          | error e =>
              rw [read_refused htake hpoll]
              exact ⟨[], .nil⟩
          | ok p' =>
              obtain ⟨h, hrun⟩ := ih p'
              rw [read_received htake hpoll]
              exact ⟨_, hrun.cons (loop_received htake hpoll)⟩

theorem read_bounded (P : Platform) {p : Pipe} (polls : List Poll) (hp : p.Bounded) :
    (read P p polls).2.1.Bounded := by
  obtain ⟨h, hrun⟩ := read_run P p polls
  exact run_bounded hp hrun

/-! ## A call -/

theorem not_timeout_of_parseLine {line : Bytes} {e : Failure} (h : parseLine P line = .error e) :
    ¬Timeout e := by
  unfold parseLine at h
  split at h <;> cases h <;> exact Failure.noConfusion

/-- **What a call of `PipeReader.read` does**: it waits, or its time is up, or it does what
`read_frame` does with the bytes that were not returned yet. -/
inductive Call (P : Platform) (p : Pipe) (polls : List Poll) :
    Option (Except Failure Json) → Pipe × List Poll → Prop
  | waits {p'} : p'.pending = p.pending → newline ∉ p'.buffer → Call P p polls none (p', [])
  | expires {p' polls'} : p'.pending = p.pending → .expired ∈ polls →
      Call P p polls (some (.error (.timeoutError "RPC frame deadline"))) (p', polls')
  | frame {p' l polls'} : newline ∉ l → l.length + 1 ≤ maxFrameBytes →
      p.pending = l ++ newline :: p'.pending →
      Call P p polls (some (parseLine P (l ++ [newline]))) (p', polls')
  | fails {e p' polls'} : newline ∉ p.pending.take maxFrameBytes →
      (e = .valueError "Missing RPC frame" ∨ e = .valueError "Oversized RPC frame") →
      Call P p polls (some (.error e)) (p', polls')

theorem Call.of_pending {p q : Pipe} {poll : Poll} {polls : List Poll}
    {r : Option (Except Failure Json)} {s : Pipe × List Poll} (h : q.pending = p.pending)
    (hcall : Call P q polls r s) : Call P p (poll :: polls) r s := by
  cases hcall with
  | waits hpending hmem => exact .waits (hpending.trans h) hmem
  | expires hpending hmem => exact .expires (hpending.trans h) (List.mem_cons_of_mem _ hmem)
  | frame hl hlength hpending => exact .frame hl hlength (h ▸ hpending)
  | fails hmem he => exact .fails (h ▸ hmem) he

theorem Call.of_take {p p' : Pipe} {r : Except Failure Json} (hp : p.Bounded)
    (h : take? P p = some (r, p')) (polls : List Poll) : Call P p polls (some r) (p', polls) := by
  rcases take?_cases P hp with ⟨l, rest, hbuffer, hl, hlength, htake⟩ | ⟨hmem, hlength, htake⟩ |
    ⟨-, -, htake⟩
  · rw [h] at htake
    cases htake
    refine .frame hl hlength ?_
    rw [Pipe.pending, Pipe.pending, hbuffer, List.append_assoc, List.cons_append]
  · rw [h] at htake
    cases htake
    refine .fails ?_ (.inr rfl)
    rw [Pipe.pending, ← hlength, List.take_left]
    exact hmem
  · rw [h] at htake
    cases htake

theorem read_call (P : Platform) {p : Pipe} (polls : List Poll) (hp : p.Bounded) :
    Call P p polls (read P p polls).1 (read P p polls).2 := by
  induction polls generalizing p with
  | nil =>
      match htake : take? P p with
      | none =>
          rw [read_nil htake]
          exact .waits rfl (take?_none hp htake).1
      | some (r, p') =>
          rw [read_taken htake]
          exact .of_take hp htake []
  | cons poll polls ih =>
      match htake : take? P p with
      | some (r, p') =>
          rw [read_taken htake]
          exact .of_take hp htake _
      | none =>
          obtain ⟨hmem, hlength⟩ := take?_none hp htake
          cases hpoll : receive p poll with
          | error e =>
              rw [read_refused htake hpoll]
              rcases receive_error hpoll hlength with ⟨rfl, rfl⟩ | ⟨hunread, rfl⟩
              · exact .expires rfl List.mem_cons_self
              · refine .fails ?_ (.inl rfl)
                rw [Pipe.pending, hunread, List.append_nil]
                exact fun h => hmem (List.take_subset _ _ h)
          | ok p' =>
              obtain ⟨hp', hpending⟩ := receive_ok hp hpoll
              rw [read_received htake hpoll]
              exact (ih hp').of_pending hpending

/-- A call of `PipeReader.read` stands for a call of `read_frame`. -/
def Stands (s : Pipe × List Poll) (stream : Bytes) : Prop := s.1.Bounded ∧ s.1.pending = stream

/-- **A call of `PipeReader.read` is a call of `read_frame`** on what was not returned yet. -/
theorem reader_refines (P : Platform) :
    Refines Stands Timeout SameFailure (reader P) (fileReader P) where
  wait := by
    rintro ⟨p, polls⟩ _ ⟨p', polls'⟩ ⟨hp, rfl⟩ h
    have hbounded := read_bounded P polls hp
    have hcall := read_call P polls hp
    change read P p polls = _ at h
    rw [h] at hbounded hcall
    cases hcall with
    | waits hpending => exact ⟨hbounded, hpending⟩
  ok := by
    rintro ⟨p, polls⟩ _ v ⟨p', polls'⟩ ⟨hp, rfl⟩ h
    have hbounded := read_bounded P polls hp
    have hcall := read_call P polls hp
    change read P p polls = _ at h
    rw [h] at hbounded hcall
    generalize hr : (some (Except.ok v) : Option (Except Failure Json)) = r at hcall
    cases hcall with
    | waits => cases hr
    | expires => cases hr
    | fails => cases hr
    | frame hl hlength hpending =>
        refine ⟨p'.pending, ?_, hbounded, rfl⟩
        rw [fileReader, hpending, readFrame_line _ hl hlength]
  soft := by
    rintro ⟨p, polls⟩ _ e ⟨p', polls'⟩ ⟨hp, rfl⟩ h he
    have hbounded := read_bounded P polls hp
    have hcall := read_call P polls hp
    change read P p polls = _ at h
    rw [h] at hbounded hcall
    generalize hr : (some (Except.error e) : Option (Except Failure Json)) = r at hcall
    cases hcall with
    | waits => cases hr
    | expires hpending => exact ⟨hbounded, hpending⟩
    | fails _ he' =>
        cases hr
        rcases he' with rfl | rfl <;> cases he
    | frame hl hlength hpending => exact absurd he (not_timeout_of_parseLine (Option.some.inj hr).symm)
  hard := by
    rintro ⟨p, polls⟩ _ e ⟨p', polls'⟩ ⟨hp, rfl⟩ h he
    have hcall := read_call P polls hp
    change read P p polls = _ at h
    rw [h] at hcall
    generalize hr : (some (Except.error e) : Option (Except Failure Json)) = r at hcall
    cases hcall with
    | waits => cases hr
    | expires =>
        cases hr
        exact absurd rfl he
    | fails hmem he' =>
        cases hr
        exact ⟨_, _, by rw [fileReader, readFrame_long hmem], .inr ⟨rfl, he'⟩⟩
    | frame hl hlength hpending =>
        refine ⟨e, p'.pending, ?_, .inl rfl⟩
        rw [fileReader, hpending, readFrame_line _ hl hlength]
        exact Prod.ext hr.symm rfl

/-- A call uses up the first of the polls. -/
theorem read_suffix (P : Platform) (p : Pipe) (polls : List Poll) :
    (read P p polls).2.2 <:+ polls := by
  induction polls generalizing p with
  | nil =>
      match htake : take? P p with
      | none => rw [read_nil htake]
      | some (r, p') => rw [read_taken htake]
  | cons poll polls ih =>
      match htake : take? P p with
      | some (r, p') => rw [read_taken htake]
      | none =>
          cases hpoll : receive p poll with
          | error e =>
              rw [read_refused htake hpoll]
              exact List.suffix_cons poll polls
          | ok p' =>
              rw [read_received htake hpoll]
              exact (ih p').trans (List.suffix_cons poll polls)

/-- Without a deadline no call runs out of time. -/
theorem drain_not_timeout (P : Platform) {p : Pipe} {polls : List Poll} {k : ℕ} {e : Failure}
    (hp : p.Bounded) (hexpired : .expired ∉ polls)
    (he : (drain (reader P) k (p, polls)).stop = some e) : ¬Timeout e := by
  refine drain_errors (I := fun s : Pipe × List Poll => s.1.Bounded ∧ Poll.expired ∉ s.2)
    (H := fun e => ¬Timeout e) ?_ ?_ ⟨hp, hexpired⟩ he
  · rintro ⟨p, polls⟩ v s' ⟨hp, hexpired⟩ h
    have hbounded := read_bounded P polls hp
    have hsuffix := read_suffix P p polls
    change read P p polls = _ at h
    rw [h] at hbounded hsuffix
    exact ⟨hbounded, fun hmem => hexpired (hsuffix.subset hmem)⟩
  · rintro ⟨p, polls⟩ e s' ⟨hp, hexpired⟩ h
    have hcall := read_call P polls hp
    change read P p polls = _ at h
    rw [h] at hcall
    generalize hr : (some (Except.error e) : Option (Except Failure Json)) = r at hcall
    cases hcall with
    | waits => cases hr
    | expires _ hmem => exact absurd hmem hexpired
    | fails _ he' =>
        cases hr
        rcases he' with rfl | rfl <;> exact Failure.noConfusion
    | frame => exact not_timeout_of_parseLine (Option.some.inj hr).symm

/-- A call that waits has no line to return, and no poll left. -/
theorem waits_of_read {p p' : Pipe} {polls polls' : List Poll}
    (h : read P p polls = (none, p', polls')) : polls' = [] ∧ newline ∉ p'.buffer := by
  induction polls generalizing p with
  | nil =>
      match htake : take? P p with
      | none =>
          rw [read_nil htake] at h
          cases h
          exact ⟨rfl, not_mem_of_take? htake⟩
      | some (r, q) =>
          rw [read_taken htake] at h
          cases h
  | cons poll polls ih =>
      match htake : take? P p with
      | some (r, q) =>
          rw [read_taken htake] at h
          cases h
      | none =>
          cases hpoll : receive p poll with
          | error e =>
              rw [read_refused htake hpoll] at h
              cases h
          | ok q =>
              rw [read_received htake hpoll] at h
              exact ih h

/-! ## Enough polls -/

/-- How many of the polls find bytes, or the end of the stream. -/
def readies (polls : List Poll) : ℕ :=
  polls.countP fun poll => match poll with | .ready _ => true | _ => false

/-- There is time until the stream has ended. -/
def Live (s : Pipe × List Poll) : Prop :=
  s.1.Bounded ∧ .expired ∉ s.2 ∧ s.1.unread.length < readies s.2

/-- A turn that waits moves at least one byte where there is one. -/
theorem receive_live {p : Pipe} {poll : Poll} {polls : List Poll}
    (hlive : Live (p, poll :: polls)) : (∃ p', receive p poll = .ok p' ∧ Live (p', polls)) ∨
      receive p poll = .error (.valueError "Missing RPC frame") := by
  obtain ⟨hp, hexpired, hready⟩ := hlive
  rw [List.mem_cons, not_or] at hexpired
  cases poll with
  | expired => exact absurd rfl hexpired.1
  | blocked =>
      left
      exact ⟨p, rfl, hp, hexpired.2, hready⟩
  | ready n =>
      by_cases hchunk : p.unread.take (min (n + 1) (asked p)) = []
      · right
        exact if_pos hchunk
      · left
        have hpoll : receive p (.ready n) = .ok ⟨p.buffer ++ p.unread.take (min (n + 1) (asked p)),
            p.unread.drop (p.unread.take (min (n + 1) (asked p))).length⟩ := if_neg hchunk
        refine ⟨_, hpoll, (receive_ok hp hpoll).1, hexpired.2, ?_⟩
        have hpos := List.length_pos_of_ne_nil hchunk
        have hcount : readies (.ready n :: polls) = readies polls + 1 := List.countP_cons_of_pos rfl
        rw [hcount] at hready
        have hle := (List.take_prefix (min (n + 1) (asked p)) p.unread).length_le
        change (List.drop _ p.unread).length < readies polls
        change p.unread.length < _ at hready
        rw [List.length_drop]
        omega

theorem read_live {p : Pipe} {polls : List Poll} (hlive : Live (p, polls)) :
    (∃ v s', read P p polls = (some (.ok v), s') ∧ Live s') ∨
      ∃ e s', read P p polls = (some (.error e), s') ∧ ¬Timeout e := by
  have htaken : ∀ {p p' : Pipe} {r polls}, Live (p, polls) → take? P p = some (r, p') →
      (∃ v s', read P p polls = (some (.ok v), s') ∧ Live s') ∨
        ∃ e s', read P p polls = (some (.error e), s') ∧ ¬Timeout e := by
    intro p p' r polls hlive htake
    obtain ⟨hp, hexpired, hready⟩ := hlive
    have hread := read_taken htake polls
    rcases take?_cases P hp with ⟨l, rest, hbuffer, -, -, htake'⟩ | ⟨-, -, htake'⟩ | ⟨-, -, htake'⟩
    · rw [htake] at htake'
      cases htake'
      cases hline : parseLine P (l ++ [newline]) with
      | ok v =>
          left
          rw [hline] at hread
          exact ⟨v, _, hread, loop_bounded hp (loop_taken htake), hexpired, hready⟩
      | error e =>
          right
          rw [hline] at hread
          exact ⟨e, _, hread, not_timeout_of_parseLine hline⟩
    · rw [htake] at htake'
      cases htake'
      right
      exact ⟨_, _, hread, Failure.noConfusion⟩
    · rw [htake] at htake'
      cases htake'
  induction polls generalizing p with
  | nil => exact absurd hlive.2.2 (Nat.not_lt_zero _)
  | cons poll polls ih =>
      match htake : take? P p with
      | some (r, p') => exact htaken hlive htake
      | none =>
          rcases receive_live hlive with ⟨p', hpoll, hlive'⟩ | hpoll
          · rw [read_received htake hpoll]
            exact ih hlive'
          · right
            exact ⟨_, _, read_refused htake hpoll polls, Failure.noConfusion⟩

end PipeReader

/-! ## Frames that were written -/

/-- A frame as `json.loads` returns it: an object, without a name that occurs twice. -/
def Frame (v : Json) : Prop := Distinct v ∧ ∃ fs, v = .obj fs

theorem layout_valid : layout.Valid := ⟨⟨[], rfl, by simp⟩, ⟨[], rfl, by simp⟩⟩

theorem layout_ascii : layout.Ascii := ⟨printable_of_all (by decide), printable_of_all (by decide)⟩

theorem parseLine_encodeFrame (hP : P.Documented) {v : Json} (hv : Frame v) :
    parseLine P (encodeFrame P v) = .ok v := by
  obtain ⟨hdistinct, fs, rfl⟩ := hv
  have hws : ∀ c ∈ ['\n'], isWhitespace c = true := List.all_eq_true.1 (by decide)
  have hloads := loads_dumps_append hP.float layout_valid hdistinct hws
  rw [ordered_of_unsorted rfl] at hloads
  rw [parseLine, encodeFrame, hP.decode _ (printable_dumps hP.printable layout_ascii _),
    Option.bind_some, hloads]

/-- **A frame that was written is read.** -/
theorem readFrame_encodeFrame (hP : P.Documented) {v : Json} (hv : Frame v)
    (h : (encodeFrame P v).length ≤ maxFrameBytes) (rest : Bytes) :
    readFrame P (encodeFrame P v ++ rest) = (.ok v, rest) := by
  have hparse := parseLine_encodeFrame hP hv
  have htext := printable_dumps hP.printable layout_ascii v
  have hmem : newline ∉ encode (dumps P.reprFloat layout v).toList := by
    intro hmem
    exact absurd (mem_encode htext hmem) (by decide)
  unfold encodeFrame at *
  rw [List.length_append, List.length_singleton] at h
  rw [List.append_assoc, List.singleton_append, readFrame_line rest hmem h, hparse]

theorem writeFrame_eq_ok {v : Json} {b : Bytes} :
    writeFrame P v = .ok b ↔ (encodeFrame P v).length ≤ maxFrameBytes ∧ encodeFrame P v = b := by
  unfold writeFrame
  split <;> simp <;> omega

theorem drain_written (hP : P.Documented) {frames : List Json} {written : List Bytes}
    (hframes : ∀ v ∈ frames, Frame v) (hw : frames.mapM (writeFrame P) = .ok written) {k : ℕ}
    (hk : k ≤ frames.length) :
    drain (fileReader P) k written.flatten = ⟨frames.take k, none, (written.drop k).flatten⟩ := by
  rw [mapM_eq_ok] at hw
  induction k generalizing frames written with
  | zero => rfl
  | succ k ih =>
      cases frames with
      | nil => exact absurd hk (by simp)
      | cons v frames =>
          cases written with
          | nil => cases hw
          | cons b written =>
              obtain ⟨hb, hrest⟩ := List.cons_eq_cons.1 hw
              obtain ⟨hlength, rfl⟩ := writeFrame_eq_ok.1 hb
              have hread : fileReader P ((encodeFrame P v :: written).flatten) =
                  (some (.ok v), written.flatten) := by
                rw [fileReader, List.flatten_cons,
                  readFrame_encodeFrame hP (hframes v List.mem_cons_self) hlength]
              rw [drain_of_ok hread, ih (fun w h => hframes w (List.mem_cons_of_mem v h)) hrest
                (Nat.le_of_succ_le_succ hk)]
              rfl

/-! ## Delivery -/

/-- What `k` calls of `PipeReader.read` have done with frames that were written to the pipe. -/
structure Delivered (frames : List Json) (written : List Bytes) (k : ℕ)
    (d : Drained (Pipe × List Poll) Json Failure) : Prop where
  stop : d.stop = none
  values : d.values = frames.take d.values.length
  /-- What was not returned is still to be read. -/
  surplus : d.state.1.pending = (written.drop d.values.length).flatten
  /-- A call that has not returned waits for the end of its line. -/
  waits : d.values.length < k → d.state.2 = [] ∧ newline ∉ d.state.1.buffer

/-- What `k` calls of `PipeReader.read` have to do with `k` calls of `read_frame`. -/
structure Agrees (P : Platform) (stream : Bytes) (polls : List Poll)
    (d : Drained (Pipe × List Poll) Json Failure) (f : Drained Bytes Json Failure) : Prop where
  values : d.values <+: f.values
  /-- A call that waits, or whose time is up, has lost nothing. -/
  resumes : (∀ e, d.stop = some e → Timeout e) →
    drain (fileReader P) d.values.length stream = ⟨d.values, none, d.state.1.pending⟩
  /-- Any other failure is one of `read_frame`, at the same frame. -/
  stop : ∀ e, d.stop = some e → ¬Timeout e →
    f.values = d.values ∧ ∃ e', f.stop = some e' ∧ SameFailure e e'
  /-- With time until the stream has ended, the readers do the same. -/
  live : .expired ∉ polls → stream.length < PipeReader.readies polls →
    d.values = f.values ∧ d.stop.isSome = f.stop.isSome ∧ ∀ e, d.stop = some e → ¬Timeout e

theorem drain_agrees (P : Platform) (stream : Bytes) (polls : List Poll) (k : ℕ) :
    Agrees P stream polls (drain (PipeReader.reader P) k (.initial stream, polls))
      (drain (fileReader P) k stream) := by
  have hrefines := PipeReader.reader_refines P
  have hA : PipeReader.Stands (.initial stream, polls) stream := ⟨bounded_initial stream, rfl⟩
  have hle := length_drain_le (PipeReader.reader P) k (.initial stream, polls)
  have hstop : ∀ e, (drain (PipeReader.reader P) k (.initial stream, polls)).stop = some e →
      ¬Timeout e → (drain (fileReader P) k stream).values =
        (drain (PipeReader.reader P) k (.initial stream, polls)).values ∧
        ∃ e', (drain (fileReader P) k stream).stop = some e' ∧ SameFailure e e' := by
    intro e he hhard
    obtain ⟨e', t', hdrain, hsame⟩ := hrefines.drain_stop k hA he hhard
    have hmore := drain_of_stop (fileReader P) (s := stream) (Nat.succ_le_of_lt (length_drain_lt he))
      (by rw [hdrain]; exact Option.some_ne_none e')
    rw [hmore, hdrain]
    exact ⟨rfl, e', rfl, hsame⟩
  have hresumes : (∀ e, (drain (PipeReader.reader P) k (.initial stream, polls)).stop = some e →
      Timeout e) → drain (fileReader P)
        (drain (PipeReader.reader P) k (.initial stream, polls)).values.length stream =
      ⟨(drain (PipeReader.reader P) k (.initial stream, polls)).values, none,
        (drain (PipeReader.reader P) k (.initial stream, polls)).state.1.pending⟩ := by
    intro hsoft
    obtain ⟨t', hdrain, -, rfl⟩ := hrefines.drain_values k hA hsoft
    exact hdrain
  have htotal : .expired ∉ polls → stream.length < PipeReader.readies polls → _ :=
    fun hexpired hready => drain_total (fun s hs => PipeReader.read_live (P := P) hs) k
      (show PipeReader.Live (.initial stream, polls) from ⟨hA.1, hexpired, hready⟩)
  change _ → _ → (drain (PipeReader.reader P) k _).stop = none ∧
    (drain (PipeReader.reader P) k _).values.length = k ∨
      ∃ e, (drain (PipeReader.reader P) k _).stop = some e ∧ ¬Timeout e at htotal
  generalize drain (PipeReader.reader P) k (.initial stream, polls) = d at *
  refine ⟨?_, hresumes, hstop, fun hexpired hready => ?_⟩
  · by_cases hsoft : ∀ e, d.stop = some e → Timeout e
    · have hprefix := drain_isPrefix (fileReader P) hle stream
      rw [hresumes hsoft] at hprefix
      exact hprefix
    · push Not at hsoft
      obtain ⟨e, he, hhard⟩ := hsoft
      rw [(hstop e he hhard).1]
  · rcases htotal hexpired hready with ⟨hnone, hlength⟩ | ⟨e, he, hhard⟩
    · have hnot : ∀ e, d.stop ≠ some e := fun e he =>
        absurd (hnone.symm.trans he) (Option.some_ne_none e).symm
      have hsame := hresumes fun e he => absurd he (hnot e)
      rw [hlength] at hsame
      rw [hsame, hnone]
      exact ⟨rfl, rfl, fun e he => absurd he (Option.some_ne_none e).symm⟩
    · obtain ⟨hvalues, e', he', -⟩ := hstop e he hhard
      refine ⟨hvalues.symm, by rw [he, he']; rfl, fun d' hd' => ?_⟩
      rw [he] at hd'
      cases hd'
      exact hhard

theorem drain_delivered (hP : P.Documented) {frames : List Json} {written : List Bytes}
    (hframes : ∀ v ∈ frames, Frame v) (hw : frames.mapM (writeFrame P) = .ok written)
    {polls : List Poll} (hexpired : .expired ∉ polls) {k : ℕ} (hk : k ≤ frames.length) :
    Delivered frames written k
      (drain (PipeReader.reader P) k (.initial written.flatten, polls)) := by
  have hagrees := drain_agrees P written.flatten polls k
  have hsoft := fun e => PipeReader.drain_not_timeout (P := P) (k := k) (e := e)
    (bounded_initial written.flatten) hexpired
  have hle := length_drain_le (PipeReader.reader P) k (.initial written.flatten, polls)
  have hwaits := drain_waits (PipeReader.reader P) (k := k) (s := (.initial written.flatten, polls))
    (W := fun s => s.2 = [] ∧ newline ∉ s.1.buffer) fun _ _ h => PipeReader.waits_of_read h
  rw [drain_written hP hframes hw hk] at hagrees
  generalize drain (PipeReader.reader P) k (.initial written.flatten, polls) = d at *
  -- a failure would be one of `read_frame`, which reads what was written
  have hstop : d.stop = none := by
    cases he : d.stop with
    | none => rfl
    | some e =>
        obtain ⟨-, e', he', -⟩ := hagrees.stop e he (hsoft e he)
        cases he'
  have hresumes := hagrees.resumes fun e he => absurd (hstop.symm.trans he) (Option.some_ne_none e).symm
  rw [drain_written hP hframes hw (hle.trans hk), Drained.mk.injEq] at hresumes
  exact ⟨hstop, hresumes.1.symm, hresumes.2.2.symm, hwaits hstop⟩

/-- **Frames survive a pipe, and the two readers agree.**  Frames that `write_frame` has written
are returned in order, however they are delivered: at any time the calls that have returned gave
the first of the frames, what they left is exactly the rest of what was written, and a call that
has not returned still waits for the end of its line; with enough polls every call returns.  The
buffer never holds more than `MAX_FRAME_BYTES`.  Of any stream the readers accept the same
frames, and fail at the same one; a call whose time is up loses nothing.  A line of exactly
`MAX_FRAME_BYTES` is a frame, one byte more is not. -/
theorem frames_delivered (P : Platform) :
    (P.Documented → ∀ frames written polls k, (∀ v ∈ frames, Frame v) →
      frames.mapM (writeFrame P) = .ok written → .expired ∉ polls → k ≤ frames.length →
      Delivered frames written k
        (drain (PipeReader.reader P) k (.initial written.flatten, polls)) ∧
      (written.flatten.length < PipeReader.readies polls →
        (drain (PipeReader.reader P) k (.initial written.flatten, polls)).values = frames.take k)) ∧
    (∀ stream h p, Run (PipeReader.loop P) (.initial stream) h p →
      p.buffer.length ≤ maxFrameBytes) ∧
    (∀ stream polls k, Agrees P stream polls
      (drain (PipeReader.reader P) k (.initial stream, polls)) (drain (fileReader P) k stream)) ∧
    (∀ l rest, newline ∉ l →
      (l.length + 1 ≤ maxFrameBytes →
        readFrame P (l ++ newline :: rest) = (parseLine P (l ++ [newline]), rest)) ∧
      (maxFrameBytes < l.length + 1 → (readFrame P (l ++ newline :: rest)).1 =
        .error (.valueError "Missing or oversized RPC frame"))) := by
  refine ⟨fun hP frames written polls k hframes hw hexpired hk => ?_, ?_, drain_agrees P, ?_⟩
  · refine ⟨drain_delivered hP hframes hw hexpired hk, fun hready => ?_⟩
    have hlive := (drain_agrees P written.flatten polls k).live hexpired hready
    rw [hlive.1, drain_written hP hframes hw hk]
  · intro stream h p hrun
    exact PipeReader.run_bounded (bounded_initial stream) hrun
  · intro l rest hl
    refine ⟨readFrame_line rest hl, fun hlong => readFrame_long ?_⟩
    rw [List.take_append_of_le_length (by omega)]
    exact fun h => hl (List.take_subset _ _ h)

/-! ## Two frames in pieces -/

/-- A platform that writes floats as fractions, and reads bytes as the characters with these
numbers. -/
def samplePlatform : Platform where
  reprFloat := fractionText
  parseFloat := parseFraction
  decode bytes := some (bytes.map fun b => Char.ofNat b.toNat)

theorem documented_samplePlatform : samplePlatform.Documented where
  float := floatText_fraction
  printable := printable_fractionText
  decode text h := by
    change some ((encode text ++ [newline]).map fun b => Char.ofNat b.toNat) = _
    rw [List.map_append, map_encode h]
    rfl

def sampleFrames : List Json := [.obj [("id", .int 1)], .obj [("id", .int 2)]]

theorem frame_of_sampleFrames : ∀ v ∈ sampleFrames, Frame v := by
  have hid : ∀ n : ℤ, Frame (.obj [("id", .int n)]) := fun n =>
    ⟨⟨List.nodup_singleton _, trivial, trivial⟩, _, rfl⟩
  intro v hv
  simp only [sampleFrames, List.mem_cons, List.not_mem_nil, or_false] at hv
  rcases hv with rfl | rfl
  · exact hid 1
  · exact hid 2

/-- Two frames of nine bytes arrive in pieces of six: the second piece has the end of one and
the beginning of the other. -/
theorem frames_delivered_pieces :
    ∃ written, sampleFrames.mapM (writeFrame samplePlatform) = .ok written ∧
      (drain (PipeReader.reader samplePlatform) 2
        (.initial written.flatten, List.replicate 19 (.ready 5))).values = sampleFrames := by
  have hw : sampleFrames.mapM (writeFrame samplePlatform) =
      .ok (sampleFrames.map (encodeFrame samplePlatform)) := by
    refine mapM_eq_ok.2 ?_
    rw [List.map_map]
    refine List.map_congr_left fun v hv => writeFrame_eq_ok.2 ⟨?_, rfl⟩
    revert v
    decide +kernel
  refine ⟨_, hw, ?_⟩
  have hexpired : Poll.expired ∉ List.replicate 19 (Poll.ready 5) := by decide
  exact ((frames_delivered samplePlatform).1 documented_samplePlatform sampleFrames _ _ 2
    frame_of_sampleFrames hw hexpired (Nat.le_refl 2)).2 (by decide +kernel)

end AutonomyLab.Rpc
