import AutonomyLab.Process.Sequential

/-!
# Dialogues

A dialogue is what a program says to its surroundings and hears from them, and nothing else: it
puts a question, and goes on with whatever it is answered.  What it asks may be told from what it
has heard, and that is all that a proof about it can use.

* `Dialogue` — dialogues, as a monad.
* `Dialogue.Reaches` — how a dialogue may go.
* `Dialogue.keeps` — every question a dialogue puts is warranted by what it has heard, and so is
  its result.  `keeps_bind` and `keeps_mono` compose it along the dialogue.
* `Dialogue.keeps_iff` — `keeps` is about every way the dialogue may go.
* `Dialogue.perform` — a dialogue whose questions are answered by programs.
* `Sequential.keeps_perform` — what the dialogue warrants may be used where they are answered.
-/

namespace Process

/-- A program that asks questions `q`, and goes on with an answer of type `A q`. -/
inductive Dialogue (Q : Type) (A : Q → Type) (ε α : Type) : Type where
  | done (a : α)
  | fail (e : ε)
  | ask (q : Q) (k : A q → Dialogue Q A ε α)

namespace Dialogue

variable {Q : Type} {A : Q → Type} {ε α β : Type}

/-- Questions and their answers, latest first. -/
abbrev Log (Q : Type) (A : Q → Type) : Type := List (Σ q, A q)

/-- Run `d`, then go on with what it returned. -/
def bind : Dialogue Q A ε α → (α → Dialogue Q A ε β) → Dialogue Q A ε β
  | .done a, f => f a
  | .fail e, _ => .fail e
  | .ask q k, f => .ask q fun a => (k a).bind f

instance : Monad (Dialogue Q A ε) where
  pure := .done
  bind := bind

/-- Ask `q`. -/
def question (q : Q) : Dialogue Q A ε (A q) := .ask q .done

/-- Go on with the value of `r`, or raise its exception. -/
def ofExcept : Except ε α → Dialogue Q A ε α
  | .ok a => .done a
  | .error e => .fail e

/-! ## How a dialogue may go -/

/-- After the exchanges of `log` the dialogue has come to `d'`. -/
inductive Reaches (d : Dialogue Q A ε α) : Log Q A → Dialogue Q A ε α → Prop
  | here : Reaches d [] d
  | step {log q k} (a : A q) : Reaches d log (.ask q k) → Reaches d (⟨q, a⟩ :: log) (k a)

/-- Every question that is put after `log` satisfies `P`, and the result satisfies `R`. -/
def keeps (P : Log Q A → Q → Prop) (R : Except ε α → Log Q A → Prop) : Dialogue Q A ε α → Log Q A → Prop
  | .done a, log => R (.ok a) log
  | .fail e, log => R (.error e) log
  | .ask q k, log => P log q ∧ ∀ a, keeps P R (k a) (⟨q, a⟩ :: log)

variable {P : Log Q A → Q → Prop} {R R' : Except ε α → Log Q A → Prop} {d d' : Dialogue Q A ε α}
  {log : Log Q A}

theorem keeps_mono (h : d.keeps P R log) (hR : ∀ r log, R r log → R' r log) : d.keeps P R' log := by
  induction d generalizing log with
  | done a => exact hR _ _ h
  | fail e => exact hR _ _ h
  | ask q k ih => exact ⟨h.1, fun a => ih a (h.2 a)⟩

/-- Sequencing. -/
theorem keeps_bind {f : α → Dialogue Q A ε β} {R : Except ε β → Log Q A → Prop}
    (h : d.keeps P (fun r log => match r with
      | .ok a => (f a).keeps P R log
      | .error e => R (.error e) log) log) : (d >>= f).keeps P R log := by
  induction d generalizing log with
  | done a => exact h
  | fail e => exact h
  | ask q k ih => exact ⟨h.1, fun a => ih a (h.2 a)⟩

theorem keeps_ofExcept {r : Except ε α} (h : R r log) : (ofExcept r).keeps P R log := by
  cases r with
  | ok a => exact h
  | error e => exact h

/-- **`keeps` is about every way the dialogue may go.** -/
theorem keeps_iff : d.keeps P R [] ↔
    (∀ log q k, Reaches d log (.ask q k) → P log q) ∧ (∀ log a, Reaches d log (.done a) → R (.ok a) log) ∧
      ∀ log e, Reaches d log (.fail e) → R (.error e) log := by
  constructor
  · intro h
    have hreaches : ∀ {log d'}, Reaches d log d' → d'.keeps P R log := by
      intro log d' hr
      induction hr with
      | here => exact h
      | step a _ ih => exact ih.2 a
    exact ⟨fun _ _ _ hr => (hreaches hr).1, fun _ _ hr => hreaches hr, fun _ _ hr => hreaches hr⟩
  · rintro ⟨hask, hdone, hfail⟩
    have hkeeps : ∀ d' log, Reaches d log d' → d'.keeps P R log := by
      intro d'
      induction d' with
      | done a => exact fun log => hdone log a
      | fail e => exact fun log => hfail log e
      | ask q k ih => exact fun log hr => ⟨hask log q k hr, fun a => ih a _ (.step a hr)⟩
    exact hkeeps d [] .here

/-! ## Answers -/

variable {σ Λ ε' : Type}

/-- The dialogue, with its questions answered by `answer`. -/
def perform (answer : ∀ q, Proc σ Λ ε' (A q)) (raise : ε → ε') : Dialogue Q A ε α → Proc σ Λ ε' α
  | .done a => .done a
  | .fail e => .fail (raise e)
  | .ask q k => (answer q).bind fun a => (k a).perform answer raise

end Dialogue

namespace Sequential

variable {σ Λ ι ε ε' δ δ' α Q : Type} {A : Q → Type} {S : System σ Λ ι δ δ'} {L : Logic S} {t : ℕ} {i : ι}

/-- **What a dialogue warrants may be used where its questions are answered.**  `I log v` is what is
known in the view `v` after the exchanges of `log`. -/
theorem keeps_perform {P : Dialogue.Log Q A → Q → Prop} {R : Except ε α → Dialogue.Log Q A → Prop}
    {d : Dialogue Q A ε α} {answer : ∀ q, Proc σ Λ ε' (A q)} {raise : ε → ε'} {log : Dialogue.Log Q A}
    {I : Dialogue.Log Q A → View σ Λ ι → Prop} {post : Except ε' α → View σ Λ ι → Prop} {v : View σ Λ ι}
    (hd : d.keeps P R log) (hv : I log v)
    (hanswer : ∀ log q v, P log q → I log v → keeps L t i (answer q) (fun r u => match r with
      | .ok a => I (⟨q, a⟩ :: log) u
      | .error e => post (.error e) u) v)
    (hok : ∀ a log u, R (.ok a) log → I log u → post (.ok a) u)
    (herror : ∀ e log u, R (.error e) log → I log u → post (.error (raise e)) u) :
    keeps L t i (d.perform answer raise) post v := by
  induction d generalizing log v with
  | done a => exact hok a log v hd hv
  | fail e => exact herror e log v hd hv
  | ask q k ih =>
      refine keeps_bind (keeps_mono (hanswer log q v hd.1 hv) ?_)
      rintro (e | a) u hu
      · exact hu
      · exact ih a (hd.2 a) hu

end Sequential

end Process
