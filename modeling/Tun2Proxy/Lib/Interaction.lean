/-
  File:      Tun2Proxy/Lib/Interaction.lean
  Subject:   Programs that call an outside system, and what holds while they run.

  A program (`Prog`) returns a value or calls an operation and goes on with its result. Results
  are not under its control: `step` says which results an operation may have in a state and what
  it leaves behind, and `others` what may happen to the state between two calls.

  `Safe p Q s`: started in `s`, whatever the results are and whatever others do, every call of `p`
  is one that is allowed in the state it is made in, and the value it returns meets `Q`. `Triple`
  is the same for every state with a precondition. `Runs` is a run with nobody else around, and
  `Traced` one with its calls.
-/
import Mathlib.Logic.Relation

open Relation

/-- A program over the operations `Op`, whose results have the types `Res`. -/
inductive Prog (Op : Type) (Res : Op → Type) (α : Type) where
  | pure (a : α)
  | call (op : Op) (k : Res op → Prog Op Res α)

namespace Prog

variable {Op : Type} {Res : Op → Type} {α β σ : Type}

def bind (p : Prog Op Res α) (f : α → Prog Op Res β) : Prog Op Res β :=
  match p with
  | .pure a => f a
  | .call op k => .call op fun r => (k r).bind f

instance : Monad (Prog Op Res) where
  pure := .pure
  bind := .bind

/-- One call. -/
def perform (op : Op) : Prog Op Res (Res op) := .call op .pure

/-- Where programs run. -/
structure Setting (σ Op : Type) (Res : Op → Type) where
  /-- In this state, the operation may return this result and leave that state. -/
  step : σ → (op : Op) → Res op → σ → Prop
  /-- What may happen between two calls. -/
  others : σ → σ → Prop
  /-- The calls a program may make. -/
  allowed : σ → Op → Prop

/-! ## 1. Safety -/

/-- Every call is allowed, and the value returned meets `Q`. -/
def Safe (S : Setting σ Op Res) : Prog Op Res α → (α → σ → Prop) → σ → Prop
  | .pure a, Q, s => ∀ s', ReflTransGen S.others s s' → Q a s'
  | .call op k, Q, s => ∀ s', ReflTransGen S.others s s' →
      S.allowed s' op ∧ ∀ r s'', S.step s' op r s'' → Safe S (k r) Q s''

variable {S : Setting σ Op Res} {p : Prog Op Res α} {Q Q' : α → σ → Prop} {s s' : σ}

/-- What others do does not make a program unsafe. -/
theorem Safe.others (h : Safe S p Q s) (hs : ReflTransGen S.others s s') : Safe S p Q s' := by
  cases p with
  | pure a => exact fun s'' h'' => h s'' (hs.trans h'')
  | call op k => exact fun s'' h'' => h s'' (hs.trans h'')

theorem Safe.result {a : α} (h : Safe S (.pure a) Q s) : Q a s := h s .refl

theorem Safe.allowed {op : Op} {k : Res op → Prog Op Res α} (h : Safe S (.call op k) Q s) :
    S.allowed s op :=
  (h s .refl).1

theorem Safe.step {op : Op} {k : Res op → Prog Op Res α} {r : Res op}
    (h : Safe S (.call op k) Q s) (hs : S.step s op r s') : Safe S (k r) Q s' :=
  (h s .refl).2 r s' hs

theorem Safe.mono (h : Safe S p Q s) (hQ : ∀ a s, Q a s → Q' a s) : Safe S p Q' s := by
  induction p generalizing s with
  | pure a => exact fun s' hs => hQ a s' (h s' hs)
  | call op k ih =>
    intro s' hs
    obtain ⟨hok, hk⟩ := h s' hs
    exact ⟨hok, fun r s'' hstep => ih r (hk r s'' hstep)⟩

theorem Safe.bind {f : α → Prog Op Res β} {R : β → σ → Prop}
    (h : Safe S p (fun a s => Safe S (f a) R s) s) : Safe S (p >>= f) R s := by
  induction p generalizing s with
  | pure a => exact h.result
  | call op k ih =>
    intro s' hs
    obtain ⟨hok, hk⟩ := h s' hs
    exact ⟨hok, fun r s'' hstep => ih r (hk r s'' hstep)⟩

/-- Nothing is asked of the program when every call is allowed. -/
theorem Safe.of_allowed (h : ∀ s op, S.allowed s op) : Safe S p (fun _ _ => True) s := by
  induction p generalizing s with
  | pure a => exact fun _ _ => trivial
  | call op k ih => exact fun s' _ => ⟨h s' op, fun r _ _ => ih r⟩

theorem Safe.seq {f : α → Prog Op Res β} {R : β → σ → Prop} (hp : Safe S p Q s)
    (hf : ∀ a s, Q a s → Safe S (f a) R s) : Safe S (p >>= f) R s :=
  Safe.bind (hp.mono hf)

/-! ## 2. Triples -/

/-- Others keep the assertion. -/
def Stable (S : Setting σ Op Res) (P : σ → Prop) : Prop := ∀ ⦃s s'⦄, S.others s s' → P s → P s'

theorem Stable.reach {P : σ → Prop} (hP : Stable S P) (h : P s) (hs : ReflTransGen S.others s s') :
    P s' := by
  induction hs with
  | refl => exact h
  | tail _ hstep ih => exact hP hstep ih

/-- From every state with `P`, the program is safe. -/
def Triple (S : Setting σ Op Res) (P : σ → Prop) (p : Prog Op Res α) (Q : α → σ → Prop) : Prop :=
  ∀ s, P s → Safe S p Q s

/-! ## 3. Undisturbed runs -/

/-- The program returns `a` and leaves `s'`, with nobody else around. -/
inductive Runs (step : σ → (op : Op) → Res op → σ → Prop) : Prog Op Res α → σ → α → σ → Prop
  | pure (a : α) (s : σ) : Runs step (.pure a) s a s
  | call {op : Op} {k : Res op → Prog Op Res α} {s s' s'' : σ} {r : Res op} {a : α}
      (hstep : step s op r s') (rest : Runs step (k r) s' a s'') : Runs step (.call op k) s a s''

theorem Safe.runs {a : α} (h : Safe S p Q s) (hr : Runs S.step p s a s') : Q a s' := by
  induction hr with
  | pure a s => exact h.result
  | call hstep rest ih => exact ih (h.step hstep)

section Runs

variable {step : σ → (op : Op) → Res op → σ → Prop} {a b : α}

theorem runs_pure : Runs step (pure a : Prog Op Res α) s b s' ↔ b = a ∧ s' = s := by
  constructor
  · intro h
    cases h
    exact ⟨rfl, rfl⟩
  · intro h
    obtain ⟨rfl, rfl⟩ := h
    exact .pure b s'

theorem runs_bind {f : α → Prog Op Res β} {c : β} :
    Runs step (p >>= f) s c s' ↔ ∃ a t, Runs step p s a t ∧ Runs step (f a) t c s' := by
  induction p generalizing s with
  | pure a =>
    constructor
    · exact fun h => ⟨a, s, .pure a s, h⟩
    · intro h
      obtain ⟨a', t, hp, hf⟩ := h
      cases hp
      exact hf
  | call op k ih =>
    constructor
    · intro h
      cases h with
      | call hstep rest =>
        obtain ⟨a, t, hp, hf⟩ := (ih _).mp rest
        exact ⟨a, t, .call hstep hp, hf⟩
    · intro h
      obtain ⟨a, t, hp, hf⟩ := h
      cases hp with
      | call hstep rest => exact .call hstep ((ih _).mpr ⟨a, t, rest, hf⟩)

theorem runs_perform {op : Op} {f : Res op → Prog Op Res β} {c : β} :
    Runs step (perform op >>= f) s c s' ↔ ∃ r t, step s op r t ∧ Runs step (f r) t c s' := by
  constructor
  · intro h
    cases h with
    | call hstep rest => exact ⟨_, _, hstep, rest⟩
  · intro h
    obtain ⟨r, t, hstep, rest⟩ := h
    exact .call hstep rest

/-- The program on a system that gives one result. -/
def exec (answer : σ → (op : Op) → Res op × σ) : Prog Op Res α → σ → α × σ
  | .pure a, s => (a, s)
  | .call op k, s => exec answer (k (answer s op).1) (answer s op).2

theorem Runs.exec {answer : σ → (op : Op) → Res op × σ}
    (h : ∀ s op, step s op (answer s op).1 (answer s op).2) (p : Prog Op Res α) (s : σ) :
    Runs step p s (p.exec answer s).1 (p.exec answer s).2 := by
  induction p generalizing s with
  | pure a => exact .pure a s
  | call op k ih => exact .call (h s op) (ih _ _)

end Runs

/-! ## 4. Outcomes -/

/-- The program can return `a`, for some results of its calls. -/
def Outcome (p : Prog Op Res α) (a : α) : Prop := Runs (fun (_ : Unit) _ _ _ => True) p () a ()

theorem outcome_pure {a b : α} : Outcome (pure a : Prog Op Res α) b ↔ b = a :=
  runs_pure.trans (and_iff_left rfl)

theorem outcome_bind {f : α → Prog Op Res β} {c : β} :
    Outcome (p >>= f) c ↔ ∃ a, Outcome p a ∧ Outcome (f a) c :=
  runs_bind.trans ⟨fun h => by
    obtain ⟨a, t, hp, hf⟩ := h
    exact ⟨a, hp, hf⟩, fun h => by
    obtain ⟨a, hp, hf⟩ := h
    exact ⟨a, (), hp, hf⟩⟩

theorem outcome_perform {op : Op} {f : Res op → Prog Op Res β} {c : β} :
    Outcome (perform op >>= f) c ↔ ∃ r, Outcome (f r) c :=
  runs_perform.trans ⟨fun h => by
    obtain ⟨r, t, -, hf⟩ := h
    exact ⟨r, hf⟩, fun h => by
    obtain ⟨r, hf⟩ := h
    exact ⟨r, (), trivial, hf⟩⟩

theorem Runs.outcome {step : σ → (op : Op) → Res op → σ → Prop} {a : α}
    (h : Runs step p s a s') : Outcome p a := by
  induction h with
  | pure a s => exact .pure a ()
  | call _ _ ih => exact .call trivial ih

/-- The value returned is an outcome. -/
theorem Safe.outcome (h : Safe S p Q s) : Safe S p (fun a s => Q a s ∧ Outcome p a) s := by
  induction p generalizing s with
  | pure a => exact fun s' hs => ⟨h s' hs, .pure a ()⟩
  | call op k ih =>
    intro s' hs
    obtain ⟨hok, hk⟩ := h s' hs
    refine ⟨hok, fun r s'' hstep => (ih r (hk r s'' hstep)).mono fun a t ha => ?_⟩
    exact ⟨ha.1, .call trivial ha.2⟩

/-! ## 5. Calls -/

/-- Every call the program can make is one of these, and what it returns meets `P`. -/
def Within (ok : Op → Prop) (P : α → Prop) : Prog Op Res α → Prop
  | .pure a => P a
  | .call op k => ok op ∧ ∀ r, Within ok P (k r)

abbrev OnlyCalls (ok : Op → Prop) (p : Prog Op Res α) : Prop := Within ok (fun _ => True) p

section OnlyCalls

variable {ok : Op → Prop}

theorem Within.bind {P : α → Prop} {R : β → Prop} {f : α → Prog Op Res β} (hp : Within ok P p)
    (hf : ∀ a, P a → Within ok R (f a)) : Within ok R (p >>= f) := by
  induction p with
  | pure a => exact hf a hp
  | call op k ih => exact ⟨hp.1, fun r => ih r (hp.2 r)⟩

theorem Within.perform {R : β → Prop} {op : Op} {f : Res op → Prog Op Res β} (hop : ok op)
    (hf : ∀ r, Within ok R (f r)) : Within ok R (perform op >>= f) := ⟨hop, hf⟩

theorem Within.mono {ok' : Op → Prop} {P P' : α → Prop} (h : Within ok P p)
    (hok : ∀ op, ok op → ok' op) (hP : ∀ a, P a → P' a) : Within ok' P' p := by
  induction p with
  | pure a => exact hP a h
  | call op k ih => exact ⟨hok op h.1, fun r => ih r (h.2 r)⟩

theorem OnlyCalls.pure (a : α) : OnlyCalls ok (pure a : Prog Op Res α) := trivial

theorem OnlyCalls.bind {f : α → Prog Op Res β} (hp : OnlyCalls ok p)
    (hf : ∀ a, OnlyCalls ok (f a)) : OnlyCalls ok (p >>= f) := Within.bind hp fun a _ => hf a

theorem OnlyCalls.perform {op : Op} {f : Res op → Prog Op Res β} (hop : ok op)
    (hf : ∀ r, OnlyCalls ok (f r)) : OnlyCalls ok (perform op >>= f) := ⟨hop, hf⟩

/-- An assertion that every call of the program keeps holds throughout. -/
theorem OnlyCalls.safe {I : σ → Prop} (h : OnlyCalls ok p) (hI : Stable S I)
    (hallowed : ∀ s op, ok op → I s → S.allowed s op)
    (hstep : ∀ s op r s', ok op → I s → S.step s op r s' → I s') (hs : I s) :
    Safe S p (fun _ s => I s) s := by
  induction p generalizing s with
  | pure a => exact fun s' hs' => hI.reach hs hs'
  | call op k ih =>
    intro s' hs'
    have hI' := hI.reach hs hs'
    exact ⟨hallowed s' op h.1 hI', fun r s'' hr =>
      ih r (h.2 r) (hstep s' op r s'' h.1 hI' hr)⟩

end OnlyCalls

/-! ## 6. Programs one after the other -/

section Machine

variable {φ : Type}

/-- One move of a machine: others act, the program makes its next call, or it has ended in a phase
    and a program starts that may start there. -/
inductive Move (step : σ → (op : Op) → Res op → σ → Prop) (others : σ → σ → Prop)
    (next : φ → Prog Op Res φ → Prop) : Prog Op Res φ × σ → Prog Op Res φ × σ → Prop
  | others {p : Prog Op Res φ} {s s' : σ} (h : others s s') : Move step others next (p, s) (p, s')
  | call {op : Op} {k : Res op → Prog Op Res φ} {s : σ} {r : Res op} {s' : σ}
      (h : step s op r s') : Move step others next (.call op k, s) (k r, s')
  | start {a : φ} {p : Prog Op Res φ} {s : σ} (h : next a p) :
      Move step others next (.pure a, s) (p, s)

variable {next : φ → Prog Op Res φ → Prop}

/-- **Every call of the machine is allowed** when each program is safe from its phase's assertion
    on and ends in the assertion of the phase it returns. -/
theorem Safe.reach {I : φ → σ → Prop} {p p' : Prog Op Res φ}
    (hnext : ∀ a p, next a p → Triple S (I a) p I) (hs : Safe S p I s)
    (h : ReflTransGen (Move S.step S.others next) (p, s) (p', s')) : Safe S p' I s' := by
  suffices H : ∀ c, ReflTransGen (Move S.step S.others next) (p, s) c → Safe S c.1 I c.2 from
    H (p', s') h
  intro c hc
  induction hc with
  | refl => exact hs
  | tail _ hmove ih =>
    cases hmove with
    | others h => exact ih.others (.single h)
    | call h => exact ih.step h
    | start h => exact hnext _ _ h _ ih.result

/-- An undisturbed run of the program is one way for the machine to go on. -/
theorem Runs.moves {step : σ → (op : Op) → Res op → σ → Prop} {others : σ → σ → Prop}
    {p : Prog Op Res φ} {a : φ} (h : Runs step p s a s') :
    ReflTransGen (Move step others next) (p, s) (.pure a, s') := by
  induction h with
  | pure a s => exact .refl
  | call hstep rest ih => exact .head (.call hstep) ih

end Machine

/-! ## 7. Runs with their calls -/

/-- A call as it was made: in which state, and with which result. -/
structure Call (σ Op : Type) (Res : Op → Type) where
  state : σ
  op : Op
  result : Res op

/-- The program returns `a` and leaves `s'`, and `log` holds the calls it made. -/
inductive Traced (step : σ → (op : Op) → Res op → σ → Prop) :
    Prog Op Res α → σ → List (Call σ Op Res) → α → σ → Prop
  | pure (a : α) (s : σ) : Traced step (.pure a) s [] a s
  | call {op : Op} {k : Res op → Prog Op Res α} {s s' s'' : σ} {r : Res op} {a : α}
      {log : List (Call σ Op Res)} (hstep : step s op r s')
      (rest : Traced step (k r) s' log a s'') : Traced step (.call op k) s (⟨s, op, r⟩ :: log) a s''

section Traced

variable {step : σ → (op : Op) → Res op → σ → Prop} {a b : α} {log : List (Call σ Op Res)}

theorem traced_bind {f : α → Prog Op Res β} {c : β} (h : Traced step (p >>= f) s log c s') :
    ∃ a t log₁ log₂, Traced step p s log₁ a t ∧ Traced step (f a) t log₂ c s' ∧
      log = log₁ ++ log₂ := by
  induction p generalizing s log with
  | pure a => exact ⟨a, s, [], log, .pure a s, h, rfl⟩
  | call op k ih =>
    cases h with
    | call hstep rest =>
      obtain ⟨a, t, log₁, log₂, hp, hf, rfl⟩ := ih _ rest
      exact ⟨a, t, _ :: log₁, log₂, .call hstep hp, hf, rfl⟩

theorem traced_perform {op : Op} {f : Res op → Prog Op Res β} {c : β}
    (h : Traced step (perform op >>= f) s log c s') :
    ∃ r t log', step s op r t ∧ Traced step (f r) t log' c s' ∧ log = ⟨s, op, r⟩ :: log' := by
  cases h with
  | call hstep rest => exact ⟨_, _, _, hstep, rest, rfl⟩

/-- A function of the state that no call of the program changes. -/
theorem OnlyCalls.traced {ok : Op → Prop} {γ : Type} (view : σ → γ) (hp : OnlyCalls ok p)
    (hview : ∀ s op r s', ok op → step s op r s' → view s' = view s)
    (h : Traced step p s log a s') : view s' = view s ∧ ∀ c ∈ log, ok c.op := by
  induction h with
  | pure a s => exact ⟨rfl, nofun⟩
  | call hstep rest ih =>
    obtain ⟨hsame, hok⟩ := ih (hp.2 _)
    refine ⟨hsame.trans (hview _ _ _ _ hp.1 hstep), fun c hc => ?_⟩
    cases hc with
    | head => exact hp.1
    | tail _ hc => exact hok c hc

/-- The calls of the program on a system that gives one result. -/
def calls (answer : σ → (op : Op) → Res op × σ) : Prog Op Res α → σ → List (Call σ Op Res)
  | .pure _, _ => []
  | .call op k, s =>
    ⟨s, op, (answer s op).1⟩ :: calls answer (k (answer s op).1) (answer s op).2

theorem Traced.exec {answer : σ → (op : Op) → Res op × σ}
    (h : ∀ s op, step s op (answer s op).1 (answer s op).2) (p : Prog Op Res α) (s : σ) :
    Traced step p s (p.calls answer s) (p.exec answer s).1 (p.exec answer s).2 := by
  induction p generalizing s with
  | pure a => exact .pure a s
  | call op k ih => exact .call (h s op) (ih _ _)

end Traced

end Prog
