/-
  File:      Tun2Proxy/DnsRouting/Losses.lean
  Subject:   Who learns that DNS events were lost (`Trace::checkpoint` and `Trace::synchronize` of
             src/dns_routing/windows.rs).

  A flush reports the events lost so far, and `checkpoint` turns the report into an error. The error
  goes to the call that issued the checkpoint and to no other one. The checkpoint itself is in the
  stream by then, its delivery raises `delivered`, and a call that waited for the slot returns well
  on account of it.

  * `Recorded` is a trace with its history: who issued a checkpoint, what its flush saw, and through
    which checkpoint a call was told that all is well. The history decides nothing
    (`Reachable.trace`, `exists_reachable`).
  * `flush_slot` is held from the look at `delivered` to the return, so the number of a call that
    holds it is the newest one (`Exclusive`).
  * **`losses_reported`**: if the call that issued the checkpoint was told that all is well, nothing
    had been lost when its flush completed. For a call with a checkpoint of its own this is so.
  * `losses_hidden`: if that call was told of the loss, another one still is not.
-/
import Tun2Proxy.DnsRouting.Trace

namespace Tun2Proxy.DnsRouting

/-! ## 1. A trace with its history -/

/-- A flush that completed, and the events lost by then. -/
structure Flush where
  time : Nat
  lost : List TraceEvent
  deriving DecidableEq

structure Recorded (ι : Type) where
  trace : Trace ι
  /-- The call that took this number. -/
  issuer : Nat → Option ι
  /-- The flush of the checkpoint with this number. -/
  flushed : Nat → Option Flush
  /-- The checkpoint through which this call was told that all is well. -/
  fence : ι → Option Nat

namespace Recorded

variable {ι : Type} [DecidableEq ι]

def start : Recorded ι := ⟨Trace.start, fun _ => none, fun _ => none, fun _ => none⟩

/-- A call waits for the task of its checkpoint as soon as it has the number. -/
def issuerAfter (w : Recorded ι) (i : ι) : CallerPhase → Nat → Option ι
  | .awaiting _ _ n => Function.update w.issuer n (some i)
  | _ => w.issuer

/-- The checkpoint that lets a call go from one phase to the other: the last one delivered when it
    looked at `delivered` with the slot in its hands, or its own. -/
def fencedBy (w : Recorded ι) : CallerPhase → CallerPhase → Option Nat
  | .holding _ _, .returned _ true => some w.trace.delivered
  | .watching _ _ n, .returned _ true => some n
  | _, _ => none

def setTrace (w : Recorded ι) (s : Trace ι) : Recorded ι := { w with trace := s.tick }

def caller (w : Recorded ι) (i : ι) (s : Trace ι) : Recorded ι :=
  { w with
    trace := s.tick
    issuer := w.issuerAfter i (s.callers i)
    fence := Function.update w.fence i (w.fencedBy (w.trace.callers i) (s.callers i)) }

/-- The flush of a checkpoint completes. -/
def flush (w : Recorded ι) (n : Nat) : Recorded ι :=
  { w with
    trace := (w.trace.setCheckpoint n (.done w.trace.lost.isEmpty)).tick
    flushed := Function.update w.flushed n (some ⟨w.trace.clock, w.trace.lost⟩) }

inductive Step (w : Recorded ι) : Recorded ι → Prop
  | caller {i : ι} {s : Trace ι} (h : w.trace.CallerStep i s) : Step w (w.caller i s)
  | checkpoint {n : Nat} {s : Trace ι} (h : w.trace.CheckpointStep n s)
      (hn : w.trace.checkpoints n ≠ some .written) : Step w (w.setTrace s)
  | flush {n : Nat} (h : w.trace.checkpoints n = some .written) : Step w (w.flush n)
  | flushFails {n : Nat} (h : w.trace.checkpoints n = some .written) :
      Step w (w.setTrace (w.trace.setCheckpoint n (.done false)))
  | stream {s : Trace ι} (h : w.trace.StreamStep s) : Step w (w.setTrace s)

inductive Reachable : Recorded ι → Prop
  | start : Reachable start
  | step {w w' : Recorded ι} (hw : Reachable w) (h : w.Step w') : Reachable w'

variable {w w' : Recorded ι} {s : Trace ι} {i : ι}

/-- A step with history is a step of the trace. -/
theorem Step.trace (h : w.Step w') : w.trace.Step w'.trace := by
  cases h with
  | caller h => exact .caller h
  | checkpoint h hn => exact .checkpoint h
  | flush h => exact .checkpoint (.flush h)
  | flushFails h => exact .checkpoint (.flushFails h)
  | stream h => exact .stream h

theorem Reachable.trace (h : Reachable w) : Trace.Reachable w.trace := by
  induction h with
  | start => exact .start
  | step _ hstep ih => exact ih.step hstep.trace

/-- Every step of the trace is one with history. -/
theorem exists_step (h : w.trace.Step s) : ∃ w', w.Step w' ∧ w'.trace = s := by
  cases h with
  | caller h => exact ⟨_, .caller h, rfl⟩
  | stream h => exact ⟨_, .stream h, rfl⟩
  | @checkpoint n s' h =>
    by_cases hn : w.trace.checkpoints n = some .written
    · cases h with
      | flush _ => exact ⟨_, .flush hn, rfl⟩
      | flushFails _ => exact ⟨_, .flushFails hn, rfl⟩
      | begin h | write h | writeFails h =>
        rw [hn] at h
        cases h
    · exact ⟨_, .checkpoint h hn, rfl⟩

/-- **The history changes nothing**: it is there for every run of the trace. -/
theorem exists_reachable (h : Trace.Reachable s) : ∃ w, Reachable w ∧ w.trace = s := by
  induction h with
  | start => exact ⟨_, .start, rfl⟩
  | step _ hstep ih =>
    obtain ⟨w, hw, rfl⟩ := ih
    obtain ⟨w', hstep', htrace⟩ := exists_step hstep
    exact ⟨w', hw.step hstep', htrace⟩

end Recorded

/-! ## 2. The slot -/

namespace Trace

variable {ι : Type} [DecidableEq ι] {s s' : Trace ι} {i j : ι}

/-- What a call in this phase has to do with the slot. -/
def SlotOk (s : Trace ι) (i : ι) : CallerPhase → Prop
  | .holding _ _ => s.flushSlot = some i
  | .awaiting _ _ n | .watching _ _ n => s.flushSlot = some i ∧ n = s.sequence
  | _ => True

/-- **One call at a time** has the slot, and its number is the newest one. -/
def Exclusive (s : Trace ι) : Prop := ∀ i, s.SlotOk i (s.callers i)

omit [DecidableEq ι] in
theorem SlotOk.of_kept {phase : CallerPhase} (h : s.SlotOk i phase)
    (hkept : s.flushSlot = some i → s'.flushSlot = some i ∧ s'.sequence = s.sequence) :
    s'.SlotOk i phase := by
  cases phase with
  | idle | began | queued | returned | dropped => trivial
  | holding => exact (hkept h).1
  | awaiting | watching =>
    obtain ⟨hslot, hsequence⟩ := hkept h.1
    exact ⟨hslot, h.2.trans hsequence.symm⟩

theorem released_of_ne (hj : s.flushSlot = some j) (hij : j ≠ i) : s.released i = some j := by
  grind [released]

theorem CallerStep.callers_of_ne (h : s.CallerStep i s') (hj : j ≠ i) :
    s'.callers j = s.callers j := by
  cases h <;> exact Function.update_of_ne hj _ _

/-- Who has the slot keeps it while another call moves. -/
theorem Exclusive.kept (h : s.Exclusive) (hstep : s.CallerStep i s') (hij : j ≠ i)
    (hj : s.flushSlot = some j) : s'.flushSlot = some j ∧ s'.sequence = s.sequence := by
  have hok := h i
  cases hstep with
  | begin | load | written => exact ⟨hj, rfl⟩
  | lock hi hfree => cases hfree.symm.trans hj
  | fetch hi hdelivered =>
    rw [hi] at hok
    exact absurd (Option.some.inj (hok.symm.trans hj)).symm hij
  | shared | failed | fenced | drop => exact ⟨released_of_ne hj hij, rfl⟩

theorem Exclusive.caller (h : s.Exclusive) (hstep : s.CallerStep i s') : s'.tick.Exclusive := by
  intro j
  show s'.tick.SlotOk j (s'.callers j)
  by_cases hj : j = i
  · subst hj
    have hok := h j
    cases hstep with
    | begin hi | load hi | shared hi | failed hi | fenced hi | drop hi =>
      simp only [setCaller, Function.update_self]
      trivial
    | lock hi hfree =>
      simp only [setCaller, Function.update_self]
      rfl
    | fetch hi hdelivered =>
      rw [hi] at hok
      simp only [setCaller, setCheckpoint, Function.update_self]
      exact ⟨hok, rfl⟩
    | written hi hdone =>
      rw [hi] at hok
      simp only [setCaller, Function.update_self]
      exact hok
  · rw [hstep.callers_of_ne hj]
    have hkept := h.kept hstep hj
    exact (h j).of_kept hkept

omit [DecidableEq ι] in
/-- The others have nothing to do with the slot. -/
theorem Exclusive.of_same (h : s.Exclusive) (hcallers : s'.callers = s.callers)
    (hslot : s'.flushSlot = s.flushSlot) (hsequence : s'.sequence = s.sequence) :
    s'.tick.Exclusive := by
  intro j
  show s'.tick.SlotOk j (s'.callers j)
  rw [hcallers]
  exact (h j).of_kept fun hj => ⟨hslot.trans hj, hsequence⟩

theorem Exclusive.step (h : s.Exclusive) (hstep : s.Step s') : s'.Exclusive := by
  cases hstep with
  | caller hstep => exact h.caller hstep
  | checkpoint hstep => cases hstep <;> exact h.of_same rfl rfl rfl
  | stream hstep => cases hstep <;> exact h.of_same rfl rfl rfl

omit [DecidableEq ι] in
/-- **A call that sees its number delivered** sees its own checkpoint: no number is above it. -/
theorem Sound.delivered_own (h : s.Sound) (hexclusive : s.Exclusive) {began observed n : Nat}
    (hi : s.callers i = .watching began observed n) (hn : n ≤ s.delivered) : s.delivered = n := by
  have hok := hexclusive i
  rw [hi] at hok
  have hnewest : n = s.sequence := hok.2
  rcases h.delivered with hzero | ⟨event, hevent, t, hkind⟩
  · omega
  · have hle := ((h.streamed event (h.received event hevent)).2 _ t hkind).1
    omega

end Trace

/-! ## 3. What the history says -/

namespace Recorded

variable {ι : Type} [DecidableEq ι] {w w' : Recorded ι} {s : Trace ι} {i j : ι}

/-- The tasks of the checkpoints and their flushes. -/
structure Tasks (w : Recorded ι) : Prop where
  issued : ∀ n, (w.trace.checkpoints n).isSome = (w.issuer n).isSome
  streamed : ∀ event ∈ w.trace.stream, ∀ n t, event.kind = .checkpoint n t →
    (w.trace.checkpoints n).isSome = true
  /-- A task that went well has flushed what it wrote, and nothing had been lost. -/
  flushed : ∀ n, w.trace.checkpoints n = some (.done true) → ∃ flush, w.flushed n = some flush ∧
    flush.lost = [] ∧
    ∀ event ∈ w.trace.stream, ∀ t, event.kind = .checkpoint n t → event.time < flush.time

/-- What is known of a call in each phase: it takes one number at most, and is told that all is well
    only after the task of this number went well. -/
def CallerOk (w : Recorded ι) (i : ι) : CallerPhase → Prop
  | .idle | .began _ | .queued _ _ | .holding _ _ => ∀ n, w.issuer n ≠ some i
  | .awaiting _ _ m => ∀ n, w.issuer n = some i → n = m
  | .watching _ _ m =>
    (∀ n, w.issuer n = some i → n = m) ∧ w.trace.checkpoints m = some (.done true)
  | .returned began true =>
    (∀ n, w.issuer n = some i → w.trace.checkpoints n = some (.done true)) ∧
    ∃ m, w.fence i = some m ∧
      ∃ event ∈ w.trace.received, ∃ t, event.kind = .checkpoint m t ∧ began < t
  | .returned _ false | .dropped => True

/-- **The invariant.** -/
structure Known (w : Recorded ι) : Prop where
  sound : w.trace.Sound
  exclusive : w.trace.Exclusive
  tasks : w.Tasks
  callers : ∀ i, w.CallerOk i (w.trace.callers i)

/-- What a step of another party leaves to a call. -/
structure Keeps (w w' : Recorded ι) (i : ι) : Prop where
  issuer : ∀ n, w'.issuer n = some i → w.issuer n = some i
  done : ∀ n, w.trace.checkpoints n = some (.done true) →
    w'.trace.checkpoints n = some (.done true)
  fence : w'.fence i = w.fence i
  received : w.trace.received ⊆ w'.trace.received

omit [DecidableEq ι] in
theorem CallerOk.keep {phase : CallerPhase} (h : w.CallerOk i phase) (hkeeps : w.Keeps w' i) :
    w'.CallerOk i phase := by
  cases phase with
  | idle | began | queued | holding | awaiting => exact fun n hn => h n (hkeeps.issuer n hn)
  | watching => exact ⟨fun n hn => h.1 n (hkeeps.issuer n hn), hkeeps.done _ h.2⟩
  | dropped => trivial
  | returned began ok =>
    cases ok with
    | false => trivial
    | true =>
      obtain ⟨hdone, m, hm, event, hevent, hrest⟩ := h
      exact ⟨fun n hn => hkeeps.done n (hdone n (hkeeps.issuer n hn)), m, hkeeps.fence.trans hm,
        event, hkeeps.received hevent, hrest⟩

/-! ### A call moves -/

/-- **What a call does to the tasks**: nothing, or it takes the next number. -/
theorem caller_cases (h : w.trace.CallerStep i s) :
    (w.caller i s).issuer = w.issuer ∧ s.checkpoints = w.trace.checkpoints ∨
    (w.caller i s).issuer = Function.update w.issuer (w.trace.sequence + 1) (some i) ∧
      s.checkpoints =
        Function.update w.trace.checkpoints (w.trace.sequence + 1) (some .spawned) := by
  have hissuer : (w.caller i s).issuer = w.issuerAfter i (s.callers i) := rfl
  rw [hissuer]
  cases h with
  | begin | load | lock | shared | written | failed | fenced | drop =>
    refine .inl ⟨?_, rfl⟩
    simp only [Trace.setCaller, Function.update_self]
    rfl
  | fetch hi hdelivered =>
    refine .inr ⟨?_, rfl⟩
    simp only [Trace.setCaller, Trace.setCheckpoint, Function.update_self]
    rfl

theorem caller_stream (h : w.trace.CallerStep i s) :
    s.stream = w.trace.stream ∧ s.received = w.trace.received := by
  cases h <;> exact ⟨rfl, rfl⟩

omit [DecidableEq ι] in
/-- The next number is a new one. -/
theorem Known.fresh (h : w.Known) : w.trace.checkpoints (w.trace.sequence + 1) = none := by
  cases hphase : w.trace.checkpoints (w.trace.sequence + 1) with
  | none => rfl
  | some phase =>
    have hle := h.sound.numbered (w.trace.sequence + 1) (by rw [hphase]; rfl)
    omega

theorem Known.keeps_caller (h : w.Known) (hstep : w.trace.CallerStep i s) (hj : j ≠ i) :
    w.Keeps (w.caller i s) j where
  issuer n hn := by
    rcases caller_cases hstep with ⟨hissuer, -⟩ | ⟨hissuer, -⟩
    · rwa [hissuer] at hn
    · rw [hissuer] at hn
      grind [Function.update_apply]
  done n hn := by
    change s.checkpoints n = _
    rcases caller_cases hstep with ⟨-, hsame⟩ | ⟨-, hnew⟩
    · rwa [hsame]
    · rw [hnew]
      grind [Function.update_apply, h.fresh]
  fence := Function.update_of_ne hj _ _
  received := (caller_stream hstep).2 ▸ List.Subset.refl _

theorem Known.tasks_caller (h : w.Known) (hstep : w.trace.CallerStep i s) :
    (w.caller i s).Tasks := by
  have hstream : (w.caller i s).trace.stream = w.trace.stream := (caller_stream hstep).1
  rcases caller_cases hstep with ⟨hissuer, hsame⟩ | ⟨hissuer, hnew⟩
  · have hsame : (w.caller i s).trace.checkpoints = w.trace.checkpoints := hsame
    exact ⟨hsame ▸ hissuer ▸ h.tasks.issued, hsame ▸ hstream ▸ h.tasks.streamed,
      hsame ▸ hstream ▸ h.tasks.flushed⟩
  · have hnew : (w.caller i s).trace.checkpoints = _ := hnew
    constructor
    · intro n
      rw [hnew, hissuer]
      grind [Function.update_apply, h.tasks.issued n]
    · intro event hevent n t hkind
      have hold := h.tasks.streamed event (hstream ▸ hevent) n t hkind
      rw [hnew]
      grind [Function.update_apply]
    · intro n hdone
      rw [hnew] at hdone
      rw [hstream]
      refine h.tasks.flushed n ?_
      grind [Function.update_apply]

/-- The phases of the call that moves. -/
theorem Known.moved (h : w.Known) (hstep : w.trace.CallerStep i s) :
    (w.caller i s).CallerOk i (s.callers i) := by
  have hok := h.callers i
  have hknown := h.sound.callers i
  cases hstep with
  | begin hi | load hi | lock hi hfree =>
    rw [hi] at hok
    simp only [caller, Trace.setCaller, Function.update_self]
    exact hok
  | failed hi hdone | drop hi =>
    simp only [Trace.setCaller, Function.update_self]
    trivial
  | fetch hi hdelivered =>
    rw [hi] at hok
    simp only [caller, Trace.setCaller, Trace.setCheckpoint, Function.update_self]
    intro n hn
    have hn : Function.update w.issuer (w.trace.sequence + 1) (some i) n = some i := hn
    have hnot := hok n
    grind [Function.update_apply]
  | written hi hdone =>
    rw [hi] at hok
    simp only [caller, Trace.setCaller, Function.update_self]
    exact ⟨hok, hdone⟩
  | @shared began observed hi hdelivered =>
    rw [hi] at hok hknown
    simp only [caller, Trace.setCaller, Function.update_self, hi]
    have hevent := h.sound.delivered_after hknown hdelivered
    exact ⟨fun n hn => absurd hn (hok n), _, Function.update_self .., hevent⟩
  | @fenced began observed n hi hdelivered =>
    rw [hi] at hok hknown
    simp only [caller, Trace.setCaller, Function.update_self, hi]
    obtain ⟨hown, hdone⟩ := hok
    have hevent := h.sound.delivered_after hknown.1 (Nat.lt_of_lt_of_le hknown.2 hdelivered)
    rw [h.sound.delivered_own h.exclusive hi hdelivered] at hevent
    exact ⟨fun m hm => hown m hm ▸ hdone, _, Function.update_self .., hevent⟩

theorem Known.caller (h : w.Known) (hstep : w.trace.CallerStep i s) : (w.caller i s).Known where
  sound := h.sound.caller hstep
  exclusive := h.exclusive.caller hstep
  tasks := h.tasks_caller hstep
  callers j := by
    show (w.caller i s).CallerOk j (s.callers j)
    by_cases hj : j = i
    · subst hj
      exact h.moved hstep
    · rw [hstep.callers_of_ne hj]
      exact (h.callers j).keep (h.keeps_caller hstep hj)

/-! ### A task moves -/

/-- **What the task of a checkpoint does**: it goes on from a phase that is not its end, and writes
    nothing but its checkpoint. -/
structure TaskMoves (w w' : Recorded ι) (n : Nat) : Prop where
  issuer : w'.issuer = w.issuer
  fence : w'.fence = w.fence
  callers : w'.trace.callers = w.trace.callers
  received : w'.trace.received = w.trace.received
  going : ∃ phase, w.trace.checkpoints n = some phase ∧ phase ≠ .done true
  checkpoints : ∃ phase, w'.trace.checkpoints = Function.update w.trace.checkpoints n (some phase)
  stream : ∀ event ∈ w'.trace.stream, event ∈ w.trace.stream ∨ ∃ t, event.kind = .checkpoint n t
  others : ∀ m, m ≠ n → w'.flushed m = w.flushed m
  flushed : w'.trace.checkpoints n = some (.done true) → ∃ flush, w'.flushed n = some flush ∧
    flush.lost = [] ∧
    ∀ event ∈ w'.trace.stream, ∀ t, event.kind = .checkpoint n t → event.time < flush.time

namespace TaskMoves

omit [DecidableEq ι]

variable {n : Nat}

theorem keeps (h : w.TaskMoves w' n) (i : ι) : w.Keeps w' i where
  issuer m hm := h.issuer ▸ hm
  done m hm := by
    obtain ⟨old, hold, hgoing⟩ := h.going
    obtain ⟨phase, hphase⟩ := h.checkpoints
    rw [hphase]
    grind [Function.update_apply]
  fence := by rw [h.fence]
  received := h.received ▸ List.Subset.refl _

theorem isSome (h : w.TaskMoves w' n) (m : Nat) :
    (w'.trace.checkpoints m).isSome = (w.trace.checkpoints m).isSome := by
  obtain ⟨old, hold, -⟩ := h.going
  obtain ⟨phase, hphase⟩ := h.checkpoints
  rw [hphase]
  grind [Function.update_apply]

theorem tasks (h : w.TaskMoves w' n) (hw : w.Tasks) : w'.Tasks where
  issued m := (h.isSome m).trans (h.issuer ▸ hw.issued m)
  streamed event hevent m t hkind := by
    rw [h.isSome m]
    rcases h.stream event hevent with hold | ⟨t', hnew⟩
    · exact hw.streamed event hold m t hkind
    · obtain ⟨phase, hphase, -⟩ := h.going
      rw [hkind] at hnew
      cases hnew
      rw [hphase]
      rfl
  flushed m hm := by
    by_cases hmn : m = n
    · subst hmn
      exact h.flushed hm
    · obtain ⟨phase, hphase⟩ := h.checkpoints
      rw [hphase, Function.update_of_ne hmn] at hm
      obtain ⟨flush, hflush, hlost, hevents⟩ := hw.flushed m hm
      refine ⟨flush, (h.others m hmn).trans hflush, hlost, fun event hevent t hkind => ?_⟩
      -- what is new in the stream is the checkpoint of this task
      rcases h.stream event hevent with hold | ⟨t', hnew⟩
      · exact hevents event hold t hkind
      · cases hkind.symm.trans hnew
        exact absurd rfl hmn

theorem known [DecidableEq ι] (h : w.TaskMoves w' n) (hw : w.Known)
    (hstep : w.trace.Step w'.trace) : w'.Known where
  sound := hw.sound.step hstep
  exclusive := hw.exclusive.step hstep
  tasks := h.tasks hw.tasks
  callers i := by
    rw [h.callers]
    exact (hw.callers i).keep (h.keeps i)

/-- A step that ends no flush. -/
theorem of_step (hstep : w.trace.CheckpointStep n s)
    (hn : w.trace.checkpoints n ≠ some .written) : w.TaskMoves (w.setTrace s) n := by
  have hnot : ∀ phase, phase ≠ .done true →
      Function.update w.trace.checkpoints n (some phase) n ≠ some (.done true) := by simp
  cases hstep with
  | begin h | writeFails h =>
    exact ⟨rfl, rfl, rfl, rfl, ⟨_, h, nofun⟩, ⟨_, rfl⟩, fun _ => .inl, fun _ _ => rfl,
      fun hdone => absurd hdone (hnot _ nofun)⟩
  | @write began h =>
    refine ⟨rfl, rfl, rfl, rfl, ⟨_, h, nofun⟩, ⟨_, rfl⟩, fun event hevent => ?_, fun _ _ => rfl,
      fun hdone => absurd hdone (hnot _ nofun)⟩
    rcases List.mem_append.mp hevent with hold | hnew
    · exact .inl hold
    · exact .inr ⟨began, List.mem_singleton.mp hnew ▸ rfl⟩
  | flush h | flushFails h => exact absurd h hn

theorem of_flushFails (h : w.trace.checkpoints n = some .written) :
    w.TaskMoves (w.setTrace (w.trace.setCheckpoint n (.done false))) n := by
  refine ⟨rfl, rfl, rfl, rfl, ⟨_, h, nofun⟩, ⟨_, rfl⟩, fun _ => .inl, fun _ _ => rfl,
    fun hdone => ?_⟩
  cases (Function.update_self ..).symm.trans hdone

/-- **A flush that completes** ends the task well only if nothing has been lost by then. -/
theorem of_flush (hw : w.trace.Sound) (h : w.trace.checkpoints n = some .written) :
    w.TaskMoves (w.flush n) n := by
  refine ⟨rfl, rfl, rfl, rfl, ⟨_, h, nofun⟩, ⟨_, rfl⟩, fun _ => .inl,
    fun m hm => Function.update_of_ne hm _ _, fun hdone => ?_⟩
  have hdone := (Function.update_self ..).symm.trans hdone
  have hlost : w.trace.lost.isEmpty = true := CheckpointPhase.done.inj (Option.some.inj hdone)
  refine ⟨_, Function.update_self .., List.isEmpty_iff.mp hlost, fun event hevent t _ => ?_⟩
  exact (hw.streamed event hevent).1

end TaskMoves

/-! ### The stream moves -/

theorem Known.stream (h : w.Known) (hstep : w.trace.StreamStep s) : (w.setTrace s).Known := by
  have hsound := h.sound.stream hstep
  have hexclusive := h.exclusive.step (.stream hstep)
  cases hstep with
  | query =>
    have hold : ∀ event ∈ (w.trace.append .dns).stream, ∀ n t, event.kind = .checkpoint n t →
        event ∈ w.trace.stream := by
      intro event hevent n t hkind
      rcases List.mem_append.mp hevent with hevent | hevent
      · exact hevent
      · obtain rfl := List.mem_singleton.mp hevent
        cases hkind
    refine ⟨hsound, hexclusive, ⟨h.tasks.issued, fun event hevent n t hkind => ?_,
      fun n hn => ?_⟩, h.callers⟩
    · exact h.tasks.streamed event (hold event hevent n t hkind) n t hkind
    · obtain ⟨flush, hflush, hlost, hevents⟩ := h.tasks.flushed n hn
      exact ⟨flush, hflush, hlost, fun event hevent t hkind =>
        hevents event (hold event hevent n t hkind) t hkind⟩
  | deliver hevent hlost =>
    exact ⟨hsound, hexclusive, ⟨h.tasks.issued, h.tasks.streamed, h.tasks.flushed⟩, fun i =>
      (h.callers i).keep ⟨fun _ hn => hn, fun _ hn => hn, rfl, List.subset_append_left _ _⟩⟩
  | lose hevent hdns hreceived =>
    exact ⟨hsound, hexclusive, ⟨h.tasks.issued, h.tasks.streamed, h.tasks.flushed⟩, h.callers⟩

theorem Known.step (h : w.Known) (hstep : w.Step w') : w'.Known := by
  have htrace := hstep.trace
  cases hstep with
  | caller hstep => exact h.caller hstep
  | checkpoint hstep hn => exact (TaskMoves.of_step hstep hn).known h htrace
  | flush hn => exact (TaskMoves.of_flush h.sound hn).known h htrace
  | flushFails hn => exact (TaskMoves.of_flushFails hn).known h htrace
  | stream hstep => exact h.stream hstep

omit [DecidableEq ι] in
theorem Known.start : Known (start : Recorded ι) where
  sound := Trace.Sound.start
  exclusive _ := trivial
  tasks := ⟨fun _ => rfl, nofun, fun _ => nofun⟩
  callers _ := nofun

theorem Reachable.known (h : Reachable w) : w.Known := by
  induction h with
  | start => exact Known.start
  | step _ hstep ih => exact ih.step hstep

/-! ## 4. Who learns of a loss -/

/-- The call was told that all is well. -/
def ToldOk (w : Recorded ι) (i : ι) : Prop := ∃ began, w.trace.callers i = .returned began true

/-- The stream delivers what it does not lose in the order in which it was written. -/
def InOrder (w : Recorded ι) : Prop :=
  w.trace.received <+: w.trace.stream.filter fun event => event ∉ w.trace.lost

/-- What was written before a flush is not lost after it. -/
def Handed (w : Recorded ι) (flush : Flush) : Prop :=
  ∀ event ∈ w.trace.lost, event ∈ flush.lost ∨ flush.time ≤ event.time

omit [DecidableEq ι] in
/-- Nothing was lost when the flush of a delivered checkpoint completed: what was written before the
    checkpoint has been handled. -/
theorem Known.complete (h : w.Known) {flush : Flush} (hlost : flush.lost = [])
    (horder : w.InOrder) (hhanded : w.Handed flush) {event checkpoint : TraceEvent}
    (hcheckpoint : checkpoint ∈ w.trace.received) (hflush : checkpoint.time < flush.time)
    (hevent : event ∈ w.trace.stream) (htime : event.time < checkpoint.time) :
    event ∈ w.trace.received := by
  have hkept : event ∉ w.trace.lost := by
    intro hin
    rcases hhanded event hin with hearly | hlate
    · cases hlost ▸ hearly
    · omega
  refine h.sound.complete List.filter_sublist horder hcheckpoint ?_ htime
  exact List.mem_filter.mpr ⟨hevent, by simpa using hkept⟩

/-- **Who learns of a loss.** A call that is told that all is well was fenced by a checkpoint that
    some call has issued, this one or another, and that was written after it began. If the call that
    issued it was told the same, its flush completed and nothing had been lost by then; so, in a
    stream that delivers in order and keeps what it has flushed, every DNS event written before the
    call began has been handled. -/
theorem losses_reported {began : Nat} (h : Reachable w)
    (hok : w.trace.callers i = .returned began true) :
    ∃ m j, w.fence i = some m ∧ w.issuer m = some j ∧
      (∃ event ∈ w.trace.received, ∃ t, event.kind = .checkpoint m t ∧ began < t) ∧
      (w.ToldOk j → ∃ flush, w.flushed m = some flush ∧ flush.lost = [] ∧
        (w.InOrder → w.Handed flush → ∀ event ∈ w.trace.stream, event.kind = .dns →
          event.time < began → event ∈ w.trace.received)) := by
  have hknown := h.known
  have htold := hknown.callers i
  rw [hok] at htold
  obtain ⟨-, m, hfence, checkpoint, hcheckpoint, t, hkind, hbegan⟩ := htold
  have hstreamed := hknown.sound.received checkpoint hcheckpoint
  have hissued := hknown.tasks.streamed checkpoint hstreamed m t hkind
  rw [hknown.tasks.issued m] at hissued
  obtain ⟨j, hj⟩ := Option.isSome_iff_exists.mp hissued
  refine ⟨m, j, hfence, hj, ⟨checkpoint, hcheckpoint, t, hkind, hbegan⟩, ?_⟩
  rintro ⟨began', hissuer⟩
  -- the issuer was told so because its task went well
  have hdone := hknown.callers j
  rw [hissuer] at hdone
  obtain ⟨flush, hflush, hlost, hevents⟩ := hknown.tasks.flushed m (hdone.1 m hj)
  refine ⟨flush, hflush, hlost, fun horder hhanded event hevent _ htime => ?_⟩
  have hwritten := ((hknown.sound.streamed checkpoint hstreamed).2 m t hkind).2
  exact hknown.complete hlost horder hhanded hcheckpoint
    (hevents checkpoint hstreamed t hkind) hevent (by omega)

/-- A DNS event is written and two calls begin. The first one has a checkpoint written and flushed
    and is told that all is well; so is the second one, on account of the same checkpoint. -/
theorem sample_losses_reported : ∃ w : Recorded Bool, Reachable w ∧
    w.trace.callers false = .returned 1 true ∧ w.trace.callers true = .returned 2 true ∧
    w.fence true = some 1 ∧ w.issuer 1 = some false ∧ ⟨.dns, 0⟩ ∈ w.trace.received ∧
    ∃ flush, w.flushed 1 = some flush ∧ flush.lost = [] := by
  have h : Reachable (_ : Recorded Bool) := Reachable.start.step (.stream .query)
  have h := h.step (.caller (i := false) (.begin rfl))
  have h := h.step (.caller (i := true) (.begin rfl))
  have h := h.step (.caller (i := false) (.load rfl))
  have h := h.step (.caller (i := true) (.load rfl))
  have h := h.step (.caller (i := false) (.lock rfl rfl))
  have h := h.step (.caller (i := false) (.fetch rfl (by decide)))
  have h := h.step (.checkpoint (n := 1) (.begin rfl) nofun)
  have h := h.step (.checkpoint (n := 1) (.write rfl) nofun)
  have h := h.step (.flush (n := 1) rfl)
  have h := h.step (.stream (.deliver List.mem_cons_self List.not_mem_nil))
  have h := h.step (.stream (.deliver (List.mem_cons_of_mem _ List.mem_cons_self) List.not_mem_nil))
  have h := h.step (.caller (i := false) (.written rfl rfl))
  have h := h.step (.caller (i := false) (.fenced rfl (by decide)))
  have h := h.step (.caller (i := true) (.lock rfl rfl))
  have h := h.step (.caller (i := true) (.shared rfl (by decide)))
  obtain ⟨m, j, hfence, hissuer, -, hflush⟩ := losses_reported (i := true) h rfl
  cases hfence
  cases hissuer
  obtain ⟨flush, hflush, hlost, hcomplete⟩ := hflush ⟨1, rfl⟩
  refine ⟨_, h, rfl, rfl, rfl, rfl, ?_, flush, hflush, hlost⟩
  exact hcomplete (List.prefix_refl _) nofun _ List.mem_cons_self rfl (by decide)

/-- **A loss that is hidden.** A DNS event is lost before two calls begin. The first one issues a
    checkpoint, whose flush reports the loss, and fails. The checkpoint is delivered all the same,
    and the second call is told that all is well. -/
theorem losses_hidden : ∃ w : Recorded Bool, Reachable w ∧
    w.trace.callers false = .returned 2 false ∧ w.trace.callers true = .returned 3 true ∧
    w.fence true = some 1 ∧ w.issuer 1 = some false ∧
    ⟨.dns, 0⟩ ∈ w.trace.stream ∧ ⟨.dns, 0⟩ ∉ w.trace.received ∧
    ∃ flush, w.flushed 1 = some flush ∧ flush.lost = [⟨.dns, 0⟩] := by
  have h : Reachable (_ : Recorded Bool) := Reachable.start.step (.stream .query)
  have h := h.step (.stream (.lose List.mem_cons_self rfl List.not_mem_nil))
  have h := h.step (.caller (i := false) (.begin rfl))
  have h := h.step (.caller (i := true) (.begin rfl))
  have h := h.step (.caller (i := false) (.load rfl))
  have h := h.step (.caller (i := true) (.load rfl))
  have h := h.step (.caller (i := false) (.lock rfl rfl))
  have h := h.step (.caller (i := false) (.fetch rfl (by decide)))
  have h := h.step (.checkpoint (n := 1) (.begin rfl) nofun)
  have h := h.step (.checkpoint (n := 1) (.write rfl) nofun)
  have h := h.step (.flush (n := 1) rfl)
  have h := h.step (.stream (.deliver (List.mem_cons_of_mem _ List.mem_cons_self) (by decide)))
  have h := h.step (.caller (i := false) (.failed rfl rfl))
  have h := h.step (.caller (i := true) (.lock rfl rfl))
  have h := h.step (.caller (i := true) (.shared rfl (by decide)))
  exact ⟨_, h, rfl, rfl, rfl, rfl, List.mem_cons_self, by decide, _, rfl, rfl⟩

end Recorded

end Tun2Proxy.DnsRouting
