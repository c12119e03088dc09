/-
  File:      Tun2Proxy/DnsRouting/Trace.lean
  Subject:   The fence that a DNS query waits for before it looks up its origin (`Trace` of
             src/dns_routing/windows.rs).

  DNS events and checkpoints go through one event stream. `synchronize` reads the sequence counter,
  waits for its turn, and returns if a checkpoint with a higher number has been delivered by then;
  otherwise it takes the next number, has a checkpoint written and waits for its delivery. The
  checkpoint is written and flushed by a task of its own, which goes on when the caller is dropped.

  * A caller and a checkpoint take one step at a time, up to the next point where another may run.
  * The stream may deliver what was written in any order and may lose DNS events. A flush reports
    what was lost before.
  * The counter is a 64-bit one that no process lives to exhaust; here it is a natural number.
  * The clock counts the steps. It is history, as are the times in the stream.

  A number above the one a caller has read was taken after the caller began, so the checkpoint with
  this number was written after that too. This is the whole argument (`Sound.after`).
-/
import Mathlib.Data.List.Pairwise
import Mathlib.Logic.Function.Basic

namespace Tun2Proxy.DnsRouting

/-! ## 1. The stream, the checkpoints and the callers -/

inductive EventKind where
  | dns
  /-- The checkpoint with this number, whose `EventWrite` began at this time. -/
  | checkpoint (sequence began : Nat)
  deriving DecidableEq

/-- An event, and the time at which it was written. -/
structure TraceEvent where
  kind : EventKind
  time : Nat
  deriving DecidableEq

/-- Where the task of a checkpoint stands. -/
inductive CheckpointPhase where
  | spawned
  /-- Inside `EventWrite`, which began at this time. -/
  | writing (began : Nat)
  /-- Written, not flushed yet. -/
  | written
  | done (ok : Bool)
  deriving DecidableEq

/-- Where a call of `synchronize` stands. It began at the time `began` and has read `observed`. -/
inductive CallerPhase where
  | idle
  | began (began : Nat)
  /-- Waiting for `flush_slot`. -/
  | queued (began observed : Nat)
  /-- With `flush_slot`, before its look at `delivered`. -/
  | holding (began observed : Nat)
  /-- Waiting for the task of its checkpoint. -/
  | awaiting (began observed sequence : Nat)
  /-- Waiting for the delivery of its checkpoint. -/
  | watching (began observed sequence : Nat)
  | returned (began : Nat) (ok : Bool)
  /-- Dropped at an await. -/
  | dropped
  deriving DecidableEq

structure Trace (ι : Type) where
  sequence : Nat
  /-- The highest number of a checkpoint that was delivered. -/
  delivered : Nat
  flushSlot : Option ι
  callers : ι → CallerPhase
  /-- The tasks of the checkpoints, by their numbers. -/
  checkpoints : Nat → Option CheckpointPhase
  /-- What was written, in order. -/
  stream : List TraceEvent
  /-- What the callback has handled, in order. -/
  received : List TraceEvent
  lost : List TraceEvent
  clock : Nat

namespace Trace

variable {ι : Type} [DecidableEq ι]

def start : Trace ι := ⟨0, 0, none, fun _ => .idle, fun _ => none, [], [], [], 0⟩

def setCaller (s : Trace ι) (i : ι) (phase : CallerPhase) : Trace ι :=
  { s with callers := Function.update s.callers i phase }

def setCheckpoint (s : Trace ι) (n : Nat) (phase : CheckpointPhase) : Trace ι :=
  { s with checkpoints := Function.update s.checkpoints n (some phase) }

def append (s : Trace ι) (kind : EventKind) : Trace ι :=
  { s with stream := s.stream ++ [⟨kind, s.clock⟩] }

/-- The slot, when this caller lets go of it. -/
def released (s : Trace ι) (i : ι) : Option ι := if s.flushSlot = some i then none else s.flushSlot

/-- What the callback does with an event: `fetch_max` for a checkpoint. -/
def deliver (s : Trace ι) (event : TraceEvent) : Trace ι :=
  { s with
    received := s.received ++ [event]
    delivered :=
      match event.kind with
      | .dns => s.delivered
      | .checkpoint n _ => max s.delivered n }

/-- `synchronize`. -/
inductive CallerStep (s : Trace ι) (i : ι) : Trace ι → Prop
  | begin (h : s.callers i = .idle) : CallerStep s i (s.setCaller i (.began s.clock))
  | load {began : Nat} (h : s.callers i = .began began) :
      CallerStep s i (s.setCaller i (.queued began s.sequence))
  | lock {began observed : Nat} (h : s.callers i = .queued began observed)
      (hfree : s.flushSlot = none) :
      CallerStep s i { s.setCaller i (.holding began observed) with flushSlot := some i }
  -- a checkpoint of another caller will do
  | shared {began observed : Nat} (h : s.callers i = .holding began observed)
      (hdelivered : observed < s.delivered) :
      CallerStep s i { s.setCaller i (.returned began true) with flushSlot := s.released i }
  | fetch {began observed : Nat} (h : s.callers i = .holding began observed)
      (hdelivered : s.delivered ≤ observed) :
      CallerStep s i { (s.setCaller i (.awaiting began observed (s.sequence + 1))).setCheckpoint
        (s.sequence + 1) .spawned with sequence := s.sequence + 1 }
  | written {began observed n : Nat} (h : s.callers i = .awaiting began observed n)
      (hdone : s.checkpoints n = some (.done true)) :
      CallerStep s i (s.setCaller i (.watching began observed n))
  | failed {began observed n : Nat} (h : s.callers i = .awaiting began observed n)
      (hdone : s.checkpoints n = some (.done false)) :
      CallerStep s i { s.setCaller i (.returned began false) with flushSlot := s.released i }
  | fenced {began observed n : Nat} (h : s.callers i = .watching began observed n)
      (hdelivered : n ≤ s.delivered) :
      CallerStep s i { s.setCaller i (.returned began true) with flushSlot := s.released i }
  | drop (h : ∀ began ok, s.callers i ≠ .returned began ok) :
      CallerStep s i { s.setCaller i .dropped with flushSlot := s.released i }

/-- `checkpoint`, on the task of its number. -/
inductive CheckpointStep (s : Trace ι) (n : Nat) : Trace ι → Prop
  | begin (h : s.checkpoints n = some .spawned) :
      CheckpointStep s n (s.setCheckpoint n (.writing s.clock))
  | write {began : Nat} (h : s.checkpoints n = some (.writing began)) :
      CheckpointStep s n ((s.append (.checkpoint n began)).setCheckpoint n .written)
  | writeFails {began : Nat} (h : s.checkpoints n = some (.writing began)) :
      CheckpointStep s n (s.setCheckpoint n (.done false))
  | flush (h : s.checkpoints n = some .written) :
      CheckpointStep s n (s.setCheckpoint n (.done s.lost.isEmpty))
  | flushFails (h : s.checkpoints n = some .written) :
      CheckpointStep s n (s.setCheckpoint n (.done false))

/-- What the operating system does. -/
inductive StreamStep (s : Trace ι) : Trace ι → Prop
  | query : StreamStep s (s.append .dns)
  | deliver {event : TraceEvent} (h : event ∈ s.stream) (hlost : event ∉ s.lost) :
      StreamStep s (s.deliver event)
  | lose {event : TraceEvent} (h : event ∈ s.stream) (hdns : event.kind = .dns)
      (hreceived : event ∉ s.received) : StreamStep s { s with lost := event :: s.lost }

/-- Time goes on with every step. -/
def tick (s : Trace ι) : Trace ι := { s with clock := s.clock + 1 }

inductive Step (s : Trace ι) : Trace ι → Prop
  | caller {i : ι} {s' : Trace ι} (h : s.CallerStep i s') : Step s s'.tick
  | checkpoint {n : Nat} {s' : Trace ι} (h : s.CheckpointStep n s') : Step s s'.tick
  | stream {s' : Trace ι} (h : s.StreamStep s') : Step s s'.tick

inductive Reachable : Trace ι → Prop
  | start : Reachable start
  | step {s s' : Trace ι} (hs : Reachable s) (h : s.Step s') : Reachable s'

/-! ## 2. The invariant -/

/-- The `EventWrite` of the checkpoint with this number began at this time. -/
def BeganWriting (s : Trace ι) (n t : Nat) : Prop :=
  s.checkpoints n = some (.writing t) ∨ ∃ event ∈ s.stream, event.kind = .checkpoint n t

/-- A checkpoint whose `EventWrite` began after this time was delivered. -/
def Fenced (s : Trace ι) (began : Nat) : Prop :=
  ∃ event ∈ s.received, ∃ n t, event.kind = .checkpoint n t ∧ began < t

/-- The checkpoints above `observed` began after `began`. -/
def After (s : Trace ι) (began observed : Nat) : Prop :=
  began < s.clock ∧ observed ≤ s.sequence ∧
    ∀ n t, observed < n → s.BeganWriting n t → began < t

/-- What is known of a call in each phase. -/
def CallerOk (s : Trace ι) : CallerPhase → Prop
  | .idle | .dropped => True
  | .began began => began < s.clock
  | .queued began observed | .holding began observed => s.After began observed
  | .awaiting began observed n | .watching began observed n =>
    s.After began observed ∧ observed < n
  | .returned began ok => ok = true → s.Fenced began

/-- **The invariant.** -/
structure Sound (s : Trace ι) : Prop where
  /-- Every number was taken from the counter. -/
  numbered : ∀ n, (s.checkpoints n).isSome = true → n ≤ s.sequence
  /-- What is in the stream has its task, and its times are past and in order. -/
  streamed : ∀ event ∈ s.stream, event.time < s.clock ∧
    ∀ n t, event.kind = .checkpoint n t → n ≤ s.sequence ∧ t ≤ event.time
  writing : ∀ n t, s.checkpoints n = some (.writing t) → t < s.clock
  sorted : s.stream.Pairwise fun a b => a.time ≤ b.time
  received : ∀ event ∈ s.received, event ∈ s.stream
  /-- The highest number delivered is that of a checkpoint delivered. -/
  delivered : s.delivered = 0 ∨
    ∃ event ∈ s.received, ∃ t, event.kind = .checkpoint s.delivered t
  callers : ∀ i, s.CallerOk (s.callers i)

section Invariant

omit [DecidableEq ι]

variable {s s' : Trace ι}

/-- **What every step keeps**: what was received stays, and an `EventWrite` that was not there
    begins now. -/
structure Later (s s' : Trace ι) : Prop where
  clock : s.clock < s'.clock
  sequence : s.sequence ≤ s'.sequence
  received : s.received ⊆ s'.received
  began : ∀ n t, s'.BeganWriting n t → s.BeganWriting n t ∨ s.clock ≤ t

theorem Fenced.later {began : Nat} (h : s.Fenced began) (hs : s.Later s') : s'.Fenced began := by
  obtain ⟨event, hevent, hrest⟩ := h
  exact ⟨event, hs.received hevent, hrest⟩

theorem After.later {began observed : Nat} (h : s.After began observed) (hs : s.Later s') :
    s'.After began observed := by
  obtain ⟨hclock, hsequence, habove⟩ := h
  refine ⟨Nat.lt_trans hclock hs.clock, Nat.le_trans hsequence hs.sequence,
    fun n t hn hbegan => ?_⟩
  rcases hs.began n t hbegan with hold | hnew
  · exact habove n t hn hold
  · exact Nat.lt_of_lt_of_le hclock hnew

theorem CallerOk.later {phase : CallerPhase} (h : s.CallerOk phase) (hs : s.Later s') :
    s'.CallerOk phase := by
  cases phase with
  | idle | dropped => trivial
  | began => exact Nat.lt_trans h hs.clock
  | queued | holding => exact After.later h hs
  | awaiting | watching => exact ⟨After.later h.1 hs, h.2⟩
  | returned => exact fun hok => Fenced.later (h hok) hs

/-- A step that begins no `EventWrite`. -/
theorem Later.of_quiet (hclock : s'.clock = s.clock) (hsequence : s.sequence ≤ s'.sequence)
    (hreceived : s.received ⊆ s'.received)
    (hbegan : ∀ n t, s'.BeganWriting n t → s.BeganWriting n t) : s.Later s'.tick := by
  refine ⟨?_, hsequence, hreceived, fun n t h => .inl (hbegan n t h)⟩
  show s.clock < s'.clock + 1
  omega

/-- The task of a checkpoint moves on: what it says of its `EventWrite` is all that is new. -/
theorem BeganWriting.of_setCheckpoint {n : Nat} {phase : CheckpointPhase} {m t : Nat}
    (h : (s.setCheckpoint n phase).BeganWriting m t) :
    s.BeganWriting m t ∨ m = n ∧ phase = .writing t := by
  rcases h with h | h
  · have h : Function.update s.checkpoints n (some phase) m = some (.writing t) := h
    grind [Function.update_apply, BeganWriting]
  · exact .inl (.inr h)

/-- The task goes on, and not to its `EventWrite`. -/
theorem BeganWriting.of_quiet {n : Nat} {phase : CheckpointPhase} {m t : Nat}
    (h : (s.setCheckpoint n phase).BeganWriting m t) (hphase : ∀ t, phase ≠ .writing t) :
    s.BeganWriting m t :=
  (of_setCheckpoint h).resolve_right fun hnew => hphase t hnew.2

theorem CallerStep.later [DecidableEq ι] {i : ι} (h : s.CallerStep i s') : s.Later s'.tick := by
  cases h with
  | fetch h hdelivered =>
    exact .of_quiet rfl (Nat.le_succ _) (List.Subset.refl _) fun n t hbegan =>
      BeganWriting.of_quiet (s := s.setCaller i _) (n := s.sequence + 1) hbegan nofun
  | begin | load | lock | shared | written | failed | fenced | drop =>
    exact .of_quiet rfl (Nat.le_refl _) (List.Subset.refl _) fun n t hbegan => hbegan

theorem CheckpointStep.later {n : Nat} (h : s.CheckpointStep n s') : s.Later s'.tick := by
  cases h with
  | begin h =>
    refine ⟨Nat.lt_succ_self _, Nat.le_refl _, List.Subset.refl _, fun m t hbegan => ?_⟩
    rcases BeganWriting.of_setCheckpoint hbegan with hold | ⟨-, hphase⟩
    · exact .inl hold
    · cases hphase
      exact .inr (Nat.le_refl _)
  | @write began h =>
    refine .of_quiet rfl (Nat.le_refl _) (List.Subset.refl _) fun m t hbegan => ?_
    -- the event in the stream takes the place of the task
    rcases BeganWriting.of_quiet hbegan nofun with hold | ⟨event, hevent, hkind⟩
    · exact .inl hold
    · rcases List.mem_append.mp hevent with hevent | hevent
      · exact .inr ⟨event, hevent, hkind⟩
      · obtain rfl := List.mem_singleton.mp hevent
        cases hkind
        exact .inl h
  | writeFails | flush | flushFails =>
    exact .of_quiet rfl (Nat.le_refl _) (List.Subset.refl _) fun m t hbegan =>
      BeganWriting.of_quiet hbegan nofun

theorem StreamStep.later (h : s.StreamStep s') : s.Later s'.tick := by
  cases h with
  | query =>
    refine .of_quiet rfl (Nat.le_refl _) (List.Subset.refl _) fun n t hbegan => ?_
    rcases hbegan with hbegan | ⟨event, hevent, hkind⟩
    · exact .inl hbegan
    · rcases List.mem_append.mp hevent with hevent | hevent
      · exact .inr ⟨event, hevent, hkind⟩
      · obtain rfl := List.mem_singleton.mp hevent
        cases hkind
  | deliver h hlost =>
    exact .of_quiet rfl (Nat.le_refl _) (List.subset_append_left _ _) fun n t hbegan => hbegan
  | lose h hdns hreceived =>
    exact .of_quiet rfl (Nat.le_refl _) (List.Subset.refl _) fun n t hbegan => hbegan

theorem later_tick (s : Trace ι) : s.Later s.tick :=
  .of_quiet rfl (Nat.le_refl _) (List.Subset.refl _) fun _ _ h => h

namespace Sound

theorem start : Sound (start : Trace ι) where
  numbered := nofun
  streamed := nofun
  writing := nofun
  sorted := List.Pairwise.nil
  received := nofun
  delivered := .inl rfl
  callers _ := trivial

/-- Time goes on. -/
theorem streamed_tick (h : s.Sound) : ∀ event ∈ s.stream, event.time < s.clock + 1 ∧
    ∀ n t, event.kind = .checkpoint n t → n ≤ s.sequence ∧ t ≤ event.time :=
  fun event hevent =>
    ⟨Nat.lt_succ_of_lt (h.streamed event hevent).1, (h.streamed event hevent).2⟩

/-- What the other callers know stays. -/
theorem callers_later (h : s.Sound) (hcallers : s'.callers = s.callers) (hs : s.Later s'.tick) :
    ∀ i, s'.tick.CallerOk (s'.callers i) := by
  intro i
  rw [hcallers]
  exact (h.callers i).later hs

/-- A caller moves on, to a phase in which it knows what it must. -/
theorem setCaller [DecidableEq ι] (h : s.Sound) {i : ι} (phase : CallerPhase)
    (hphase : s.tick.CallerOk phase) (slot : Option ι) :
    Sound { s.setCaller i phase with flushSlot := slot }.tick where
  numbered := h.numbered
  streamed := h.streamed_tick
  writing n t hn := Nat.lt_succ_of_lt (h.writing n t hn)
  sorted := h.sorted
  received := h.received
  delivered := h.delivered
  callers j := by
    show s.tick.CallerOk (Function.update s.callers i phase j)
    by_cases hj : j = i
    · subst hj
      rwa [Function.update_self]
    · rw [Function.update_of_ne hj]
      exact (h.callers j).later (later_tick s)

/-- The task of a checkpoint moves on. -/
theorem setCheckpoint (h : s.Sound) {n : Nat} (hn : n ≤ s.sequence) {phase : CheckpointPhase}
    (hphase : ∀ t, phase = .writing t → t ≤ s.clock)
    (hlater : s.Later (s.setCheckpoint n phase).tick) : Sound (s.setCheckpoint n phase).tick where
  numbered m hm := by
    have hm : (Function.update s.checkpoints n (some phase) m).isSome = true := hm
    have hold := h.numbered m
    change m ≤ s.sequence
    grind [Function.update_apply]
  streamed := h.streamed_tick
  writing m t hm := by
    have hm : Function.update s.checkpoints n (some phase) m = some (.writing t) := hm
    have hold := h.writing m t
    have hnew := hphase t
    change t < s.clock + 1
    grind [Function.update_apply]
  sorted := h.sorted
  received := h.received
  delivered := h.delivered
  callers := h.callers_later rfl hlater

/-- An event is written. -/
theorem append (h : s.Sound) {kind : EventKind}
    (hkind : ∀ n t, kind = .checkpoint n t → n ≤ s.sequence ∧ t ≤ s.clock) :
    (∀ event ∈ (s.append kind).stream, event.time < s.clock + 1 ∧
      ∀ n t, event.kind = .checkpoint n t → n ≤ s.sequence ∧ t ≤ event.time) ∧
    (s.append kind).stream.Pairwise fun a b => a.time ≤ b.time := by
  constructor
  · intro event hevent
    rcases List.mem_append.mp hevent with hevent | hevent
    · exact h.streamed_tick event hevent
    · obtain rfl := List.mem_singleton.mp hevent
      exact ⟨Nat.lt_succ_self _, hkind⟩
  · refine List.pairwise_append.mpr ⟨h.sorted, List.pairwise_singleton _ _, fun a ha b hb => ?_⟩
    obtain rfl := List.mem_singleton.mp hb
    exact Nat.le_of_lt (h.streamed a ha).1

/-- **A checkpoint above what a caller has read** was written after the caller began. -/
theorem delivered_after (h : s.Sound) {began observed : Nat} (hafter : s.After began observed)
    (hdelivered : observed < s.delivered) :
    ∃ event ∈ s.received, ∃ t, event.kind = .checkpoint s.delivered t ∧ began < t := by
  rcases h.delivered with hzero | ⟨event, hevent, t, hkind⟩
  · omega
  · refine ⟨event, hevent, t, hkind, hafter.2.2 _ t hdelivered ?_⟩
    exact .inr ⟨event, h.received event hevent, hkind⟩

theorem fenced (h : s.Sound) {began observed : Nat} (hafter : s.After began observed)
    (hdelivered : observed < s.delivered) : s.Fenced began := by
  obtain ⟨event, hevent, t, hkind, hbegan⟩ := h.delivered_after hafter hdelivered
  exact ⟨event, hevent, s.delivered, t, hkind, hbegan⟩

/-- A caller takes the next number, and the task of its checkpoint is there. -/
theorem fetch [DecidableEq ι] (h : s.Sound) {i : ι} {phase : CallerPhase} (hstep : s.CallerStep i
      { (s.setCaller i phase).setCheckpoint (s.sequence + 1) .spawned with
        sequence := s.sequence + 1 })
    (hphase : Trace.CallerOk (tick { (s.setCaller i phase).setCheckpoint (s.sequence + 1) .spawned
      with sequence := s.sequence + 1 }) phase) :
    Sound { (s.setCaller i phase).setCheckpoint (s.sequence + 1) .spawned with
      sequence := s.sequence + 1 }.tick where
  numbered n hn := by
    have hn : (Function.update s.checkpoints (s.sequence + 1) (some .spawned) n).isSome = true := hn
    have hold := h.numbered n
    change n ≤ s.sequence + 1
    grind [Function.update_apply]
  streamed event hevent :=
    ⟨(h.streamed_tick event hevent).1, fun n t hkind =>
      ⟨Nat.le_succ_of_le ((h.streamed event hevent).2 n t hkind).1,
        ((h.streamed event hevent).2 n t hkind).2⟩⟩
  writing n t hn := by
    have hn : Function.update s.checkpoints (s.sequence + 1) (some .spawned) n =
      some (.writing t) := hn
    have hold := h.writing n t
    change t < s.clock + 1
    grind [Function.update_apply]
  sorted := h.sorted
  received := h.received
  delivered := h.delivered
  callers j := by
    show Trace.CallerOk _ (Function.update s.callers i phase j)
    by_cases hj : j = i
    · subst hj
      rwa [Function.update_self]
    · rw [Function.update_of_ne hj]
      exact (h.callers j).later hstep.later

theorem caller [DecidableEq ι] (h : s.Sound) {i : ι} (hstep : s.CallerStep i s') :
    s'.tick.Sound := by
  have hok := h.callers i
  -- what is known of the caller when it moves
  have hknown : ∀ phase, s.CallerOk phase → s.tick.CallerOk phase :=
    fun _ hphase => hphase.later (later_tick s)
  have hlater := hstep.later
  cases hstep with
  | begin hi => exact h.setCaller (.began s.clock) (Nat.lt_succ_self _) s.flushSlot
  | @load began hi =>
    rw [hi] at hok
    refine h.setCaller (.queued began s.sequence) (hknown _ ⟨hok, Nat.le_refl _, ?_⟩) s.flushSlot
    -- every number there is was taken before
    intro n t hn hbegan
    have hle : n ≤ s.sequence := by
      rcases hbegan with hbegan | ⟨event, hevent, hkind⟩
      · exact h.numbered n (by rw [hbegan]; rfl)
      · exact ((h.streamed event hevent).2 n t hkind).1
    omega
  | @lock began observed hi hfree =>
    rw [hi] at hok
    exact h.setCaller (.holding began observed) (hknown _ hok) (some i)
  | @shared began observed hi hdelivered =>
    rw [hi] at hok
    have hfenced : s.Fenced began := h.fenced hok hdelivered
    exact h.setCaller (.returned began true) (hknown _ fun _ => hfenced) _
  | @fetch began observed hi hdelivered =>
    rw [hi] at hok
    have hafter : s.After began observed := hok
    exact h.fetch (.fetch hi hdelivered) ⟨hafter.later hlater, Nat.lt_succ_of_le hafter.2.1⟩
  | @written began observed n hi hdone =>
    rw [hi] at hok
    exact h.setCaller (.watching began observed n) (hknown _ hok) s.flushSlot
  | @failed began observed n hi hdone => exact h.setCaller (.returned began false) nofun _
  | @fenced began observed n hi hdelivered =>
    rw [hi] at hok
    have hfenced : s.Fenced began := h.fenced hok.1 (Nat.lt_of_lt_of_le hok.2 hdelivered)
    exact h.setCaller (.returned began true) (hknown _ fun _ => hfenced) _
  | drop hi => exact h.setCaller .dropped trivial _

theorem checkpoint (h : s.Sound) {n : Nat} (hstep : s.CheckpointStep n s') : s'.tick.Sound := by
  have hlater := hstep.later
  have hnumber : ∀ {phase}, s.checkpoints n = some phase → n ≤ s.sequence :=
    fun hn => h.numbered n (by rw [hn]; rfl)
  cases hstep with
  | begin hn =>
    refine h.setCheckpoint (hnumber hn) (fun t ht => ?_) hlater
    cases ht
    exact Nat.le_refl _
  | @write began hn =>
    have hkind : ∀ m t, EventKind.checkpoint n began = .checkpoint m t →
        m ≤ s.sequence ∧ t ≤ s.clock := by
      intro m t heq
      cases heq
      exact ⟨hnumber hn, Nat.le_of_lt (h.writing n began hn)⟩
    obtain ⟨hstreamed, hsorted⟩ := h.append hkind
    have hdone := h.setCheckpoint (hnumber hn) (fun t (ht : CheckpointPhase.written = _) =>
      nomatch ht) (.of_quiet rfl (Nat.le_refl _) (List.Subset.refl _) fun m t hbegan =>
      BeganWriting.of_quiet hbegan nofun)
    exact ⟨hdone.numbered, hstreamed, hdone.writing, hsorted,
      fun event hevent => List.mem_append_left _ (h.received event hevent), h.delivered,
      h.callers_later rfl hlater⟩
  | writeFails hn | flush hn | flushFails hn =>
    exact h.setCheckpoint (hnumber hn) (fun t ht => by cases ht) hlater

theorem stream (h : s.Sound) (hstep : s.StreamStep s') : s'.tick.Sound := by
  have hlater := hstep.later
  cases hstep with
  | query =>
    have hkind : ∀ n t, EventKind.dns = .checkpoint n t → n ≤ s.sequence ∧ t ≤ s.clock := nofun
    obtain ⟨hstreamed, hsorted⟩ := h.append hkind
    exact ⟨h.numbered, hstreamed, fun n t hn => Nat.lt_succ_of_lt (h.writing n t hn), hsorted,
      fun event hevent => List.mem_append_left _ (h.received event hevent), h.delivered,
      h.callers_later rfl hlater⟩
  | @deliver event hevent hlost =>
    refine ⟨h.numbered, h.streamed_tick, fun n t hn => Nat.lt_succ_of_lt (h.writing n t hn),
      h.sorted, fun other hother => ?_, ?_, h.callers_later rfl hlater⟩
    · rcases List.mem_append.mp hother with hother | hother
      · exact h.received other hother
      · rwa [List.mem_singleton.mp hother]
    · unfold Trace.deliver
      cases hkind : event.kind with
      | dns =>
        refine h.delivered.imp id fun ⟨other, hother, hrest⟩ => ?_
        exact ⟨other, List.mem_append_left _ hother, hrest⟩
      | checkpoint n t =>
        -- the new maximum is the number of this event, or the old one
        show max s.delivered n = 0 ∨ ∃ other ∈ s.received ++ [event], ∃ t',
          other.kind = .checkpoint (max s.delivered n) t'
        rcases Nat.le_total s.delivered n with hle | hle
        · rw [Nat.max_eq_right hle]
          exact .inr ⟨event, List.mem_append_right _ (List.mem_singleton_self _), t, hkind⟩
        · rw [Nat.max_eq_left hle]
          refine h.delivered.imp id fun ⟨other, hother, hrest⟩ => ?_
          exact ⟨other, List.mem_append_left _ hother, hrest⟩
  | lose hevent hdns hreceived =>
    exact ⟨h.numbered, h.streamed_tick, fun n t hn => Nat.lt_succ_of_lt (h.writing n t hn),
      h.sorted, h.received, h.delivered, h.callers_later rfl hlater⟩

theorem step [DecidableEq ι] (h : s.Sound) (hstep : s.Step s') : s'.Sound := by
  cases hstep with
  | caller hstep => exact h.caller hstep
  | checkpoint hstep => exact h.checkpoint hstep
  | stream hstep => exact h.stream hstep

end Sound

/-- If the events delivered so far are the first ones of a part of the stream, in order, what is in
    this part and was written before an event delivered is delivered too. -/
theorem Sound.complete (h : s.Sound) {events : List TraceEvent} (hpart : events.Sublist s.stream)
    (hfirst : s.received <+: events) {event other : TraceEvent} (hevent : event ∈ s.received)
    (hother : other ∈ events) (htime : other.time < event.time) : other ∈ s.received := by
  obtain ⟨rest, rfl⟩ := hfirst
  rcases List.mem_append.mp hother with hother | hother
  · exact hother
  · have hsorted := h.sorted.sublist hpart
    have hle := (List.pairwise_append.mp hsorted).2.2 event hevent other hother
    omega

end Invariant

section Runs

variable {s : Trace ι}

theorem Reachable.sound (h : Reachable s) : s.Sound := by
  induction h with
  | start => exact Sound.start
  | step _ hstep ih => exact ih.step hstep

/-- **The fence.** When `synchronize` has returned well, a checkpoint whose `EventWrite` began after
    the call began has been delivered. If the events delivered so far are the first ones written,
    in order, every DNS event written before the call began has been handled. -/
theorem synchronize_fences {i : ι} {began : Nat} (h : Reachable s)
    (hreturned : s.callers i = .returned began true) :
    (∃ event ∈ s.received, ∃ n t, event.kind = .checkpoint n t ∧ began < t) ∧
    (s.received <+: s.stream → ∀ event ∈ s.stream, event.kind = .dns → event.time < began →
      event ∈ s.received) := by
  have hsound := h.sound
  have hok := hsound.callers i
  rw [hreturned] at hok
  have hfenced : s.Fenced began := hok rfl
  refine ⟨hfenced, fun hfirst event hevent _ htime => ?_⟩
  obtain ⟨checkpoint, hcheckpoint, n, t, hkind, hafter⟩ := hfenced
  have hwritten := ((hsound.streamed checkpoint (hsound.received checkpoint hcheckpoint)).2
    n t hkind).2
  exact hsound.complete (List.Sublist.refl _) hfirst hcheckpoint hevent (by omega)

/-- A DNS event is written, and two calls begin. The first one takes the slot and a number and is
    dropped; its checkpoint is written all the same, and fences the second call. -/
theorem sample_synchronize_fences : ∃ s : Trace Bool, Reachable s ∧
    s.callers false = .dropped ∧ s.callers true = .returned 2 true ∧
    s.received = s.stream ∧ ⟨.dns, 0⟩ ∈ s.received ∧
    ∃ event ∈ s.received, ∃ n t, event.kind = .checkpoint n t ∧ 2 < t := by
  have h : Reachable (_ : Trace Bool) := Reachable.start.step (.stream .query)
  have h := h.step (.caller (i := false) (.begin rfl))
  have h := h.step (.caller (i := true) (.begin rfl))
  have h := h.step (.caller (i := false) (.load rfl))
  have h := h.step (.caller (i := true) (.load rfl))
  have h := h.step (.caller (i := false) (.lock rfl rfl))
  have h := h.step (.caller (i := false) (.fetch rfl (by decide)))
  have h := h.step (.caller (i := false) (.drop nofun))
  have h := h.step (.checkpoint (n := 1) (.begin rfl))
  have h := h.step (.checkpoint (n := 1) (.write rfl))
  have h := h.step (.checkpoint (n := 1) (.flush rfl))
  have h := h.step (.stream (.deliver (List.mem_cons_self) List.not_mem_nil))
  have h := h.step (.stream (.deliver (List.mem_cons_of_mem _ List.mem_cons_self) List.not_mem_nil))
  have h := h.step (.caller (i := true) (.lock rfl rfl))
  have h := h.step (.caller (i := true) (.shared rfl (by decide)))
  obtain ⟨hfence, hcomplete⟩ := synchronize_fences (i := true) h rfl
  exact ⟨_, h, rfl, rfl, rfl, hcomplete (List.prefix_refl _) _ List.mem_cons_self rfl (by decide),
    hfence⟩

end Runs

end Trace

end Tun2Proxy.DnsRouting
