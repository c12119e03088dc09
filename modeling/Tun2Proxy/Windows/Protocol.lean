/-
  File:      Tun2Proxy/Windows/Protocol.lean
  Subject:   Preparing, committing and rolling back bypasses (src/windows_network_config.rs):
             `prepare_addresses`, the guard it returns, the command channel and the worker thread.

  Any number of callers take the operation lock one after the other. A caller sends its request,
  waits for the reply, and sends the decision before it releases the lock; it may give up at every
  await. The worker takes the commands in order. What the system answers is left open: a step of
  the worker is any outcome of its program. The record is locked while a program runs, so only a
  preparation, which may outlast its caller, is split in two.

  The decisions follow the requests one by one (`after`), so a decision always meets the request of
  the same caller (`protocol_safe`).
-/
import Mathlib.Logic.Function.Basic
import Tun2Proxy.Windows.Monitor

namespace Tun2Proxy.Windows

open Prog (Outcome)
open Relation

/-! ## 1. The parties -/

/-- Where a call of `prepare_addresses` stands. -/
inductive Caller where
  -- waits for the operation lock
  | calling
  | holding
  -- has sent its request and waits for the reply
  | waiting
  -- has dropped the receiver; its guard is about to be dropped
  | closing
  -- has its guard
  | prepared
  -- has sent its decision, and is about to release the lock
  | leaving
  | finished
  deriving DecidableEq, Repr

/-- There is a guard whose decision is to come. -/
def Caller.alive : Caller → Bool
  | .waiting => true
  | .closing => true
  | .prepared => true
  | _ => false

def Caller.locked : Caller → Bool
  | .calling => false
  | .finished => false
  | _ => true

/-- A command, and the caller it comes from. -/
inductive Message (ι : Type) where
  | prepare (caller : ι) (addresses : List IpAddr)
  | commit (caller : ι)
  | rollback (caller : ι)
  | stop
  deriving DecidableEq, Repr

/-- The worker waits for a command, prepares bypasses, or has ended. -/
inductive Thread (ι : Type) where
  | idle
  | preparing (caller : ι) (addresses : List IpAddr)
  | stopped

structure State (ι : Type) where
  callers : ι → Caller
  operation : Option ι
  channel : List (Message ι)
  thread : Thread ι
  worker : Worker
  /-- What was sent to the receivers. -/
  replies : ι → Option (Except UpdateError Unit)
  /-- Whose request was taken from the channel last, until its decision is. -/
  current : Option ι
  /-- For whom the pending update was prepared. -/
  preparedFor : Option ι
  /-- Whose updates were committed. -/
  committed : List ι
  /-- For whose update a row was added to the owned ones. -/
  origin : RouteSpec → Option ι

section Machine

variable {ι : Type} [DecidableEq ι]

namespace State

def setCaller (s : State ι) (i : ι) (c : Caller) : State ι :=
  { s with callers := Function.update s.callers i c }

@[grind =] theorem setCaller_callers (s : State ι) (i j : ι) (c : Caller) :
    (s.setCaller i c).callers j = if j = i then c else s.callers j :=
  Function.update_apply ..

/-- Sending fails when the worker has ended. -/
def send (s : State ι) (m : Message ι) : State ι :=
  match s.thread with
  | .stopped => s
  | _ => { s with channel := s.channel ++ [m] }

/-- Rows that are no longer owned are nobody's. -/
def stillOwned (s : State ι) (owned : List RouteSpec) (r : RouteSpec) : Option ι :=
  if r ∈ owned then s.origin r else none

/-- A preparation for the caller has ended: the rows it added are the caller's, and the reply is
    lost if the receiver is gone. -/
def finishPrepare (s : State ι) (i : ι) (result : Except UpdateError Unit) (worker : Worker) :
    State ι :=
  { s with
    thread := .idle
    worker := worker
    replies := if s.callers i = .waiting then Function.update s.replies i (some result)
      else s.replies
    preparedFor := if worker.pending.isSome then some i else none
    origin := fun r => if r ∈ worker.provisional then some i
      else s.stillOwned worker.record.ownedRoutes r }

/-- Before the first call. -/
def start (record : InstallRecord) : State ι where
  callers := fun _ => .calling
  operation := none
  channel := []
  thread := .idle
  worker := ⟨record, none, []⟩
  replies := fun _ => none
  current := none
  preparedFor := none
  committed := []
  origin := fun _ => none

end State

/-- **One step**: of a caller, of the owner of the session, or of the worker. -/
inductive Step : State ι → State ι → Prop
  | lock {s : State ι} {i : ι} (hi : s.callers i = .calling) (hfree : s.operation = none) :
      Step s { s.setCaller i .holding with operation := some i }
  -- a timeout, or a cancelled call
  | giveUp {s : State ι} {i : ι} (hi : s.callers i = .calling) : Step s (s.setCaller i .finished)
  -- the controller is not attached
  | notReady {s : State ι} {i : ι} (hi : s.callers i = .holding) :
      Step s { s.setCaller i .finished with operation := none }
  | request {s : State ι} {i : ι} (hi : s.callers i = .holding) (hrun : s.thread ≠ .stopped)
      (addresses : List IpAddr) : Step s ((s.setCaller i .waiting).send (.prepare i addresses))
  | requestFails {s : State ι} {i : ι} (hi : s.callers i = .holding)
      (hended : s.thread = .stopped) : Step s (s.setCaller i .closing)
  | receive {s : State ι} {i : ι} (hi : s.callers i = .waiting)
      (hok : s.replies i = some (.ok ())) : Step s (s.setCaller i .prepared)
  -- an error, a timeout, a cancelled call, or a worker that has ended
  | close {s : State ι} {i : ι} (hi : s.callers i = .waiting) : Step s (s.setCaller i .closing)
  | drop {s : State ι} {i : ι} (hi : s.callers i = .closing ∨ s.callers i = .prepared) :
      Step s ((s.setCaller i .leaving).send (.rollback i))
  | commit {s : State ι} {i : ι} (hi : s.callers i = .prepared) (hrun : s.thread ≠ .stopped) :
      Step s ((s.setCaller i .leaving).send (.commit i))
  | unlock {s : State ι} {i : ι} (hi : s.callers i = .leaving) :
      Step s { s.setCaller i .finished with operation := none }
  | stop {s : State ι} : Step s (s.send .stop)
  -- the worker skips a request whose receiver is gone
  | expired {s : State ι} {i : ι} {addresses : List IpAddr} {rest : List (Message ι)}
      (hidle : s.thread = .idle) (hnext : s.channel = .prepare i addresses :: rest)
      (hclosed : s.callers i ≠ .waiting) :
      Step s { s with channel := rest, current := some i }
  | accept {s : State ι} {i : ι} {addresses : List IpAddr} {rest : List (Message ι)}
      (hidle : s.thread = .idle) (hnext : s.channel = .prepare i addresses :: rest)
      (hopen : s.callers i = .waiting) :
      Step s { s with channel := rest, current := some i, thread := .preparing i addresses }
  | finish {s : State ι} {i : ι} {addresses : List IpAddr} {result : Except UpdateError Unit}
      {worker : Worker} (hbusy : s.thread = .preparing i addresses)
      (h : Outcome (s.worker.prepareBypasses addresses) (result, worker)) :
      Step s (s.finishPrepare i result worker)
  | committed {s : State ι} {i : ι} {rest : List (Message ι)} (hidle : s.thread = .idle)
      (hnext : s.channel = .commit i :: rest) :
      Step s { s with
        channel := rest, current := none, worker := s.worker.commitBypasses, preparedFor := none,
        committed := s.preparedFor.toList ++ s.committed }
  | rolledBack {s : State ι} {i : ι} {rest : List (Message ι)} {worker : Worker}
      (hidle : s.thread = .idle) (hnext : s.channel = .rollback i :: rest)
      (h : Outcome s.worker.rollbackBypasses worker) :
      Step s { s with
        channel := rest, current := none, worker := worker, preparedFor := none,
        origin := s.stillOwned worker.record.ownedRoutes }
  | ticked {s : State ι} {tunTarget : InterfaceTarget} {worker₁ worker₂ : Worker}
      (hidle : s.thread = .idle) (h₁ : Outcome (s.worker.reconcile tunTarget) worker₁)
      (h₂ : Outcome worker₁.refresh worker₂) :
      Step s { s with
        worker := worker₂, origin := fun r => if r ∈ worker₂.record.ownedRoutes then
          s.stillOwned worker₁.record.ownedRoutes r else none }
  | ended {s : State ι} {rest : List (Message ι)} (hidle : s.thread = .idle)
      (hnext : s.channel = .stop :: rest) :
      Step s { s with channel := [], thread := .stopped }

/-! ## 2. The order of the commands -/

/-- A request opens, and its decision closes. -/
def Message.next : Message ι → Option ι → Option (Option ι)
  | .prepare i _, none => some (some i)
  | .commit i, some j => if i = j then some none else none
  | .rollback i, some j => if i = j then some none else none
  | .stop, current => some current
  | _, _ => none

/-- Whose request is open after the commands. -/
def after : List (Message ι) → Option ι → Option (Option ι)
  | [], current => some current
  | m :: ms, current => (m.next current).bind (after ms)

def Message.requester : Message ι → Option ι
  | .prepare i _ => some i
  | _ => none

theorem after_concat {ms : List (Message ι)} {m : Message ι} {current : Option ι} :
    after (ms ++ [m]) current = (after ms current).bind m.next := by
  induction ms generalizing current with
  | nil =>
    show (m.next current).bind (after []) = m.next current
    cases m.next current <;> rfl
  | cons m' ms ih =>
    rw [List.cons_append, after, after]
    cases m'.next current with
    | none => rfl
    | some c => exact ih

/-- The requests that are open or still in the channel. -/
def State.requests (s : State ι) : List ι :=
  s.current.toList ++ s.channel.filterMap Message.requester

/-- Lock, requests and replies. -/
structure Filed (s : State ι) : Prop where
  lock : ∀ i, (s.callers i).locked = true → s.operation = some i
  preparing : ∀ i addresses, s.thread = .preparing i addresses →
    s.current = some i ∧ s.replies i = none
  early : ∀ i, s.callers i = .calling ∨ s.callers i = .holding →
    s.replies i = none ∧ i ∉ s.requests
  nodup : s.requests.Nodup
  unanswered : ∀ i ∈ s.channel.filterMap Message.requester, s.replies i = none
  reported : ∀ i, s.callers i = .prepared ∨ .commit i ∈ s.channel →
    s.replies i = some (.ok ())

/-- **The decisions follow the requests**; the request that is open in the end is that of the
    caller with a guard. -/
def Ordered (s : State ι) : Prop :=
  s.thread ≠ .stopped → ∃ last, after s.channel s.current = some last ∧
    ∀ i, last = some i ↔ (s.callers i).alive = true

theorem Caller.locked_of_alive {c : Caller} (h : c.alive = true) : c.locked = true := by
  cases c with
  | waiting | closing | prepared => rfl
  | _ => cases h

section Send

omit [DecidableEq ι]

theorem State.send_running {s : State ι} (h : s.thread ≠ .stopped) (m : Message ι) :
    s.send m = { s with channel := s.channel ++ [m] } := by
  unfold State.send
  split
  · exact absurd ‹_› h
  · rfl

theorem State.send_stopped {s : State ι} (h : s.thread = .stopped) (m : Message ι) :
    s.send m = s := by
  unfold State.send
  rw [h]

end Send

/-! ## 3. Lock, requests and replies -/

namespace Filed

omit [DecidableEq ι]

variable {s : State ι} {i j : ι} {c : Caller}

/-- There is one caller with the lock. -/
theorem unique (h : Filed s) (hi : (s.callers i).locked = true)
    (hj : (s.callers j).locked = true) : j = i :=
  Option.some.inj ((h.lock j hj).symm.trans (h.lock i hi))

theorem start (record : InstallRecord) : Filed (State.start record : State ι) where
  lock := nofun
  preparing := nofun
  early _ _ := ⟨rfl, List.not_mem_nil⟩
  nodup := List.nodup_nil
  unanswered := nofun
  reported _ hi := hi.elim nofun nofun

/-- The caller keeps the lock. -/
theorem keepsLock [DecidableEq ι] (h : Filed s) (hi : (s.callers i).locked = true) :
    ∀ j, (Function.update s.callers i c j).locked = true → s.operation = some j := by
  grind [Function.update_apply, h.lock]

/-- The caller releases the lock. -/
theorem releasesLock [DecidableEq ι] (h : Filed s) (hi : (s.callers i).locked = true) :
    ∀ j, (Function.update s.callers i .finished j).locked = true → none = some j := by
  grind [Function.update_apply, h.unique hi, Caller.locked]

/-- A caller goes on. -/
theorem setCaller [DecidableEq ι] {operation : Option ι} (h : Filed s)
    (hlock : ∀ j, (Function.update s.callers i c j).locked = true → operation = some j)
    (hearly : c = .calling ∨ c = .holding → s.callers i = .calling ∨ s.callers i = .holding)
    (hprepared : c = .prepared → s.replies i = some (.ok ())) :
    Filed { s.setCaller i c with operation := operation } where
  lock := hlock
  preparing := h.preparing
  early j hj := h.early j (by grind)
  nodup := h.nodup
  unanswered := h.unanswered
  reported j hj := by
    rcases hj with hj | hj
    · have hj' := h.reported j
      change s.replies j = _
      grind
    · exact h.reported j (.inr hj)

/-- A command that is no request is sent. -/
theorem send {m : Message ι} (h : Filed s) (hm : m.requester = none)
    (hcommit : ∀ j, m = .commit j → s.replies j = some (.ok ())) : Filed (s.send m) := by
  by_cases hrun : s.thread = .stopped
  · rw [State.send_stopped hrun]
    exact h
  have hrequests : (s.channel ++ [m]).filterMap Message.requester =
      s.channel.filterMap Message.requester := by
    rw [List.filterMap_append, List.filterMap_cons_none hm]
    exact List.append_nil _
  have hsame : ({ s with channel := s.channel ++ [m] } : State ι).requests = s.requests := by
    unfold State.requests
    rw [hrequests]
  rw [State.send_running hrun]
  refine ⟨h.lock, h.preparing, fun j hj => hsame ▸ h.early j hj, hsame ▸ h.nodup,
    hrequests ▸ h.unanswered, fun j hj => ?_⟩
  grind [h.reported]

/-- A request is sent. -/
theorem request [DecidableEq ι] {addresses : List IpAddr} (h : Filed s)
    (hi : s.callers i = .holding) (hrun : s.thread ≠ .stopped) :
    Filed ((s.setCaller i .waiting).send (.prepare i addresses)) := by
  obtain ⟨hnone, hnew⟩ := h.early i (.inr hi)
  have hset : Filed (s.setCaller i .waiting) :=
    h.setCaller (h.keepsLock (by rw [hi]; rfl)) (by simp) nofun
  have hrequests : (s.channel ++ [Message.prepare i addresses]).filterMap Message.requester =
      s.channel.filterMap Message.requester ++ [i] := by
    rw [List.filterMap_append]
    rfl
  have hmore : ({ s.setCaller i .waiting with
      channel := s.channel ++ [.prepare i addresses] } : State ι).requests =
      s.requests ++ [i] := by
    unfold State.requests
    rw [List.append_assoc, ← hrequests]
    rfl
  rw [State.send_running (s := s.setCaller i .waiting) hrun]
  refine ⟨hset.lock, hset.preparing, fun j hj => ?_, ?_, ?_, fun j hj => ?_⟩
  · obtain ⟨hreply, hnot⟩ := hset.early j hj
    refine ⟨hreply, fun hm => ?_⟩
    have hm : j ∈ s.requests ++ [i] := hmore ▸ hm
    rcases List.mem_append.mp hm with hm | hm
    · exact hnot hm
    · grind
  · refine hmore ▸ ?_
    grind [h.nodup]
  · refine hrequests ▸ fun j hj => ?_
    exact (List.mem_append.mp hj).elim (h.unanswered j) fun hj => List.mem_singleton.mp hj ▸ hnone
  · refine hset.reported j (hj.imp_right fun hj => ?_)
    grind

variable {rest : List (Message ι)}

/-- The worker takes a command: no request is new. -/
theorem take {current : Option ι} {thread : Thread ι} (h : Filed s)
    (hsub : (current.toList ++ rest.filterMap Message.requester).Sublist s.requests)
    (hrest : rest.Sublist s.channel)
    (hthread : ∀ i addresses, thread = .preparing i addresses →
      current = some i ∧ s.replies i = none) :
    Filed { s with channel := rest, current := current, thread := thread } where
  lock := h.lock
  preparing := hthread
  early j hj := ⟨(h.early j hj).1, fun hm => (h.early j hj).2 (hsub.subset hm)⟩
  nodup := hsub.nodup h.nodup
  unanswered j hj := h.unanswered j ((hrest.filterMap _).subset hj)
  reported j hj := h.reported j (hj.imp_right fun hj => hrest.subset hj)

theorem takePrepare {addresses : List IpAddr} {thread : Thread ι} (h : Filed s)
    (hnext : s.channel = .prepare i addresses :: rest) (hnone : s.current = none)
    (hthread : thread = .idle ∨ thread = .preparing i addresses) :
    Filed { s with channel := rest, current := some i, thread := thread } := by
  have hsame : s.requests = i :: rest.filterMap Message.requester := by
    rw [State.requests, hnext, hnone]
    rfl
  refine h.take (hsame ▸ .refl _) (hnext ▸ List.sublist_cons_self _ rest) fun j a hj => ?_
  rcases hthread with rfl | rfl
  · cases hj
  · cases hj
    exact ⟨rfl, h.unanswered i (hnext ▸ List.mem_cons_self)⟩

theorem takeDecision {m : Message ι} (h : Filed s) (hidle : s.thread = .idle)
    (hnext : s.channel = m :: rest) : Filed { s with channel := rest, current := none } := by
  have hrest : rest.Sublist s.channel := hnext ▸ List.sublist_cons_self m rest
  exact h.take ((hrest.filterMap _).trans (List.sublist_append_right _ _)) hrest
    fun j a hj => nomatch hidle.symm.trans hj

/-- What the worker does to its own data is not seen here. -/
theorem worker {worker : Worker} {preparedFor : Option ι} {committed : List ι}
    {origin : RouteSpec → Option ι} (h : Filed s) :
    Filed { s with
      worker := worker, preparedFor := preparedFor, committed := committed, origin := origin } :=
  ⟨h.lock, h.preparing, h.early, h.nodup, h.unanswered, h.reported⟩

/-- The reply to the open request. -/
theorem finishPrepare [DecidableEq ι] {addresses : List IpAddr} {result : Except UpdateError Unit}
    {worker : Worker} (h : Filed s) (hbusy : s.thread = .preparing i addresses) :
    Filed (s.finishPrepare i result worker) := by
  obtain ⟨hcurrent, hnone⟩ := h.preparing i addresses hbusy
  have hopen : i ∈ s.requests := by
    unfold State.requests
    rw [hcurrent]
    exact List.mem_cons_self
  have hreplies : ∀ j, j ≠ i → (s.finishPrepare i result worker).replies j = s.replies j := by
    intro j hj
    unfold State.finishPrepare
    dsimp only
    split
    · exact Function.update_of_ne hj _ _
    · rfl
  refine ⟨h.lock, nofun, fun j hj => ?_, h.nodup, fun j hj => ?_, fun j hj => ?_⟩
  · obtain ⟨hreply, hnot⟩ := h.early j hj
    exact ⟨(hreplies j fun e => hnot (e ▸ hopen)).trans hreply, hnot⟩
  · refine (hreplies j ?_).trans (h.unanswered j hj)
    rintro rfl
    have hn := h.nodup
    rw [State.requests, hcurrent] at hn
    exact (List.nodup_cons.mp hn).1 hj
  · have hok := h.reported j hj
    refine (hreplies j ?_).trans hok
    rintro rfl
    cases hnone.symm.trans hok

theorem ended (h : Filed s) : Filed { s with channel := [], thread := .stopped } :=
  h.take (List.Sublist.append_left (List.nil_sublist _) _) (List.nil_sublist _) nofun

end Filed

/-! ## 4. Requests and decisions -/

namespace Ordered

variable {s : State ι} {i j : ι} {c : Caller} {rest : List (Message ι)}

theorem start (record : InstallRecord) : Ordered (State.start record : State ι) :=
  fun _ => ⟨none, rfl, fun _ => ⟨nofun, nofun⟩⟩

/-- A caller goes on without a word to the worker. -/
theorem setCaller {operation : Option ι} (h : Ordered s)
    (halive : s.thread ≠ .stopped → c.alive = (s.callers i).alive) :
    Ordered { s.setCaller i c with operation := operation } := by
  intro hrun
  obtain ⟨last, hlast, hiff⟩ := h hrun
  have halive := halive hrun
  exact ⟨last, hlast, fun j => (hiff j).trans (by grind)⟩

/-- The caller with the lock sends its request: nobody else has a guard. -/
theorem request {addresses : List IpAddr} (h : Ordered s) (hf : Filed s)
    (hi : s.callers i = .holding) (hrun : s.thread ≠ .stopped) :
    Ordered ((s.setCaller i .waiting).send (.prepare i addresses)) := by
  obtain ⟨last, hlast, hiff⟩ := h hrun
  have hdead : ∀ j, (s.callers j).alive = true → False := by
    intro j hj
    rw [hf.unique (by rw [hi]; rfl) (Caller.locked_of_alive hj), hi] at hj
    cases hj
  obtain rfl : last = none := by
    cases last with
    | none => rfl
    | some j => exact (hdead j ((hiff j).mp rfl)).elim
  rw [State.send_running (s := s.setCaller i .waiting) hrun]
  refine fun _ => ⟨some i, ?_, fun j => ?_⟩
  · show after (s.channel ++ [.prepare i addresses]) s.current = _
    rw [after_concat, hlast]
    rfl
  · show some i = some j ↔ (Function.update s.callers i .waiting j).alive = true
    grind [Function.update_apply, Caller.alive]

/-- The caller with the guard sends its decision. -/
theorem decision {m : Message ι} (h : Ordered s) (hf : Filed s)
    (hi : (s.callers i).alive = true) (hm : m = .rollback i ∨ m = .commit i) :
    Ordered ((s.setCaller i .leaving).send m) := by
  by_cases hrun : s.thread = .stopped
  · rw [State.send_stopped (s := s.setCaller i .leaving) hrun]
    exact fun hrun' => absurd hrun hrun'
  obtain ⟨last, hlast, hiff⟩ := h hrun
  obtain rfl := (hiff i).mpr hi
  rw [State.send_running (s := s.setCaller i .leaving) hrun]
  refine fun _ => ⟨none, ?_, fun j => ⟨nofun, fun ha => ?_⟩⟩
  · show after (s.channel ++ [m]) s.current = _
    rw [after_concat, hlast]
    rcases hm with rfl | rfl <;> exact if_pos rfl
  · have ha : (Function.update s.callers i .leaving j).alive = true := ha
    by_cases hj : j = i
    · rw [hj, Function.update_self] at ha
      cases ha
    · rw [Function.update_of_ne hj] at ha
      exact absurd (hf.unique (Caller.locked_of_alive hi) (Caller.locked_of_alive ha)) hj

theorem stop (h : Ordered s) : Ordered (s.send .stop) := by
  by_cases hrun : s.thread = .stopped
  · rw [State.send_stopped hrun]
    exact h
  rw [State.send_running hrun]
  obtain ⟨last, hlast, hiff⟩ := h hrun
  refine fun _ => ⟨last, ?_, hiff⟩
  show after (s.channel ++ [.stop]) s.current = _
  rw [after_concat, hlast]
  rfl

/-- **No request is open when the worker takes one.** -/
theorem takePrepare {addresses : List IpAddr} (h : Ordered s) (thread : Thread ι)
    (hidle : s.thread = .idle) (hnext : s.channel = .prepare i addresses :: rest) :
    s.current = none ∧
      Ordered { s with channel := rest, current := some i, thread := thread } := by
  obtain ⟨last, hlast, hiff⟩ := h (by rw [hidle]; nofun)
  rw [hnext, after] at hlast
  cases hcurrent : s.current with
  | none =>
    rw [hcurrent] at hlast
    exact ⟨rfl, fun _ => ⟨last, hlast, hiff⟩⟩
  | some j =>
    rw [hcurrent] at hlast
    cases hlast

/-- **A decision is about the open request.** -/
theorem takeDecision {m : Message ι} (h : Ordered s) (hidle : s.thread = .idle)
    (hnext : s.channel = m :: rest) (hm : m = .rollback i ∨ m = .commit i) :
    s.current = some i ∧ Ordered { s with channel := rest, current := none } := by
  obtain ⟨last, hlast, hiff⟩ := h (by rw [hidle]; nofun)
  rw [hnext, after] at hlast
  have hmatch : s.current = some i ∧ m.next s.current = some none := by
    cases hcurrent : s.current with
    | none =>
      rw [hcurrent] at hlast
      rcases hm with rfl | rfl <;> cases hlast
    | some j =>
      rw [hcurrent] at hlast
      by_cases heq : i = j
      · subst heq
        rcases hm with rfl | rfl <;> exact ⟨rfl, if_pos rfl⟩
      · have hbad : m.next (some j) = none := by
          rcases hm with rfl | rfl <;> exact if_neg heq
        rw [hbad] at hlast
        cases hlast
  rw [hmatch.2] at hlast
  exact ⟨hmatch.1, fun _ => ⟨last, hlast, hiff⟩⟩

end Ordered

/-! ## 5. Updates and their rows -/

/-- **The pending update is that of the open request**, and the rows of updates that are not
    committed are its rows, or wait to be rolled back. -/
structure Ledger (s : State ι) : Prop where
  closed : s.current = none → s.worker.pending = none
  preparing : ∀ i addresses, s.thread = .preparing i addresses → s.worker.pending = none
  owner : ∀ update, s.worker.pending = some update → s.preparedFor = s.current ∧
    ∀ r ∈ update.added, r ∈ s.worker.record.ownedRoutes → s.origin r = s.preparedFor
  reported : ∀ i, s.thread = .idle → s.current = some i → s.replies i = some (.ok ()) →
    ∃ update, s.worker.pending = some update
  origins : ∀ r ∈ s.worker.record.ownedRoutes, ∀ i, s.origin r = some i → i ∉ s.committed →
    (∃ update, s.worker.pending = some update ∧ r ∈ update.added) ∨ r ∈ s.worker.rollbackRoutes

namespace Ledger

omit [DecidableEq ι]

variable {s : State ι} {i : ι} {rest : List (Message ι)}

theorem start (record : InstallRecord) : Ledger (State.start record : State ι) :=
  ⟨fun _ => rfl, nofun, nofun, nofun, nofun⟩

/-- The callers do not touch the worker's data. -/
theorem callers {callers : ι → Caller} {operation : Option ι} {channel : List (Message ι)}
    (h : Ledger s) :
    Ledger { s with callers := callers, operation := operation, channel := channel } :=
  ⟨h.closed, h.preparing, h.owner, h.reported, h.origins⟩

theorem send {m : Message ι} (h : Ledger s) : Ledger (s.send m) := by
  by_cases hrun : s.thread = .stopped
  · rw [State.send_stopped hrun]
    exact h
  · rw [State.send_running hrun]
    exact h.callers

theorem takePrepare {thread : Thread ι} (h : Ledger s) (hnone : s.current = none)
    (hreply : s.replies i = none) :
    Ledger { s with channel := rest, current := some i, thread := thread } := by
  have hpending := h.closed hnone
  refine ⟨fun _ => hpending, fun _ _ _ => hpending, fun update hu => ?_, fun j _ hj hok => ?_,
    h.origins⟩
  · cases hpending.symm.trans hu
  · cases hj
    cases hreply.symm.trans hok

theorem finishPrepare [DecidableEq ι] {addresses : List IpAddr}
    {result : Except UpdateError Unit} {worker : Worker} (h : Ledger s) (hf : Filed s)
    (hbusy : s.thread = .preparing i addresses)
    (hout : Outcome (s.worker.prepareBypasses addresses) (result, worker)) :
    Ledger (s.finishPrepare i result worker) := by
  obtain ⟨hcurrent, hreply⟩ := hf.preparing i addresses hbusy
  have hpending := h.preparing i addresses hbusy
  -- a row the preparation did not add and that is still owned waited to be rolled back
  have hkept : ∀ r ∈ worker.record.ownedRoutes, r ∉ worker.provisional →
      r ∈ s.worker.record.ownedRoutes → ∀ j,
      (s.finishPrepare i result worker).origin r = some j → j ∉ s.committed →
      r ∈ s.worker.rollbackRoutes := by
    intro r hr hn hold j hj hnot
    have hj : s.origin r = some j := by
      rw [← hj]
      exact ((if_neg hn).trans (if_pos hr)).symm
    rcases h.origins r hold j hj hnot with ⟨u, hu, -⟩ | hm
    · cases hpending.symm.trans hu
    · exact hm
  obtain ⟨-, ⟨update, hnew, -, howned⟩ | ⟨hrefused, hsame, howned⟩⟩ :=
    Worker.prepareBypasses_outcome hout
  · have hprovisional : worker.provisional = update.added := by rw [Worker.provisional, hnew]
    have hfor : (s.finishPrepare i result worker).preparedFor = some i := by
      rw [State.finishPrepare, hnew]
      rfl
    refine ⟨fun hc => (nomatch hcurrent.symm.trans hc), nofun,
      fun u hu => ⟨hfor.trans hcurrent.symm, fun r hr _ => ?_⟩,
      fun _ _ _ _ => ⟨update, hnew⟩, fun r hr j hj hnot => ?_⟩
    · obtain rfl : update = u := Option.some.inj (hnew.symm.trans hu)
      rw [hfor]
      exact if_pos (hprovisional ▸ hr)
    · by_cases hadded : r ∈ update.added
      · exact .inl ⟨update, hnew, hadded⟩
      · obtain ⟨hold, hgone⟩ := (howned r hr).resolve_left hadded
        exact absurd (hkept r hr (hprovisional ▸ hadded) hold j hj hnot) hgone
  · have hnone : worker.pending = none := hsame.trans hpending
    have hprovisional : worker.provisional = [] := by rw [Worker.provisional, hnone]
    refine ⟨fun _ => hnone, nofun, fun u hu => (nomatch hnone.symm.trans hu),
      fun j _ hj hok => ?_, fun r hr j hj hnot => ?_⟩
    · obtain rfl : i = j := Option.some.inj (hcurrent.symm.trans hj)
      have hok : (if s.callers i = .waiting then Function.update s.replies i (some result)
        else s.replies) i = some (.ok ()) := hok
      grind [Function.update_apply]
    · obtain ⟨hold, hstays⟩ := howned r hr
      exact .inr (hstays (hkept r hr (hprovisional ▸ List.not_mem_nil) hold j hj hnot))

theorem commit (h : Ledger s) (hidle : s.thread = .idle) :
    Ledger { s with
      channel := rest, current := none, worker := s.worker.commitBypasses, preparedFor := none,
      committed := s.preparedFor.toList ++ s.committed } := by
  have hcommit : s.worker.commitBypasses.pending = none ∧
      s.worker.commitBypasses.record.ownedRoutes = s.worker.record.ownedRoutes ∧
      s.worker.commitBypasses.rollbackRoutes = s.worker.rollbackRoutes := by
    unfold Worker.commitBypasses
    split
    · exact ⟨rfl, rfl, rfl⟩
    · exact ⟨‹_›, rfl, rfl⟩
  obtain ⟨hnone, howned, hrollback⟩ := hcommit
  refine ⟨fun _ => hnone, fun i a hi => (nomatch hidle.symm.trans hi),
    fun u hu => (nomatch hnone.symm.trans hu), nofun, fun r hr j hj hnot => ?_⟩
  have hr : r ∈ s.worker.record.ownedRoutes := howned ▸ hr
  rw [List.mem_append, not_or] at hnot
  rcases h.origins r hr j hj hnot.2 with ⟨u, hu, hadded⟩ | hm
  · -- the row is the committed update's
    have hfor : s.preparedFor = some j := ((h.owner u hu).2 r hadded hr).symm.trans hj
    exact absurd (by rw [hfor]; exact List.mem_cons_self) hnot.1
  · exact .inr (hrollback.symm ▸ hm)

theorem rollback {worker : Worker} (h : Ledger s) (hidle : s.thread = .idle)
    (hout : Outcome s.worker.rollbackBypasses worker) :
    Ledger { s with
      channel := rest, current := none, worker := worker, preparedFor := none,
      origin := s.stillOwned worker.record.ownedRoutes } := by
  obtain ⟨hnone, hrolled⟩ := Worker.rollbackBypasses_outcome hout
  refine ⟨fun _ => hnone, fun i a hi => (nomatch hidle.symm.trans hi),
    fun u hu => (nomatch hnone.symm.trans hu), nofun, fun r hr j hj hnot => .inr ?_⟩
  have hj : s.origin r = some j := (if_pos hr).symm.trans hj
  refine hrolled.kept r hr (List.mem_append.mpr ?_)
  rcases h.origins r (hrolled.owned hr) j hj hnot with ⟨u, hu, hadded⟩ | hm
  · refine .inr ?_
    rw [Worker.provisional, hu]
    exact hadded
  · exact .inl hm

theorem tick {tunTarget : InterfaceTarget} {worker₁ worker₂ : Worker} (h : Ledger s)
    (hidle : s.thread = .idle) (h₁ : Outcome (s.worker.reconcile tunTarget) worker₁)
    (h₂ : Outcome worker₁.refresh worker₂) :
    Ledger { s with
      worker := worker₂, origin := fun r => if r ∈ worker₂.record.ownedRoutes then
        s.stillOwned worker₁.record.ownedRoutes r else none } := by
  obtain ⟨hpending₁, hrolled⟩ := Worker.reconcile_outcome h₁
  obtain ⟨hpending₂, hrollback, hquiet, -⟩ := Worker.refresh_outcome h₂
  have hpending : worker₂.pending = s.worker.pending := hpending₂.trans hpending₁
  refine ⟨fun hc => hpending.trans (h.closed hc),
    fun i a hi => (nomatch hidle.symm.trans hi), fun u hu => ?_,
    fun i hi hc hok => ?_, fun r hr j hj hnot => ?_⟩
  · have hu : s.worker.pending = some u := hpending.symm.trans hu
    obtain ⟨hfor, hrows⟩ := h.owner u hu
    refine ⟨hfor, fun r hadded hr => ?_⟩
    -- nothing is refreshed while the update is pending
    have hsame : worker₂ = worker₁ := hquiet (by rw [hpending₁, hu]; nofun)
    have hr₁ : r ∈ worker₁.record.ownedRoutes := hsame ▸ hr
    exact ((if_pos hr).trans (if_pos hr₁)).trans (hrows r hadded (hrolled.owned hr₁))
  · obtain ⟨u, hu⟩ := h.reported i hi hc hok
    exact ⟨u, hpending.trans hu⟩
  · have hj : s.stillOwned worker₁.record.ownedRoutes r = some j := (if_pos hr).symm.trans hj
    have hr₁ : r ∈ worker₁.record.ownedRoutes := by
      by_contra hn
      rw [State.stillOwned, if_neg hn] at hj
      cases hj
    have hj : s.origin r = some j := (if_pos hr₁).symm.trans hj
    rcases h.origins r (hrolled.owned hr₁) j hj hnot with ⟨u, hu, hadded⟩ | hm
    · exact .inl ⟨u, hpending.trans hu, hadded⟩
    · exact .inr (hrollback.symm ▸ hrolled.kept r hr₁ hm)

theorem ended (h : Ledger s) : Ledger { s with channel := [], thread := .stopped } :=
  ⟨h.closed, nofun, h.owner, nofun, h.origins⟩

end Ledger

/-! ## 6. Every step, every run -/

structure Consistent (s : State ι) : Prop where
  filed : Filed s
  ordered : Ordered s
  ledger : Ledger s

namespace Consistent

variable {s s' : State ι} {i : ι} {c : Caller}

theorem start (record : InstallRecord) : Consistent (State.start record : State ι) :=
  ⟨.start record, .start record, .start record⟩

/-- A caller keeps the lock, or does not have it yet. -/
theorem setCaller {operation : Option ι} (h : Consistent s)
    (hlock : ∀ j, (Function.update s.callers i c j).locked = true → operation = some j)
    (hearly : c = .calling ∨ c = .holding → s.callers i = .calling ∨ s.callers i = .holding)
    (hprepared : c = .prepared → s.replies i = some (.ok ()))
    (halive : s.thread ≠ .stopped → c.alive = (s.callers i).alive) :
    Consistent { s.setCaller i c with operation := operation } :=
  ⟨h.filed.setCaller hlock hearly hprepared, h.ordered.setCaller halive, h.ledger.callers⟩

/-- The caller with a guard decides. -/
theorem decision {m : Message ι} (h : Consistent s) (hi : (s.callers i).alive = true)
    (hm : m = .rollback i ∨ m = .commit i)
    (hcommit : m = .commit i → s.replies i = some (.ok ())) :
    Consistent ((s.setCaller i .leaving).send m) := by
  have hset : Filed (s.setCaller i .leaving) :=
    h.filed.setCaller (h.filed.keepsLock (Caller.locked_of_alive hi)) (by simp) nofun
  refine ⟨hset.send ?_ ?_, h.ordered.decision h.filed hi hm, h.ledger.callers.send⟩
  · rcases hm with rfl | rfl <;> rfl
  · intro j hj
    rcases hm with rfl | rfl
    · cases hj
    · cases hj
      exact hcommit rfl

/-- The worker takes a request. -/
theorem takePrepare {addresses : List IpAddr} {rest : List (Message ι)} (h : Consistent s)
    (thread : Thread ι) (hidle : s.thread = .idle)
    (hnext : s.channel = .prepare i addresses :: rest)
    (hthread : thread = .idle ∨ thread = .preparing i addresses) :
    Consistent { s with channel := rest, current := some i, thread := thread } := by
  obtain ⟨hnone, hordered⟩ := h.ordered.takePrepare thread hidle hnext
  have hreply : s.replies i = none := by
    refine h.filed.unanswered i ?_
    rw [hnext]
    exact List.mem_cons_self
  exact ⟨h.filed.takePrepare hnext hnone hthread, hordered, h.ledger.takePrepare hnone hreply⟩

theorem step (h : Consistent s) (hs : Step s s') : Consistent s' := by
  have hf := h.filed
  cases hs with
  | @lock i hi hfree =>
    refine h.setCaller (fun j hj => ?_) (fun _ => .inl hi) nofun fun _ => by rw [hi]; rfl
    grind [Function.update_apply, hf.lock]
  | @giveUp i hi =>
    refine h.setCaller (fun j hj => ?_) (by simp) nofun fun _ => by rw [hi]; rfl
    grind [Function.update_apply, hf.lock, Caller.locked]
  | notReady hi =>
    exact h.setCaller (hf.releasesLock (by rw [hi]; rfl)) (by simp) nofun
      fun _ => by rw [hi]; rfl
  | request hi hrun addresses =>
    exact ⟨hf.request hi hrun, h.ordered.request hf hi hrun, h.ledger.callers.send⟩
  | requestFails hi hended =>
    exact h.setCaller (hf.keepsLock (by rw [hi]; rfl)) (by simp) nofun
      fun hrun => absurd hended hrun
  | receive hi hok =>
    exact h.setCaller (hf.keepsLock (by rw [hi]; rfl)) (by simp) (fun _ => hok)
      fun _ => by rw [hi]; rfl
  | close hi =>
    exact h.setCaller (hf.keepsLock (by rw [hi]; rfl)) (by simp) nofun fun _ => by rw [hi]; rfl
  | drop hi =>
    refine h.decision ?_ (.inl rfl) nofun
    rcases hi with hi | hi <;> rw [hi] <;> rfl
  | @commit i hi hrun =>
    exact h.decision (by rw [hi]; rfl) (.inr rfl) fun _ => hf.reported i (.inl hi)
  | unlock hi =>
    exact h.setCaller (hf.releasesLock (by rw [hi]; rfl)) (by simp) nofun
      fun _ => by rw [hi]; rfl
  | stop => exact ⟨hf.send rfl nofun, h.ordered.stop, h.ledger.send⟩
  | expired hidle hnext hclosed =>
    exact h.takePrepare s.thread hidle hnext (.inl hidle)
  | accept hidle hnext hopen => exact h.takePrepare _ hidle hnext (.inr rfl)
  | finish hbusy hout =>
    refine ⟨hf.finishPrepare hbusy, fun _ => h.ordered ?_, h.ledger.finishPrepare hf hbusy hout⟩
    rw [hbusy]
    nofun
  | committed hidle hnext =>
    exact ⟨(hf.takeDecision hidle hnext).worker,
      (h.ordered.takeDecision hidle hnext (.inr rfl)).2, h.ledger.commit hidle⟩
  | rolledBack hidle hnext hout =>
    exact ⟨(hf.takeDecision hidle hnext).worker,
      (h.ordered.takeDecision hidle hnext (.inl rfl)).2, h.ledger.rollback hidle hout⟩
  | ticked hidle h₁ h₂ => exact ⟨hf.worker, h.ordered, h.ledger.tick hidle h₁ h₂⟩
  | ended hidle hnext => exact ⟨hf.ended, fun hrun => absurd rfl hrun, h.ledger.ended⟩

theorem reachable {record : InstallRecord} (h : ReflTransGen Step (State.start record) s) :
    Consistent s := by
  induction h with
  | refl => exact .start record
  | tail _ hs ih => exact ih.step hs

/-- Nothing is provisional when no request is open. -/
theorem settled (h : Consistent s) (hrun : s.thread ≠ .stopped) (hempty : s.channel = [])
    (hdead : ∀ i, (s.callers i).alive = false) : s.worker.pending = none := by
  obtain ⟨last, hlast, hiff⟩ := h.ordered hrun
  rw [hempty] at hlast
  cases hlast
  refine h.ledger.closed ?_
  cases hcurrent : s.current with
  | none => rfl
  | some i => cases (hdead i).symm.trans ((hiff i).mp hcurrent)

end Consistent

end Machine

/-! ## 7. A sample run -/

end Tun2Proxy.Windows
