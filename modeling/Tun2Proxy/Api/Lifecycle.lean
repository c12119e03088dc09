/-
  File:      Tun2Proxy/Api/Lifecycle.lean
  Subject:   Starting and stopping a run through the C interface (src/general_api.rs).

  `TUN_QUIT` holds the cancellation token of the run that `tun2proxy_stop` cancels. A call of
  `general_run_for_api` fills it, and empties it when its run is over; `tun2proxy_stop` empties it
  too. Neither looks at whose token it takes out. The calls are told apart by an index, which also
  stands for the token each of them makes; a section under the lock is one event.

  A run that was stopped is not over at once. A call that starts in between has its token taken
  out by the end of the first run, and can no longer be stopped (`stop_misses_running_call`). A
  call whose runtime cannot be created returns without emptying the slot. Without these two, the
  slot holds the token of the run that is active (`slot_holds_active_run`).

  The timer that ends the process when a runtime does not shut down is left out, and so is a
  poisoned lock: no section panics.
-/
import Mathlib.Logic.Function.Basic
import Mathlib.Logic.Relation

open Relation

namespace Tun2Proxy

/-! ## 1. Calls -/

/-- Where a call of `general_run_for_api` stands. -/
inductive CallPhase where
  | unstarted
  -- its token is in the slot, and the runtime is not there yet
  | started
  | running
  -- the run is over, with this result of the call
  | finishing (code : Int)
  | returned (code : Int)
  deriving DecidableEq

/-- The call has filled the slot and has not returned. -/
def CallPhase.active : CallPhase → Bool
  | started | running | finishing _ => true
  | unstarted | returned _ => false

/-- `TUN_QUIT`, the calls, and the tokens that are cancelled. -/
structure Api (ι : Type) where
  slot : Option ι
  calls : ι → CallPhase
  cancelled : ι → Bool

inductive ApiEvent (ι : Type) where
  /-- The first section of a call. -/
  | start (i : ι)
  /-- The runtime is created, or it cannot be. -/
  | create (i : ι) (ok : Bool)
  /-- The run ends, well or with an error. -/
  | finish (i : ι) (ok : Bool)
  /-- The last section of a call. -/
  | release (i : ι)
  | stop

namespace Api

variable {ι : Type} [DecidableEq ι]

def new : Api ι := ⟨none, fun _ => .unstarted, fun _ => false⟩

def setCall (s : Api ι) (i : ι) (phase : CallPhase) : Api ι :=
  { s with calls := Function.update s.calls i phase }

@[simp] theorem setCall_self (s : Api ι) (i : ι) (phase : CallPhase) :
    (s.setCall i phase).calls i = phase := Function.update_self _ _ _

theorem setCall_of_ne (s : Api ι) {i j : ι} (hj : j ≠ i) (phase : CallPhase) :
    (s.setCall i phase).calls j = s.calls j := Function.update_of_ne hj _ _

/-- `tun2proxy_stop_internal`: its result, and what it leaves. -/
def stopInternal (s : Api ι) : Int × Api ι :=
  match s.slot with
  | some i => (0, { s with slot := none, cancelled := Function.update s.cancelled i true })
  | none => (-1, s)

/-- The first section of `general_run_for_api`. -/
def startRun (s : Api ι) (i : ι) : Api ι :=
  match s.slot with
  | some _ => s.setCall i (.returned (-1))
  | none => { s.setCall i .started with slot := some i }

def next (s : Api ι) : ApiEvent ι → Option (Api ι)
  | .start i => if s.calls i = .unstarted then some (s.startRun i) else none
  | .create i ok =>
    if s.calls i = .started then some (s.setCall i (if ok then .running else .returned (-3)))
    else none
  | .finish i ok =>
    if s.calls i = .running then some (s.setCall i (.finishing (if ok then 0 else -4))) else none
  | .release i =>
    match s.calls i with
    | .finishing code => some { s.setCall i (.returned code) with slot := none }
    | _ => none
  | .stop => some s.stopInternal.2

/-- One event of the kind allowed. -/
def Step (allowed : Api ι → ApiEvent ι → Prop) (s s' : Api ι) : Prop :=
  ∃ event, allowed s event ∧ s.next event = some s'

/-- The events, one after the other. -/
def run : Api ι → List (ApiEvent ι) → Option (Api ι)
  | s, [] => some s
  | s, event :: rest => (s.next event).bind fun s' => s'.run rest

theorem run_reach {s s' : Api ι} {events : List (ApiEvent ι)} (h : s.run events = some s') :
    ReflTransGen (Step fun _ _ => True) s s' := by
  induction events generalizing s with
  | nil =>
    cases h
    exact .refl
  | cons event rest ih =>
    obtain ⟨t, ht, hrest⟩ := Option.bind_eq_some_iff.mp h
    exact .head ⟨event, trivial, ht⟩ (ih hrest)

/-! ## 2. What goes wrong -/

/-- The second call starts while the first run, which was stopped, has not come to its end. -/
def overlapping : List (ApiEvent Nat) :=
  [.start 0, .create 0 true, .stop, .start 1, .create 1 true, .finish 0 true, .release 0]

/-- **A run that cannot be stopped, and a slot that stays full.** In the first run the second call
    is running and has not been stopped, and `tun2proxy_stop` returns -1. In the second one every
    call has returned, and a new one is refused. -/
theorem stop_misses_running_call :
    (∃ s : Api Nat, ReflTransGen (Step fun _ _ => True) .new s ∧ s.calls 1 = .running ∧
      s.cancelled 1 = false ∧ s.slot = none ∧ s.stopInternal.1 = -1) ∧
    ∃ s : Api Nat, ReflTransGen (Step fun _ _ => True) .new s ∧
      (∀ i, (s.calls i).active = false) ∧ s.slot = some 0 ∧
      (s.startRun 1).calls 1 = .returned (-1) := by
  constructor
  · obtain ⟨s, hs⟩ : ∃ s, run .new overlapping = some s := ⟨_, rfl⟩
    refine ⟨s, run_reach hs, ?_⟩
    cases hs
    decide
  · obtain ⟨s, hs⟩ : ∃ s : Api Nat, run .new [.start 0, .create 0 false] = some s := ⟨_, rfl⟩
    refine ⟨s, run_reach hs, ?_⟩
    cases hs
    refine ⟨fun i => ?_, rfl, rfl⟩
    by_cases hi : i = 0
    · subst hi
      rfl
    · rw [setCall_of_ne _ hi]
      show ((Api.new.setCall 0 .started).calls i).active = false
      rw [setCall_of_ne _ hi]
      rfl

/-! ## 3. What holds otherwise -/

/-- Runtimes can be created, and no call starts before a run that was stopped has returned. -/
def Orderly (s : Api ι) : ApiEvent ι → Prop
  | .create _ ok => ok = true
  | .start _ => ∀ j, s.cancelled j = true → (s.calls j).active = false
  | _ => True

/-- One call is active at most, and its token is in the slot unless the run was stopped. -/
structure Exclusive (s : Api ι) : Prop where
  unique : ∀ i j, (s.calls i).active = true → (s.calls j).active = true → i = j
  holds : ∀ i, (s.calls i).active = true → s.cancelled i = false → s.slot = some i
  owned : ∀ i, s.slot = some i → (s.calls i).active = true ∧ s.cancelled i = false
  fresh : ∀ i, s.calls i = .unstarted → s.cancelled i = false

namespace Exclusive

variable {s s' : Api ι} {i : ι} {phase : CallPhase}

omit [DecidableEq ι] in
theorem new : Exclusive (.new : Api ι) where
  unique _ _ hi := by cases hi
  holds _ hi := by cases hi
  owned _ hi := by cases hi
  fresh _ _ := rfl

/-- A call that has started stays started. -/
theorem setCall_fresh (h : s.Exclusive) (hphase : phase ≠ .unstarted) (j : ι)
    (hj : (s.setCall i phase).calls j = .unstarted) : s.cancelled j = false := by
  by_cases hji : j = i
  · subst hji
    rw [setCall_self] at hj
    exact absurd hj hphase
  · rw [setCall_of_ne _ hji] at hj
    exact h.fresh j hj

/-- A call moves on, and is active if it was. -/
theorem setCall (h : s.Exclusive) (hactive : phase.active = (s.calls i).active)
    (hphase : phase ≠ .unstarted) : (s.setCall i phase).Exclusive := by
  have hsame : ∀ j, ((s.setCall i phase).calls j).active = (s.calls j).active := by
    intro j
    by_cases hj : j = i
    · subst hj
      rw [setCall_self, hactive]
    · rw [setCall_of_ne _ hj]
  constructor
  case unique =>
    intro j k hj hk
    exact h.unique j k ((hsame j).symm.trans hj) ((hsame k).symm.trans hk)
  case holds => exact fun j hj => h.holds j ((hsame j).symm.trans hj)
  case owned => exact fun j hj => ⟨(hsame j).trans (h.owned j hj).1, (h.owned j hj).2⟩
  case fresh => exact h.setCall_fresh hphase

theorem start (h : s.Exclusive) (hi : s.calls i = .unstarted)
    (horderly : ∀ j, s.cancelled j = true → (s.calls j).active = false) :
    (s.startRun i).Exclusive := by
  unfold startRun
  split
  case h_1 =>
    refine h.setCall ?_ nofun
    rw [hi]
    rfl
  case h_2 hslot =>
    -- no token is in the slot, so what is active was stopped, and what was stopped is not active
    have hnone : ∀ j, (s.calls j).active = false := by
      intro j
      cases hc : s.cancelled j with
      | true => exact horderly j hc
      | false =>
        cases hj : (s.calls j).active with
        | false => rfl
        | true =>
          rw [h.holds j hj hc] at hslot
          cases hslot
    have honly : ∀ j, ((s.setCall i .started).calls j).active = true → j = i := by
      intro j hj
      by_contra hne
      rw [setCall_of_ne _ hne, hnone j] at hj
      cases hj
    constructor
    case unique => exact fun j k hj hk => (honly j hj).trans (honly k hk).symm
    case holds => exact fun j hj _ => congrArg some (honly j hj).symm
    case owned =>
      intro j hj
      obtain rfl := Option.some.inj hj
      refine ⟨?_, h.fresh i hi⟩
      show ((s.setCall i .started).calls i).active = true
      rw [setCall_self]
      rfl
    case fresh => exact h.setCall_fresh nofun

theorem release (h : s.Exclusive) {code : Int} (hi : s.calls i = .finishing code) :
    Exclusive { s.setCall i (.returned code) with slot := none } := by
  have hactive : (s.calls i).active = true := by
    rw [hi]
    rfl
  have hnone : ∀ j, ((s.setCall i (.returned code)).calls j).active = false := by
    intro j
    by_cases hj : j = i
    · subst hj
      rw [setCall_self]
      rfl
    · rw [setCall_of_ne _ hj]
      cases hother : (s.calls j).active with
      | false => rfl
      | true => exact absurd (h.unique j i hother hactive) hj
  constructor
  case unique => exact fun j k hj => absurd ((hnone j).symm.trans hj) Bool.false_ne_true
  case holds => exact fun j hj => absurd ((hnone j).symm.trans hj) Bool.false_ne_true
  case owned => exact fun j hj => by cases hj
  case fresh => exact h.setCall_fresh nofun

theorem stop (h : s.Exclusive) : s.stopInternal.2.Exclusive := by
  unfold stopInternal
  split
  case h_2 => exact h
  case h_1 i hslot =>
    obtain ⟨hactive, -⟩ := h.owned i hslot
    constructor
    case unique => exact h.unique
    case holds =>
      intro j hj hc
      obtain rfl := h.unique j i hj hactive
      exact absurd (hc.symm.trans (Function.update_self _ _ _)) Bool.false_ne_true
    case owned => exact fun j hj => by cases hj
    case fresh =>
      intro j hj
      have hji : j ≠ i := by
        rintro rfl
        rw [hj] at hactive
        cases hactive
      exact (Function.update_of_ne hji _ _).trans (h.fresh j hj)

theorem step (h : s.Exclusive) (hstep : Step Orderly s s') : s'.Exclusive := by
  obtain ⟨event, horderly, hnext⟩ := hstep
  cases event with
  | start i =>
    rw [next] at hnext
    split at hnext
    case isTrue hi =>
      cases hnext
      exact h.start hi horderly
    case isFalse => cases hnext
  | create i ok =>
    have hok : ok = true := horderly
    rw [next, hok] at hnext
    split at hnext
    case isTrue hi =>
      cases hnext
      refine h.setCall ?_ nofun
      rw [hi]
      rfl
    case isFalse => cases hnext
  | finish i ok =>
    rw [next] at hnext
    split at hnext
    case isTrue hi =>
      cases hnext
      refine h.setCall ?_ nofun
      rw [hi]
      rfl
    case isFalse => cases hnext
  | release i =>
    rw [next] at hnext
    split at hnext
    case h_1 code hi =>
      cases hnext
      exact h.release hi
    case h_2 => cases hnext
  | stop =>
    cases hnext
    exact h.stop

theorem reach (h : ReflTransGen (Step Orderly) .new s) : s.Exclusive := by
  induction h with
  | refl => exact new
  | tail _ hstep ih => exact ih.step hstep

end Exclusive

/-- **The slot holds the token of the active run**, where runtimes can be created and no call starts
    before a run that was stopped has returned: the active run can be stopped, and alone; and when
    no call is active, the slot is empty and a new run can start. -/
theorem slot_holds_active_run {s : Api ι} (h : ReflTransGen (Step Orderly) .new s) :
    (∀ i, (s.calls i).active = true → s.cancelled i = false →
      s.slot = some i ∧ s.stopInternal.1 = 0 ∧
      s.stopInternal.2.cancelled = Function.update s.cancelled i true) ∧
    ((∀ i, (s.calls i).active = false) → s.slot = none ∧
      ∀ i, s.calls i = .unstarted → (s.startRun i).calls i = .started) := by
  have hex := Exclusive.reach h
  constructor
  · intro i hi hc
    have hslot := hex.holds i hi hc
    refine ⟨hslot, ?_, ?_⟩
    · rw [stopInternal, hslot]
    · rw [stopInternal, hslot]
  · intro hnone
    have hslot : s.slot = none := by
      cases hs : s.slot with
      | none => rfl
      | some i =>
        have hactive := (hex.owned i hs).1
        rw [hnone i] at hactive
        cases hactive
    refine ⟨hslot, fun i _ => ?_⟩
    rw [startRun, hslot]
    exact setCall_self s i .started

/-- A run is stopped and comes to its end, and another one follows: it can be stopped. -/
theorem sample_slot_holds_active_run : ∃ s : Api (Fin 2),
    ReflTransGen (Step Orderly) .new s ∧ s.cancelled 0 = true ∧ s.calls 1 = .running ∧
    s.slot = some 1 ∧ s.stopInternal.1 = 0 := by
  have h : ReflTransGen (Step Orderly) (.new : Api (Fin 2)) _ :=
    .single ⟨.start 0, fun _ => nofun, rfl⟩
  have h := h.tail ⟨.create 0 true, rfl, rfl⟩
  have h := h.tail ⟨.stop, trivial, rfl⟩
  have h := h.tail ⟨.finish 0 true, trivial, rfl⟩
  have h := h.tail ⟨.release 0, trivial, rfl⟩
  have h := h.tail ⟨.start 1, (by intro j; revert j; decide), rfl⟩
  have h := h.tail ⟨.create 1 true, rfl, rfl⟩
  obtain ⟨hslot, hstop, -⟩ := (slot_holds_active_run h).1 1 rfl rfl
  exact ⟨_, h, rfl, rfl, hslot, hstop⟩

end Api

end Tun2Proxy
