/-
  File:      Tun2Proxy/Process/Policy.lean
  Subject:   The list of process names that bypass the proxy (src/process_bypass.rs), and the policy
             of a session under it (`SessionPolicy` of src/process/mod.rs).

  `set_names` replaces the list under its lock and then counts up the revision of a watch channel.
  `match_session` subscribes to the revision, looks up the identities of the session's process and
  decides; the waiter of the session waits for a newer revision, reads the list again and compares.
  Each of these is a step of its own here, and any number of writers and sessions take theirs in
  any order.

  What the operating system says about the owner of a socket is left open: a lookup may find any
  identities. `changed` cannot fail, since a policy holds a sender of its channel.
-/
import Mathlib.Logic.Function.Basic
import Tun2Proxy.Lib.Watch
import Tun2Proxy.Str

namespace Tun2Proxy

/-! ## 1. Names -/

/-- `char::is_whitespace`. -/
def isWhitespace (c : Char) : Bool :=
  let n := c.toNat
  (9 ≤ n && n ≤ 13) || n == 0x20 || n == 0x85 || n == 0xA0 || n == 0x1680 ||
    (0x2000 ≤ n && n ≤ 0x200A) || n == 0x2028 || n == 0x2029 || n == 0x202F || n == 0x205F ||
    n == 0x3000

/-- `str::trim`. -/
def Str.trim (s : Str) : Str := (s.dropWhile isWhitespace).rdropWhile isWhitespace

/-- `strip_suffix`, or the string itself. -/
def stripSuffix (s suffix : Str) : Str :=
  if suffix <:+ s then s.take (s.length - suffix.length) else s

def normalizeProcessName (name : Str) : Str :=
  stripSuffix (Str.toAsciiLowercase (Str.trim name)) ".exe".toList

/-- Insertion into a `BTreeSet`. -/
def insertName (name : Str) : List Str → List Str
  | [] => [name]
  | other :: rest =>
    if name = other then other :: rest
    else if name < other then name :: other :: rest
    else other :: insertName name rest

/-- The list `set_names` puts in place: normalized, without empty names, sorted, each name once. -/
def effectiveNames (names : List Str) : List Str :=
  ((names.map normalizeProcessName).filter fun name => !name.isEmpty).foldl
    (fun set name => insertName name set) []

/-- `matches_policy`, on one snapshot of the list. -/
def matchesPolicy (names identities : List Str) : Bool :=
  identities.any fun name => names.contains name

/-! ## 2. Writers and sessions -/

structure SessionPolicy where
  identities : List Str
  /-- The revision its receiver has seen. -/
  seen : Nat
  bypass : Bool

inductive PolicyPhase where
  | unstarted
  | subscribed (seen : Nat)
  | identified (seen : Nat) (identities : List Str)
  -- `wait_for_routing_change` waits for a newer revision, or has not been called yet
  | waiting (policy : SessionPolicy)
  -- `changed` has returned
  | woken (policy : SessionPolicy)
  -- `wait_for_routing_change` has returned, with this list as the one it has read last
  | returned (policy : SessionPolicy) (read : List Str)

/-- The list, and the sessions. `past` is history: the lists that have been in effect. -/
structure ProcessSessions (ι : Type) where
  names : Watch (List Str)
  sessions : ι → PolicyPhase
  past : List (List Str)

namespace ProcessSessions

variable {ι : Type} [DecidableEq ι]

/-- `ProcessBypass::default`. -/
def start : ProcessSessions ι := ⟨⟨[], 0, 0⟩, fun _ => .unstarted, [[]]⟩

def setSession (s : ProcessSessions ι) (i : ι) (phase : PolicyPhase) : ProcessSessions ι :=
  { s with sessions := Function.update s.sessions i phase }

/-- The waiter reads the list and compares. -/
def compare (s : ProcessSessions ι) (policy : SessionPolicy) : PolicyPhase :=
  if matchesPolicy s.names.value policy.identities ≠ policy.bypass then
    .returned policy s.names.value
  else .waiting policy

/-- **One step** of a writer or a session. -/
inductive Step (s : ProcessSessions ι) : ProcessSessions ι → Prop
  -- `set_names`: a list that is the one in effect changes nothing
  | replace {names : List Str} (hchanged : effectiveNames names ≠ s.names.value) :
      Step s { s with
        names := s.names.replace (effectiveNames names)
        past := effectiveNames names :: s.past }
  | announce (hpending : 0 < s.names.unannounced) : Step s { s with names := s.names.announce }
  -- `match_session`
  | subscribe {i : ι} (h : s.sessions i = .unstarted) :
      Step s (s.setSession i (.subscribed s.names.version))
  | identify {i : ι} {seen : Nat} (h : s.sessions i = .subscribed seen) (identities : List Str) :
      Step s (s.setSession i (.identified seen identities))
  | decide {i : ι} {seen : Nat} {identities : List Str}
      (h : s.sessions i = .identified seen identities) :
      Step s (s.setSession i (.waiting ⟨identities, seen, matchesPolicy s.names.value identities⟩))
  -- `wait_for_routing_change`
  | wake {i : ι} {policy : SessionPolicy} (h : s.sessions i = .waiting policy)
      (hnewer : policy.seen < s.names.version) :
      Step s (s.setSession i (.woken { policy with seen := s.names.version }))
  | compare {i : ι} {policy : SessionPolicy} (h : s.sessions i = .woken policy) :
      Step s (s.setSession i (s.compare policy))
  -- a copy of the policy has a receiver of its own, which has seen what the first one has
  | clone {i j : ι} {policy : SessionPolicy} (h : s.sessions i = .waiting policy)
      (hj : s.sessions j = .unstarted) : Step s (s.setSession j (.waiting policy))

inductive Reachable : ProcessSessions ι → Prop
  | start : Reachable start
  | step {s s' : ProcessSessions ι} (hs : Reachable s) (h : s.Step s') : Reachable s'

/-! ## 3. No update is missed -/

/-- What a session knows in each phase. -/
def Informed (s : ProcessSessions ι) : PolicyPhase → Prop
  | .unstarted => True
  | .subscribed seen => s.names.Knows seen fun _ => True
  | .identified seen _ => s.names.Knows seen fun _ => True
  | .waiting policy =>
    s.names.Knows policy.seen fun names => policy.bypass = matchesPolicy names policy.identities
  | .woken policy => s.names.Knows policy.seen fun _ => True
  | .returned policy read =>
    read ∈ s.past ∧ matchesPolicy read policy.identities ≠ policy.bypass

/-- **The invariant.** -/
structure Sound (s : ProcessSessions ι) : Prop where
  inEffect : s.names.value ∈ s.past
  informed : ∀ i, s.Informed (s.sessions i)

variable {s : ProcessSessions ι} {phase : PolicyPhase}

omit [DecidableEq ι] in
theorem Informed.replace (h : s.Informed phase) (names : List Str) :
    Informed { s with names := s.names.replace names, past := names :: s.past } phase := by
  cases phase with
  | unstarted => trivial
  | subscribed | identified | waiting | woken => exact Watch.Knows.replace h names
  | returned => exact ⟨List.mem_cons_of_mem _ h.1, h.2⟩

omit [DecidableEq ι] in
theorem Informed.announce (h : s.Informed phase) :
    Informed { s with names := s.names.announce } phase := by
  cases phase with
  | unstarted => trivial
  | subscribed | identified | waiting | woken => exact Watch.Knows.announce h
  | returned => exact h

/-- One session has moved on. -/
theorem Sound.setSession (h : s.Sound) (i : ι) (hphase : s.Informed phase) :
    (s.setSession i phase).Sound := by
  refine ⟨h.inEffect, fun j => ?_⟩
  show s.Informed (Function.update s.sessions i phase j)
  by_cases hj : j = i
  · subst hj
    rwa [Function.update_self]
  · rw [Function.update_of_ne hj]
    exact h.informed j

theorem Sound.step {s' : ProcessSessions ι} (h : s.Sound) (hstep : s.Step s') : s'.Sound := by
  -- what the session that moves knew before
  have hknown : ∀ {i phase}, s.sessions i = phase → s.Informed phase := by
    intro i phase hi
    rw [← hi]
    exact h.informed i
  cases hstep with
  | replace hchanged => exact ⟨List.mem_cons_self, fun i => (h.informed i).replace _⟩
  | announce hpending => exact ⟨h.inEffect, fun i => (h.informed i).announce⟩
  | subscribe hi => exact h.setSession _ (Watch.Knows.nothing (Nat.le_refl _))
  | @identify i seen hi identities =>
    have hseen : s.Informed (.subscribed seen) := hknown hi
    exact h.setSession _ hseen
  | decide hi => exact h.setSession _ (Watch.Knows.read (hknown hi) rfl)
  | wake hi hnewer => exact h.setSession _ (Watch.Knows.nothing (Nat.le_refl _))
  | @compare i policy hi =>
    refine h.setSession _ ?_
    unfold ProcessSessions.compare
    split
    case isTrue hdiffers => exact ⟨h.inEffect, hdiffers⟩
    case isFalse hsame => exact Watch.Knows.read (hknown hi) (not_not.mp hsame).symm
  | clone hi hj => exact h.setSession _ (hknown hi)

theorem Reachable.sound (h : Reachable s) : s.Sound := by
  induction h with
  | start => exact ⟨List.mem_singleton_self _, fun _ => trivial⟩
  | step _ hstep ih => exact ih.step hstep

/-- **Policy updates are never missed.** When no `set_names` stands between its two steps and the
    waiter of a session has seen the last revision, the decision of the session is the one under
    the list in effect; and `wait_for_routing_change` has returned only after it has read a list,
    one that was in effect, under which the decision differs. -/
theorem policy_updates_seen {s : ProcessSessions ι} (h : Reachable s) :
    (∀ i policy, s.sessions i = .waiting policy → s.names.unannounced = 0 →
      ¬ policy.seen < s.names.version →
      policy.bypass = matchesPolicy s.names.value policy.identities) ∧
    (∀ i policy read, s.sessions i = .returned policy read →
      read ∈ s.past ∧ matchesPolicy read policy.identities ≠ policy.bypass) := by
  have hsound := h.sound
  constructor
  · intro i policy hi hnone hseen
    have hknows := hsound.informed i
    rw [hi] at hknows
    exact hknows.holds (le_antisymm hknows.seen_le (not_lt.mp hseen)) hnone
  · intro i policy read hi
    have hread := hsound.informed i
    rwa [hi] at hread

section Sample

theorem setSession_setSession (s : ProcessSessions ι) (i : ι) (phase phase' : PolicyPhase) :
    (s.setSession i phase).setSession i phase' = s.setSession i phase' := by
  simp only [setSession, Function.update_idem]

variable {s : ProcessSessions ι}

/-- `set_names` with nobody in between. -/
theorem Reachable.setNames (hs : Reachable s) (names : List Str)
    (hchanged : effectiveNames names ≠ s.names.value) :
    Reachable { s with
      names := (s.names.replace (effectiveNames names)).announce
      past := effectiveNames names :: s.past } :=
  (hs.step (.replace hchanged)).step (.announce (Nat.succ_pos _))

/-- `match_session` with nobody in between. -/
theorem Reachable.matchSession (hs : Reachable s) {i : ι} (hi : s.sessions i = .unstarted)
    (identities : List Str) :
    Reachable (s.setSession i (.waiting
      ⟨identities, s.names.version, matchesPolicy s.names.value identities⟩)) := by
  have h := hs.step (.subscribe hi)
  have h := h.step (.identify (Function.update_self _ _ _) identities)
  have h := h.step (.decide (Function.update_self _ _ _))
  rwa [setSession_setSession, setSession_setSession] at h

/-- A turn of the waiter with nobody in between. -/
theorem Reachable.wakeUp (hs : Reachable s) {i : ι} {policy : SessionPolicy}
    (hi : s.sessions i = .waiting policy) (hnewer : policy.seen < s.names.version) :
    Reachable (s.setSession i (s.compare { policy with seen := s.names.version })) := by
  have h := hs.step (.wake hi hnewer)
  have h := h.step (.compare (Function.update_self _ _ _))
  rwa [setSession_setSession] at h

/-- Sessions of two processes are decided, one of them bypasses, and the list is emptied: the
    session that bypassed ends, and the other one goes on with its decision. -/
theorem sample_policy_updates_seen : ∃ s : ProcessSessions Bool, Reachable s ∧
    s.names.value = [] ∧ s.names.unannounced = 0 ∧
    (∃ policy, s.sessions true = .returned policy [] ∧ policy.bypass = true ∧
      matchesPolicy [] policy.identities ≠ policy.bypass) ∧
    ∃ policy, s.sessions false = .waiting policy ∧
      policy.bypass = matchesPolicy s.names.value policy.identities := by
  have h := Reachable.start.setNames (ι := Bool) ["Curl.EXE".toList] (by decide)
  have h := h.matchSession (i := true) rfl ["curl".toList]
  have h := h.matchSession (i := false) rfl ["wget".toList]
  have h := h.setNames [] (by decide)
  have h := h.wakeUp (i := true) rfl (by decide)
  have h := h.wakeUp (i := false) rfl (by decide)
  refine ⟨_, h, rfl, rfl, ⟨_, rfl, rfl, ?_⟩, ⟨_, rfl, ?_⟩⟩
  · exact ((policy_updates_seen h).2 true _ _ rfl).2
  · exact (policy_updates_seen h).1 false _ rfl rfl (by decide)

end Sample

end ProcessSessions

end Tun2Proxy
