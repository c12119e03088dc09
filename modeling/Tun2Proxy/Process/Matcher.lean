/-
  File:      Tun2Proxy/Process/Matcher.lean
  Subject:   Which sessions of a desktop TUN bypass the proxy (`ProcessMatcher::new` in
             src/process/mod.rs, and the decision of the session tasks in src/lib.rs).

  A TUN makes its matcher when it starts, and makes none if the list of process names is empty at
  that time. A session with a matcher has a policy: it subscribes to the list, looks up its owner
  and decides (Policy.lean). A session without a policy is proxied, or relayed directly if it is a
  UDP session to a multicast address; it never looks at the list.

  `set_names` may be called at any time. What the waiter of a session does after the decision is in
  Policy.lean and left out here.
-/
import Mathlib.Logic.Relation
import Tun2Proxy.Net.IpAddr
import Tun2Proxy.Process.Names
import Tun2Proxy.Proxy.Permits

namespace Tun2Proxy

/-! ## 1. The TUN and its sessions -/

/-- A captured session. `owner` is what a lookup of its process finds. -/
structure CapturedSession where
  protocol : IpProtocol
  dst : IpAddr
  owner : List Str

def isLocalMulticastDestination (address : IpAddr) : Bool := isMulticast address

/-- `local_multicast`, which only the tasks of UDP sessions ask for. -/
def CapturedSession.localMulticast (self : CapturedSession) : Bool :=
  match self.protocol with
  | .Tcp => false
  | .Udp => isLocalMulticastDestination self.dst

/-- `bypass` of a session task. -/
def CapturedSession.bypass (self : CapturedSession) (policy : Option SessionPolicy) : Bool :=
  self.localMulticast || policy.any (·.bypass)

def isConfigured (names : Watch (List Str)) : Bool := !names.value.isEmpty

/-- The list with the policies of the sessions, whether there is a `process_matcher`, and what the
    sessions have decided. -/
structure DesktopTun (ι : Type) where
  sessions : ProcessSessions ι
  matcher : Bool
  bypass : ι → Option Bool

namespace DesktopTun

variable {ι : Type} [DecidableEq ι]

/-- The start of a TUN: `ProcessMatcher::new`. -/
def start (sessions : ProcessSessions ι) : DesktopTun ι :=
  ⟨sessions, isConfigured sessions.names, fun _ => none⟩

def decided (s : DesktopTun ι) (i : ι) (bypass : Bool) : ι → Option Bool :=
  Function.update s.bypass i (some bypass)

/-- **One step** of somebody who sets the list or of a session. -/
inductive Step (info : ι → CapturedSession) (s : DesktopTun ι) : DesktopTun ι → Prop
  -- `set_names`
  | replace {names : List Str} (hchanged : effectiveNames names ≠ s.sessions.names.value) :
      Step info s { s with sessions := { s.sessions with
        names := s.sessions.names.replace (effectiveNames names)
        past := effectiveNames names :: s.sessions.past } }
  | announce (hpending : 0 < s.sessions.names.unannounced) :
      Step info s { s with sessions := { s.sessions with names := s.sessions.names.announce } }
  -- `match_session`
  | subscribe {i : ι} (hmatcher : s.matcher = true) (hunicast : (info i).localMulticast = false)
      (h : s.sessions.sessions i = .unstarted) :
      Step info s { s with
        sessions := s.sessions.setSession i (.subscribed s.sessions.names.version) }
  | identify {i : ι} {seen : Nat} (h : s.sessions.sessions i = .subscribed seen) :
      Step info s { s with
        sessions := s.sessions.setSession i (.identified seen (info i).owner) }
  | decide {i : ι} {seen : Nat} {identities : List Str} {policy : SessionPolicy}
      (h : s.sessions.sessions i = .identified seen identities)
      (hpolicy : policy = ⟨identities, seen, matchesPolicy s.sessions.names.value identities⟩) :
      Step info s { s with
        sessions := s.sessions.setSession i (.waiting policy)
        bypass := s.decided i ((info i).bypass (some policy)) }
  -- there is no policy
  | unmatched {i : ι} (hnone : (info i).localMulticast = true ∨ s.matcher = false)
      (hnew : s.bypass i = none) :
      Step info s { s with bypass := s.decided i ((info i).bypass none) }

/-- The runs of a TUN that was given this list. The list object may have a history. -/
inductive Reachable (info : ι → CapturedSession) (initial : List Str) : DesktopTun ι → Prop
  | start {sessions : ProcessSessions ι} (hsessions : sessions.Reachable)
      (hinitial : sessions.names.value = effectiveNames initial)
      (hnone : ∀ i, sessions.sessions i = .unstarted) :
      Reachable info initial (start sessions)
  | step {s s' : DesktopTun ι} (hs : Reachable info initial s) (h : s.Step info s') :
      Reachable info initial s'

variable {info : ι → CapturedSession} {initial : List Str} {s s' : DesktopTun ι}

/-! ## 2. Who has a policy -/

/-- What holds of a session in each phase of its policy. -/
def Asked (s : DesktopTun ι) (info : ι → CapturedSession) (i : ι) : PolicyPhase → Prop
  | .unstarted => True
  | .subscribed _ => s.matcher = true ∧ (info i).localMulticast = false
  | .identified _ identities =>
    s.matcher = true ∧ (info i).localMulticast = false ∧ identities = (info i).owner
  | _ => s.bypass i ≠ none

/-- **The invariant.** -/
structure Sound (info : ι → CapturedSession) (initial : List Str) (s : DesktopTun ι) : Prop where
  /-- The matcher is decided by the first list, for good. -/
  matcher : s.matcher = !(effectiveNames initial).isEmpty
  asked : ∀ i, s.Asked info i (s.sessions.sessions i)

omit [DecidableEq ι] in
/-- A decision is not taken back. -/
theorem Asked.mono {i : ι} {phase : PolicyPhase} (h : s.Asked info i phase)
    (hmatcher : s'.matcher = s.matcher) (hbypass : s.bypass i ≠ none → s'.bypass i ≠ none) :
    s'.Asked info i phase := by
  cases phase with
  | unstarted => trivial
  | subscribed | identified => exact ⟨hmatcher.trans h.1, h.2⟩
  | waiting | woken | returned => exact hbypass h

theorem decided_ne_none (s : DesktopTun ι) (i j : ι) (bypass : Bool) (h : s.bypass j ≠ none) :
    s.decided i bypass j ≠ none := by
  unfold decided
  rcases eq_or_ne j i with rfl | hne
  · rw [Function.update_self]
    exact Option.some_ne_none _
  · rwa [Function.update_of_ne hne]

/-- One session moves on; the decisions may grow. -/
theorem Sound.setSession (h : s.Sound info initial) (i : ι) {phase : PolicyPhase}
    {bypass : ι → Option Bool} (hbypass : ∀ j, s.bypass j ≠ none → bypass j ≠ none)
    (hphase : Asked ⟨s.sessions.setSession i phase, s.matcher, bypass⟩ info i phase) :
    Sound info initial ⟨s.sessions.setSession i phase, s.matcher, bypass⟩ := by
  refine ⟨h.matcher, fun j => ?_⟩
  show Asked _ info j (Function.update s.sessions.sessions i phase j)
  rcases eq_or_ne j i with rfl | hne
  · rwa [Function.update_self]
  · rw [Function.update_of_ne hne]
    exact (h.asked j).mono rfl (hbypass j)

theorem Sound.step (h : s.Sound info initial) (hstep : s.Step info s') :
    s'.Sound info initial := by
  cases hstep with
  | replace | announce => exact ⟨h.matcher, h.asked⟩
  | subscribe hmatcher hunicast _ => exact h.setSession _ (fun _ => id) ⟨hmatcher, hunicast⟩
  | @identify i seen hi =>
    have hasked := h.asked i
    rw [hi] at hasked
    exact h.setSession i (fun _ => id) ⟨hasked.1, hasked.2, rfl⟩
  | @decide i seen identities policy hi hpolicy =>
    refine h.setSession i (fun j => s.decided_ne_none i j _) ?_
    show s.decided i _ i ≠ none
    rw [decided, Function.update_self]
    exact Option.some_ne_none _
  | @unmatched i hnone hnew =>
    exact ⟨h.matcher, fun j => (h.asked j).mono rfl (s.decided_ne_none i j _)⟩

theorem Reachable.sound (h : Reachable info initial s) : s.Sound info initial := by
  induction h with
  | @start sessions _ hinitial hnone =>
    refine ⟨?_, fun i => ?_⟩
    · show (!sessions.names.value.isEmpty) = _
      rw [hinitial]
    · show Asked _ info i (sessions.sessions i)
      rw [hnone i]
      trivial
  | step _ hstep ih => exact ih.step hstep

/-! ## 3. The decision of a session -/

theorem matchesPolicy_iff {names identities : List Str} :
    matchesPolicy names identities = true ↔ ∃ identity ∈ identities, identity ∈ names := by
  simp [matchesPolicy]

omit [DecidableEq ι] in
theorem Sound.matcher_iff (h : s.Sound info initial) :
    s.matcher = true ↔ effectiveNames initial ≠ [] := by
  rw [h.matcher]
  cases effectiveNames initial <;> simp

/-- **What a session decides**, at the step in which it does: the list counts only if the first
    list had a name. -/
theorem Sound.decision (h : s.Sound info initial) (hstep : s.Step info s') {i : ι} {bypass : Bool}
    (hnew : s.bypass i = none) (hbypass : s'.bypass i = some bypass) :
    bypass = true ↔ (info i).localMulticast = true ∨
      effectiveNames initial ≠ [] ∧
        ∃ identity ∈ (info i).owner, identity ∈ s.sessions.names.value := by
  -- a step that does not decide the session leaves it undecided
  have hkept : s'.bypass i ≠ s.bypass i := by
    rw [hnew, hbypass]
    exact Option.some_ne_none _
  cases hstep with
  | replace | announce | subscribe | identify => exact absurd rfl hkept
  | @decide j seen identities policy hj hpolicy =>
    rcases eq_or_ne i j with rfl | hne
    · have hasked := h.asked i
      rw [hj] at hasked
      obtain ⟨hmatcher, hunicast, rfl⟩ := hasked
      have hvalue := Option.some.inj ((Function.update_self i _ s.bypass).symm.trans hbypass)
      subst hpolicy
      rw [← hvalue, CapturedSession.bypass, hunicast, ← matchesPolicy_iff]
      simp [h.matcher_iff.mp hmatcher]
    · exact absurd (Function.update_of_ne hne _ _) hkept
  | @unmatched j hnone _ =>
    rcases eq_or_ne i j with rfl | hne
    · have hvalue := Option.some.inj ((Function.update_self i _ s.bypass).symm.trans hbypass)
      rw [← hvalue, CapturedSession.bypass, Option.any_none, Bool.or_false]
      refine ⟨.inl, fun hor => hor.elim id fun hlisted => hnone.elim id fun hmatcher => ?_⟩
      rw [h.matcher_iff.mpr hlisted.1] at hmatcher
      cases hmatcher
    · exact absurd (Function.update_of_ne hne _ _) hkept

/-- The session can get to its decision. -/
def Decides (info : ι → CapturedSession) (s : DesktopTun ι) (i : ι) : Prop :=
  ∃ s', Relation.ReflTransGen (Step info) s s' ∧ (s'.bypass i).isSome = true

theorem Decides.head {i : ι} (hstep : s.Step info s') (h : Decides info s' i) :
    Decides info s i := by
  obtain ⟨last, hrun, hsome⟩ := h
  exact ⟨last, .head hstep hrun, hsome⟩

theorem isSome_decided (s : DesktopTun ι) (i : ι) (bypass : Bool) :
    (s.decided i bypass i).isSome = true := by
  rw [decided, Function.update_self]
  rfl

theorem decides_of_identified {i : ι} {seen : Nat} {identities : List Str}
    (h : s.sessions.sessions i = .identified seen identities) : Decides info s i :=
  ⟨_, .single (.decide h rfl), s.isSome_decided i _⟩

theorem decides_of_subscribed {i : ι} {seen : Nat}
    (h : s.sessions.sessions i = .subscribed seen) : Decides info s i :=
  .head (.identify h) (decides_of_identified (Function.update_self i _ _))

theorem Sound.decides (h : s.Sound info initial) {i : ι} (hnew : s.bypass i = none) :
    Decides info s i := by
  by_cases hnone : (info i).localMulticast = true ∨ s.matcher = false
  · exact ⟨_, .single (.unmatched hnone hnew), s.isSome_decided i _⟩
  · have hunicast : (info i).localMulticast = false := by
      simpa using fun hmulticast => hnone (.inl hmulticast)
    have hmatcher : s.matcher = true := by simpa using fun hno => hnone (.inr hno)
    have hasked := h.asked i
    cases hphase : s.sessions.sessions i with
    | unstarted =>
      exact .head (.subscribe hmatcher hunicast hphase)
        (decides_of_subscribed (Function.update_self i _ _))
    | subscribed => exact decides_of_subscribed hphase
    | identified => exact decides_of_identified hphase
    | waiting | woken | returned =>
      rw [hphase] at hasked
      exact absurd hnew hasked

/-- **The list in force decides**, at any time of a run whose first list had a name: a session that
    is not UDP to a multicast address bypasses the proxy exactly if one of its owner's identities
    is in the list when it decides, and it can always get to its decision. -/
theorem session_follows_rules (h : Reachable info initial s)
    (hinitial : ∃ name ∈ initial, normalizeProcessName name ≠ []) {i : ι}
    (hunicast : (info i).localMulticast = false) (hnew : s.bypass i = none) :
    (∀ s' bypass, s.Step info s' → s'.bypass i = some bypass →
      (bypass = true ↔ ∃ identity ∈ (info i).owner, identity ∈ s.sessions.names.value)) ∧
    Decides info s i := by
  obtain ⟨name, hmem, hname⟩ := hinitial
  have hconfigured : effectiveNames initial ≠ [] :=
    List.ne_nil_of_mem (mem_effectiveNames.mpr ⟨hname, name, hmem, rfl⟩)
  refine ⟨fun s' bypass hstep hbypass => ?_, h.sound.decides hnew⟩
  rw [h.sound.decision hstep hnew hbypass, hunicast]
  simp [hconfigured]

section Sample

/-- A session of `curl`. -/
def curlSession : Unit → CapturedSession := fun _ => ⟨.Tcp, .v4 0x01010101, ["curl".toList]⟩

/-- The list is set to `curl`. -/
theorem Reachable.setCurl {s : DesktopTun Unit} (h : Reachable curlSession initial s)
    (hchanged : effectiveNames ["curl".toList] ≠ s.sessions.names.value) :
    Reachable curlSession initial { s with sessions := { s.sessions with
      names := (s.sessions.names.replace ["curl".toList]).announce
      past := ["curl".toList] :: s.sessions.past } } :=
  (h.step (.replace hchanged)).step (.announce (Nat.succ_pos _))

/-- The first list is `wget`; after `curl` has taken its place, the session decides to bypass. -/
theorem sample_session_follows_rules : ∃ s s' : DesktopTun Unit,
    Reachable curlSession ["wget".toList] s ∧ s.Step curlSession s' ∧ s.bypass () = none ∧
      s'.bypass () = some true ∧
      ∃ identity ∈ (curlSession ()).owner, identity ∈ s.sessions.names.value := by
  have hlist := ProcessSessions.Reachable.start.setNames (ι := Unit) ["wget".toList] (by decide)
  have hstart : Reachable curlSession ["wget".toList] _ := .start hlist rfl fun _ => rfl
  have hset := hstart.setCurl (by decide)
  have hasked := (hset.step (.subscribe (i := ()) rfl rfl rfl)).step
    (.identify (i := ()) rfl)
  refine ⟨_, _, hasked, .decide (i := ()) rfl rfl, rfl, rfl, ?_⟩
  exact ((session_follows_rules hasked ⟨_, List.mem_singleton_self _, by decide⟩ rfl rfl).1
    _ true (.decide (i := ()) rfl rfl) rfl).mp rfl

/-- The first list is empty, so there is no matcher: the list is set to `curl`, and the session of
    `curl` decides not to bypass. -/
theorem first_list_disables_rules : ∃ s s' : DesktopTun Unit,
    Reachable curlSession [] s ∧ s.Step curlSession s' ∧ s.bypass () = none ∧
      (curlSession ()).localMulticast = false ∧ s.sessions.names.unannounced = 0 ∧
      (∃ identity ∈ (curlSession ()).owner, identity ∈ s.sessions.names.value) ∧
      s'.bypass () = some false := by
  have hstart : Reachable curlSession [] _ :=
    .start ProcessSessions.Reachable.start rfl fun _ => rfl
  have hset := hstart.setCurl (by decide)
  exact ⟨_, _, hset, .unmatched (i := ()) (.inr rfl) rfl, rfl, rfl, rfl,
    ⟨_, List.mem_singleton_self _, List.mem_singleton_self _⟩, by decide⟩

end Sample

end DesktopTun

end Tun2Proxy
