/-
  File:      Tun2Proxy/Udpgw/SessionTable.lean
  Subject:   The session table of the udpgw server and its relay tasks.

  Entries of `sessions` go on six ways, most of them in tasks that may be several generations old.
  What a relay task can do to the table is said once (`TableEffect`): nothing, or it takes out the
  entry of its own generation. From this, and from what the request loop does under the delivery
  lock, the invariant `TableInv` follows:

  * an entry has the current generation of its connection, but for the moment in which the request
    loop is about to take it out;
  * between `replace_generation` and the new session the connection has no entry;
  * an entry has a relay task of its generation, or is the one the request loop has just put in;
  * a relay task that is neither stopped nor on its way out has an entry.
-/
import Tun2Proxy.Udpgw.Delivery

namespace Tun2Proxy.Udpgw

open Server

/-! ## 1. What a relay task does to the table -/

section Steps

variable {codec : AddressCodec} {udpMtu : UInt16} {idleMs : Nat} {s s' : Server}

/-- What a step of the relay task `r` of generation `g` does to sessions and tokens. -/
inductive TableEffect (g : Nat) (r : Relay) (s s' : Server) : Prop
  /-- It moves on. -/
  | keeps {r' : Relay} (sessions : s'.sessions = s.sessions) (stopped : s'.stopped = s.stopped)
      (relay : s'.relays g = some r') (connId : r'.connId = r.connId)
      (live : r.pc ≠ .exiting)
  /-- It takes its own session out, and is on its way out or gone. -/
  | removes {x : Session} (own : s.sessions r.connId = some x) (generation : x.generation = g)
      (sessions : s'.sessions = Function.update s.sessions r.connId none)
      (stopped : ∀ g', g' ≠ g → s'.stopped g' = s.stopped g')
      (relay : ∀ r', s'.relays g = some r' → r'.connId = r.connId ∧ r'.pc = .exiting)
  /-- It is gone, its session having been taken out before. -/
  | leaves (gone : ∀ x, s.sessions r.connId = some x → x.generation ≠ g)
      (sessions : s'.sessions = s.sessions) (stopped : s'.stopped = s.stopped)
      (relay : s'.relays g = none)

variable {c : UInt16} {g : Nat}

theorem ownSession_some {x : Session} (h : s.ownSession c g = some x) :
    s.sessions c = some x ∧ x.generation = g := by
  obtain ⟨hx, hg⟩ := Option.filter_eq_some_iff.mp h
  exact ⟨hx, eq_of_beq hg⟩

theorem ownSession_none (h : s.ownSession c g = none) {x : Session} (hx : s.sessions c = some x) :
    x.generation ≠ g := by
  intro hg
  have hsome : s.ownSession c g = some x :=
    Option.filter_eq_some_iff.mpr ⟨hx, beq_iff_eq.mpr hg⟩
  rw [h] at hsome
  cases hsome

theorem idleFor_some {idle : Nat} (h : s.idleFor c g = some idle) :
    ∃ x, s.sessions c = some x ∧ x.generation = g := by
  obtain ⟨x, hx, -⟩ := Option.map_eq_some_iff.mp h
  exact ⟨x, ownSession_some hx⟩

/-- **A relay task takes out nothing but the session of its generation.** -/
theorem tableEffect {r : Relay} (hs : RelayStep codec udpMtu idleMs g r s s') :
    TableEffect g r s s' := by
  have hself : ∀ x, Function.update s.relays g x g = x := fun x => Function.update_self ..
  cases hs
  case ignoreExpired hpc idle hidle hexpired =>
    obtain ⟨x, hx, hg⟩ := idleFor_some hidle
    refine .removes hx hg rfl (fun _ _ => rfl) fun r' hr' => ?_
    cases (hself _).symm.trans hr'
    exact ⟨rfl, rfl⟩
  case expire hpc idle hidle hexpired =>
    obtain ⟨x, hx, hg⟩ := idleFor_some hidle
    refine .removes hx hg rfl (fun g' hne => ?_) fun r' hr' => ?_
    · show (s.evict r.connId).stopped g' = _
      unfold evict
      simp only [hx, hg]
      exact Function.update_of_ne hne ..
    · cases (hself _).symm.trans hr'
      exact ⟨rfl, rfl⟩
  case exit hpc =>
    cases hown : s.ownSession r.connId g with
    | some x =>
      obtain ⟨hx, hg⟩ := ownSession_some hown
      refine .removes hx hg ?_ (fun g' hne => ?_) fun r' hr' => ?_
      · simp [setRelay, cleanUp, removeOwn, hown]
      · simp [setRelay, cleanUp, hown, Function.update_of_ne hne]
      · cases (hself _).symm.trans hr'
    | none =>
      refine .leaves (fun x hx => ownSession_none hown hx) ?_ ?_ (hself _)
      · simp [setRelay, cleanUp, removeOwn, hown]
      · simp [setRelay, cleanUp, hown]
  -- the other steps move the task on
  all_goals exact .keeps rfl rfl (hself _) rfl (by simp [*])

/-! ## 2. The invariant -/

/-- The connection whose session has been taken out to make room for a new one. -/
def RequestPc.vacated : RequestPc → Option UInt16
  | .resolving r _ | .opening r _ _ | .binding r _ _ => some r.connId
  | _ => none

/-- The session that is in the table before its relay task is spawned. -/
def RequestPc.newborn : RequestPc → Option (UInt16 × Nat)
  | .sending c g _ | .undoing c g | .spawning c g _ => some (c, g)
  | _ => none

structure TableInv (s : Server) : Prop where
  current : ∀ c x, s.sessions c = some x → s.request.retiring ≠ some c →
    s.generations c = some x.generation
  vacated : ∀ c, s.request.vacated = some c → s.sessions c = none
  newborn : ∀ c g, s.request.newborn = some (c, g) → s.relays g = none ∧
    ∃ x, s.sessions c = some x ∧ x.generation = g
  relayed : ∀ c x, s.sessions c = some x → s.request.newborn = some (c, x.generation) ∨
    ∃ r, s.relays x.generation = some r ∧ r.connId = c
  live : ∀ g r, s.relays g = some r → r.pc ≠ .exiting → s.stopped g = false →
    ∃ x, s.sessions r.connId = some x ∧ x.generation = g

theorem dispatch_table (udpMtu : UInt16) (packet : Packet) :
    (dispatch udpMtu packet).retiring = none ∧ (dispatch udpMtu packet).vacated = none ∧
      (dispatch udpMtu packet).newborn = none := by
  unfold dispatch
  repeat' split
  all_goals exact ⟨rfl, rfl, rfl⟩

/-- A step that leaves the table alone. -/
theorem TableInv.quiet (h : TableInv s) (hsessions : s'.sessions = s.sessions)
    (hgenerations : s'.generations = s.generations) (hrelays : s'.relays = s.relays)
    (hstopped : s'.stopped = s.stopped) (hretiring : s.request.retiring = none)
    (hvacated : ∀ c, s'.request.vacated = some c → s.request.vacated = some c)
    (hnewborn : s'.request.newborn = s.request.newborn) : TableInv s' where
  current c x hx _ := hgenerations ▸ h.current c x (hsessions ▸ hx) (by rw [hretiring]; nofun)
  vacated c hc := hsessions ▸ h.vacated c (hvacated c hc)
  newborn c g hc := hsessions ▸ hrelays ▸ h.newborn c g (hnewborn ▸ hc)
  relayed c x hx := by
    rw [hrelays, hnewborn]
    exact h.relayed c x (hsessions ▸ hx)
  live g r hr hpc hstop := hsessions ▸ h.live g r (hrelays ▸ hr) hpc (hstopped ▸ hstop)

/-- The generation of the connection the request loop works on changes; its session goes next. -/
theorem TableInv.retire (h : TableInv s) {v : Option Nat} {pc : RequestPc}
    (hretiring : s.request.retiring = none) (hnewborn : s.request.newborn = none)
    (hpc : pc.retiring = some c) (hvacated : pc.vacated = none) (hborn : pc.newborn = none) :
    TableInv { s with generations := Function.update s.generations c v, request := pc } where
  current c' x hx hne := by
    have hne : c' ≠ c := by
      rintro rfl
      exact hne hpc
    show Function.update s.generations c v c' = _
    rw [Function.update_of_ne hne]
    exact h.current c' x hx (by rw [hretiring]; nofun)
  vacated c' hc := nomatch hvacated.symm.trans hc
  newborn c' g hc := nomatch hborn.symm.trans hc
  relayed c' x hx := .inr ((h.relayed c' x hx).resolve_left fun hb =>
    nomatch hnewborn.symm.trans hb)
  live := h.live

theorem evict_stopped (hx : ∀ x, s.sessions c = some x → x.generation ≠ g) :
    (s.evict c).stopped g = s.stopped g := by
  unfold evict
  cases hs : s.sessions c with
  | none => rfl
  | some x => exact Function.update_of_ne (hx x hs).symm ..

theorem evict_stopped_own {x : Session} (hx : s.sessions c = some x) :
    (s.evict c).stopped x.generation = true := by
  unfold evict
  simp only [hx]
  exact Function.update_self ..

/-- The session of a connection is taken out and stopped. -/
theorem TableInv.evict (h : TableInv s) {pc : RequestPc} (hretiring : s.request.retiring = some c)
    (hnewborn : s.request.newborn = none) (hvacated : ∀ c', pc.vacated = some c' → c' = c)
    (hborn : pc.newborn = none) :
    TableInv { s.evict c with lock := none, request := pc } where
  current c' x hx _ := by
    obtain ⟨hne, hx⟩ := update_none hx
    exact h.current c' x hx fun hc => hne (Option.some.inj (hretiring.symm.trans hc)).symm
  vacated c' hc := by
    rw [hvacated c' hc]
    exact Function.update_self ..
  newborn c' g hc := nomatch hborn.symm.trans hc
  relayed c' x hx := .inr ((h.relayed c' x (update_none hx).2).resolve_left fun hb =>
    nomatch hnewborn.symm.trans hb)
  live g r hr hpc hstop := by
    have hstop : (s.evict c).stopped g = false := hstop
    -- the token of the session taken out is cancelled
    have hother : ∀ x, s.sessions c = some x → x.generation ≠ g := by
      rintro x hx rfl
      rw [evict_stopped_own hx] at hstop
      cases hstop
    rw [evict_stopped hother] at hstop
    obtain ⟨x, hx, hg⟩ := h.live g r hr hpc hstop
    have hne : r.connId ≠ c := fun e => hother x (e ▸ hx) hg
    exact ⟨x, (Function.update_of_ne hne ..).trans hx, hg⟩

/-! ## 3. The request loop -/

/-- A new session is put in, where there is none and no relay task of its generation. -/
theorem TableInv.bind (h : TableInv s) (hc : CurrentInv s) (ho : OriginInv s) {r : DataRequest}
    {dst : SocketAddr} (hpc : s.request = .binding r g dst) :
    TableInv { s with
      sessions := Function.update s.sessions r.connId (some ⟨dst, r.reqAddr, g⟩)
      stopped := Function.update s.stopped g false
      lastAct := Function.update s.lastAct g s.now
      opened := ⟨g, r.connId, dst⟩ :: s.opened
      request := .sending r.connId g dst } := by
  have hnone := h.vacated r.connId (by rw [hpc]; rfl)
  have hgeneration := hc.request r.connId g (by rw [hpc]; rfl)
  have hfresh : ∀ r', s.relays g ≠ some r' := fun r' hr' =>
    (ho.unopened g (by rw [hpc]; rfl)).1 _ (ho.relays g r' hr') rfl
  refine ⟨fun c x hx _ => ?_, nofun, fun c g' hb => ?_, fun c x hx => ?_,
    fun g' r' hr' hlive hstop => ?_⟩
  · rcases update_some hx with ⟨rfl, hnew⟩ | ⟨_, hx⟩
    · cases hnew
      exact hgeneration
    · exact h.current c x hx (by rw [hpc]; nofun)
  · cases hb
    exact ⟨Option.eq_none_iff_forall_ne_some.mpr hfresh, _, Function.update_self .., rfl⟩
  · rcases update_some hx with ⟨rfl, hnew⟩ | ⟨_, hx⟩
    · cases hnew
      exact .inl rfl
    · refine .inr ((h.relayed c x hx).resolve_left fun hb => ?_)
      rw [hpc] at hb
      cases hb
  · have hne : g' ≠ g := fun e => hfresh r' (e ▸ hr')
    have hstop : s.stopped g' = false := (Function.update_of_ne hne ..).symm.trans hstop
    obtain ⟨x, hx, hg⟩ := h.live g' r' hr' hlive hstop
    have hconn : r'.connId ≠ r.connId := by grind
    exact ⟨x, (Function.update_of_ne hconn ..).trans hx, hg⟩

/-- The new session is taken out again; it has no relay task yet. -/
theorem TableInv.undo (h : TableInv s) (hpc : s.request = .undoing c g) :
    TableInv { s.removeOwn c g with
      lock := none
      request := .responding (errorItem c g) } := by
  obtain ⟨hnorelay, x₀, hx₀, hg₀⟩ := h.newborn c g (by rw [hpc]; rfl)
  have hremoved : (s.removeOwn c g).sessions = Function.update s.sessions c none := by
    have hown : s.ownSession c g = some x₀ :=
      Option.filter_eq_some_iff.mpr ⟨hx₀, beq_iff_eq.mpr hg₀⟩
    simp [removeOwn, hown]
  refine ⟨fun c' x hx _ => ?_, fun c' hv => ?_, fun c' g' hb => ?_, fun c' x hx => ?_,
    fun g' r hr hlive hstop => ?_⟩
  · exact h.current c' x (removeOwn_some hx) (by simp [hpc, RequestPc.retiring])
  · cases hv
  · cases hb
  · have hx : (s.removeOwn c g).sessions c' = some x := hx
    rw [hremoved] at hx
    obtain ⟨hne, hx⟩ := update_none hx
    rcases h.relayed c' x hx with hb | hr
    · rw [hpc] at hb
      cases hb
      exact absurd rfl hne
    · exact .inr hr
  · have hr : s.relays g' = some r := hr
    obtain ⟨x, hx, hg⟩ := h.live g' r hr hlive hstop
    have hconn : r.connId ≠ c := by
      intro hconn
      rw [hconn, hx₀] at hx
      cases hx
      rw [← hg, hg₀, hnorelay] at hr
      cases hr
    refine ⟨x, ?_, hg⟩
    show (s.removeOwn c g).sessions r.connId = some x
    rw [hremoved, Function.update_of_ne hconn]
    exact hx

/-- The new session gets its relay task. -/
theorem TableInv.spawn (h : TableInv s) {dst : SocketAddr} (hpc : s.request = .spawning c g dst) :
    TableInv { s.setRelay g (some ⟨c, dst, .receiving⟩) with request := .idle } := by
  obtain ⟨hnorelay, x₀, hx₀, hg₀⟩ := h.newborn c g (by rw [hpc]; rfl)
  refine ⟨fun c' x hx _ => ?_, nofun, nofun, fun c' x hx => .inr ?_,
    fun g' r hr hlive hstop => ?_⟩
  · exact h.current c' x hx (by rw [hpc]; nofun)
  · rcases h.relayed c' x hx with hb | ⟨r, hr, hconn⟩
    · rw [hpc] at hb
      cases hb
      exact ⟨_, Function.update_self .., rfl⟩
    · have hne : x.generation ≠ g := by grind
      exact ⟨r, (Function.update_of_ne hne ..).trans hr, hconn⟩
  · rcases update_some hr with ⟨rfl, hnew⟩ | ⟨_, hr⟩
    · cases hnew
      exact ⟨x₀, hx₀, hg₀⟩
    · exact h.live g' r hr hlive hstop

theorem tableInv_request (hc : CurrentInv s) (ho : OriginInv s) (h : TableInv s)
    (hs : RequestStep udpMtu s s') : TableInv s' := by
  cases hs
  case packet hpc packet =>
    obtain ⟨-, hvacated, hnewborn⟩ := dispatch_table udpMtu packet
    refine h.quiet rfl rfl rfl rfl (by rw [hpc]; rfl)
      (fun c hc => nomatch hvacated.symm.trans hc) ?_
    rw [hpc]
    exact hnewborn
  case insert hpc | forget hpc =>
    exact h.retire (by rw [hpc]; rfl) (by rw [hpc]; rfl) rfl rfl rfl
  case switched c g reqAddr hpc =>
    exact h.evict (by rw [hpc]; rfl) (by rw [hpc]; rfl) (fun _ e => (Option.some.inj e).symm) rfl
  case replaced hpc | drop hpc =>
    exact h.evict (by rw [hpc]; rfl) (by rw [hpc]; rfl) (fun _ hv => by cases hv) rfl
  case bind r g dst hpc => exact h.bind hc ho hpc
  case undo c g hpc => exact h.undo hpc
  case spawn c g dst hpc => exact h.spawn hpc
  case sent hpc | notSent hpc =>
    exact h.quiet rfl rfl rfl rfl (by rw [hpc]; rfl) (fun _ hv => by cases hv) (by rw [hpc]; rfl)
  case resolve hpc _ | lockOpen hpc _ =>
    exact h.quiet rfl rfl rfl rfl (by rw [hpc]; rfl) (fun _ e => by rw [hpc]; exact e)
      (by rw [hpc]; rfl)
  all_goals
    rename_i hpc
    exact h.quiet rfl rfl rfl rfl (by simp [*, RequestPc.retiring]) (fun _ hv => by cases hv)
      (by simp [*, RequestPc.newborn])

/-! ## 4. The relay tasks -/

namespace TableEffect

variable {g : Nat} {r : Relay}

/-- A session of another generation stays. -/
theorem session_stays (ht : TableEffect g r s s') {c : UInt16} {x : Session}
    (hx : s.sessions c = some x) (hne : x.generation ≠ g) : s'.sessions c = some x := by
  cases ht with
  | keeps hsessions | leaves _ hsessions =>
    rw [hsessions]
    exact hx
  | removes hown hgen hsessions =>
    rw [hsessions]
    grind [Function.update_apply]

/-- So does the token of another generation. -/
theorem stopped_stays (ht : TableEffect g r s s') {g' : Nat} (hne : g' ≠ g) :
    s'.stopped g' = s.stopped g' := by
  cases ht with
  | keeps _ hstopped | leaves _ _ hstopped => rw [hstopped]
  | removes _ _ _ hstopped => exact hstopped g' hne

/-- A session of the task's own generation that is still there has the task. -/
theorem own_relayed (ht : TableEffect g r s s') {x : Session}
    (hx : s'.sessions r.connId = some x) (hg : x.generation = g) :
    ∃ r', s'.relays g = some r' ∧ r'.connId = r.connId := by
  cases ht with
  | keeps _ _ hrelay hid => exact ⟨_, hrelay, hid⟩
  | removes _ _ hsessions =>
    rw [hsessions, Function.update_self] at hx
    cases hx
  | leaves hgone hsessions =>
    rw [hsessions] at hx
    exact absurd hg (hgone x hx)

/-- A task that goes on has the session it had. -/
theorem own_live (ht : TableEffect g r s s') {r' : Relay} (hr' : s'.relays g = some r')
    (hlive : r'.pc ≠ .exiting) :
    s'.sessions r'.connId = s.sessions r.connId ∧ r.pc ≠ .exiting ∧
      s'.stopped g = s.stopped g := by
  cases ht with
  | keeps hsessions hstopped hrelay hid hlive' =>
    cases hrelay.symm.trans hr'
    exact ⟨by rw [hsessions, hid], hlive', by rw [hstopped]⟩
  | removes _ _ _ _ hrelay => exact absurd (hrelay r' hr').2 hlive
  | leaves _ _ _ hrelay => cases hrelay.symm.trans hr'

end TableEffect

theorem tableInv_relay (h : TableInv s) {r : Relay} (hr : s.relays g = some r)
    (hs : RelayStep codec udpMtu idleMs g r s s') : TableInv s' := by
  have he := relayEffect hs
  have ht := tableEffect hs
  -- a session that is there was there before
  have hold := he.sessions
  refine ⟨fun c x hx hne => ?_, fun c hc => ?_, fun c g' hb => ?_, fun c x hx => ?_,
    fun g' r' hr' hlive hstop => ?_⟩
  · rw [he.generations]
    rw [he.request] at hne
    exact h.current c x (hold c x hx) hne
  · have hnone := h.vacated c (he.request ▸ hc)
    exact Option.eq_none_iff_forall_ne_some.mpr fun x hx =>
      nomatch hnone.symm.trans (hold c x hx)
  · rw [he.request] at hb
    obtain ⟨hnorelay, x, hx, hg⟩ := h.newborn c g' hb
    have hne : g' ≠ g := by grind
    exact ⟨(he.others g' hne).trans hnorelay, x, ht.session_stays hx (hg ▸ hne), hg⟩
  · rw [he.request]
    rcases h.relayed c x (hold c x hx) with hb | ⟨r₁, hr₁, hconn⟩
    · exact .inl hb
    · by_cases hg : x.generation = g
      · rw [hg, hr] at hr₁
        cases hr₁
        obtain ⟨r', hr', hid⟩ := ht.own_relayed (hconn ▸ hx) hg
        exact .inr ⟨r', hg ▸ hr', hid.trans hconn⟩
      · exact .inr ⟨r₁, (he.others _ hg).trans hr₁, hconn⟩
  · by_cases hg : g' = g
    · subst hg
      obtain ⟨hsessions, hlive₀, hstopped⟩ := ht.own_live hr' hlive
      rw [hsessions]
      exact h.live g' r hr hlive₀ (hstopped ▸ hstop)
    · rw [he.others g' hg] at hr'
      rw [ht.stopped_stays hg] at hstop
      obtain ⟨x, hx, hxg⟩ := h.live g' r' hr' hlive hstop
      exact ⟨x, ht.session_stays hx (hxg ▸ hg), hxg⟩

/-! ## 5. Runs -/

theorem tableInv_step (hinv : Inv s) (h : TableInv s) (hs : Step codec udpMtu idleMs s s') :
    TableInv s' := by
  cases hs with
  | request hs => exact tableInv_request hinv.current hinv.origin h hs
  | relay hr hs => exact tableInv_relay h hr hs
  | writer hs => cases hs <;> exact ⟨h.current, h.vacated, h.newborn, h.relayed, h.live⟩
  | tick | otherClient => exact ⟨h.current, h.vacated, h.newborn, h.relayed, h.live⟩

theorem tableInv_reachable (h : Reachable codec udpMtu idleMs s) : TableInv s := by
  induction h with
  | new n => exact ⟨nofun, nofun, nofun, nofun, nofun⟩
  | step hr hs ih => exact tableInv_step (inv_reachable hr) ih hs

/-- **The session table.** In every run of the request loop and the relay tasks:

    * a session in the table has the current generation of its connection, unless
      `replace_generation` or `close_session` is about to take it out;
    * a relay task neither removes nor cancels a session of another generation;
    * when the request loop waits for a packet, every session has a relay task of its generation,
      which has not left its loop or removes that entry in its next step, and at most one relay
      task of a connection is neither cancelled nor out of its loop. -/
theorem session_table (h : Reachable codec udpMtu idleMs s) :
    (∀ c x, s.sessions c = some x → s.request.retiring ≠ some c →
      s.generations c = some x.generation) ∧
    (∀ g r s', s.relays g = some r → RelayStep codec udpMtu idleMs g r s s' →
      ∀ c x, s.sessions c = some x → x.generation ≠ g →
        s'.sessions c = some x ∧ s'.stopped x.generation = s.stopped x.generation) ∧
    (s.request = .idle →
      (∀ c x, s.sessions c = some x → ∃ r, s.relays x.generation = some r ∧ r.connId = c ∧
        (r.pc = .exiting → ∀ s', RelayStep codec udpMtu idleMs x.generation r s s' →
          s'.sessions c = none)) ∧
      ∀ g g' r r', s.relays g = some r → s.relays g' = some r' → r.connId = r'.connId →
        r.pc ≠ .exiting → r'.pc ≠ .exiting → s.stopped g = false → s.stopped g' = false →
          g = g') := by
  have hinv := tableInv_reachable h
  refine ⟨hinv.current, fun g r s' _ hs c x hx hne => ?_, fun hidle => ⟨fun c x hx => ?_, ?_⟩⟩
  · have heffect := tableEffect hs
    exact ⟨heffect.session_stays hx hne, heffect.stopped_stays hne⟩
  · rcases hinv.relayed c x hx with hb | ⟨r, hr, rfl⟩
    · rw [hidle] at hb
      cases hb
    · refine ⟨r, hr, rfl, fun hpc s' hs => ?_⟩
      cases tableEffect hs with
      | removes _ _ hsessions =>
        rw [hsessions]
        exact Function.update_self ..
      | leaves hgone => exact absurd rfl (hgone x hx)
      | keeps _ _ _ _ hlive => exact absurd hpc hlive
  · intro g g' r r' hr hr' hconn hpc hpc' hstop hstop'
    obtain ⟨x, hx, rfl⟩ := hinv.live g r hr hpc hstop
    obtain ⟨x', hx', rfl⟩ := hinv.live g' r' hr' hpc' hstop'
    rw [hconn, hx'] at hx
    cases hx
    rfl

end Steps

/-- The state after the first request of a connection. -/
theorem sample_session_table :
    ∃ s, Reachable socks5Address 1500 30000 s ∧ s.request = .idle ∧
      s.sessions 8 = some ⟨sampleDst, .socketAddress sampleDst, 0⟩ ∧ s.generations 8 = some 0 ∧
      ∃ r, s.relays 0 = some r ∧ r.connId = 8 := by
  have h : Reachable socks5Address 1500 30000 _ := .new 0
  have h := h.step (.request (.packet rfl sampleRequest))
  have h := h.step (.request (.miss (r := ⟨8, .socketAddress sampleDst⟩) rfl nofun))
  have h := h.step (.request (.lockReplace rfl rfl))
  have h := h.step (.request (.insert rfl))
  have h := h.step (.request (.switched rfl))
  have h := h.step (.request (.resolve rfl sampleDst))
  have h := h.step (.request (.lockOpen rfl rfl))
  have h := h.step (.request (.bind rfl))
  have h := h.step (.request (.sent rfl))
  have h := h.step (.request (.spawn rfl))
  obtain ⟨hcurrent, -, hidle⟩ := session_table h
  obtain ⟨r, hr, hconn, -⟩ := (hidle rfl).1 8 ⟨sampleDst, .socketAddress sampleDst, 0⟩ rfl
  exact ⟨_, h, rfl, rfl, hcurrent 8 _ rfl nofun, r, hr, hconn⟩

end Tun2Proxy.Udpgw
