/-
  File:      Tun2Proxy/Windows/Monitor.lean
  Subject:   The worker thread of the interface monitor (src/windows_network_config.rs,
             `InterfaceMonitor::start`), from the setup to the removal.

  Between two commands the worker waits in a phase; a command, or the timer, starts a program over
  the network operations. A timer tick has two parts: the interfaces and the rows to be rolled
  back, then the refresh of the bypasses. Others act on the system between any two calls.

  The programs that do not touch the route table (`quiet`) are dealt with once: they keep every
  assertion about the rows.
-/
import Tun2Proxy.Windows.Transaction

namespace Tun2Proxy.Windows

open Prog (Outcome OnlyCalls Safe Setting Stable)
open Relation

/-! ## 1. The worker -/

/-- What the worker thread holds: the record, the provisional update, and the rows whose deletion
    is to be tried again. -/
structure Worker where
  record : InstallRecord
  pending : Option PreparedBypasses
  rollbackRoutes : List RouteSpec
  deriving DecidableEq, Repr

namespace Worker

/-- `PrepareBypasses`, its reply included. -/
def prepareBypasses (self : Worker) (addresses : List IpAddr) :
    Net (Except UpdateError Unit × Worker) := do
  let (record, rollbackRoutes) ← rollbackUpstreamBypasses self.record self.rollbackRoutes
  if rollbackRoutes.isEmpty then do
    let (result, record, update) ← addUpstreamBypasses record addresses {}
    pure (result, ⟨record, some update, rollbackRoutes⟩)
  else pure (.error .rollbackPending, ⟨record, self.pending, rollbackRoutes⟩)

/-- `CommitBypasses`. -/
def commitBypasses (self : Worker) : Worker :=
  match self.pending with
  | some update => ⟨commitUpstreamBypasses self.record update, none, self.rollbackRoutes⟩
  | none => self

/-- The rows the provisional update has added. -/
def provisional (self : Worker) : List RouteSpec :=
  match self.pending with
  | some update => update.added
  | none => []

/-- The rows to be rolled back once the provisional update is given up. -/
def abandoned (self : Worker) : List RouteSpec := self.rollbackRoutes ++ self.provisional

/-- `RollbackBypasses`. -/
def rollbackBypasses (self : Worker) : Net Worker := do
  let (record, rollbackRoutes) ← rollbackUpstreamBypasses self.record self.abandoned
  pure ⟨record, none, rollbackRoutes⟩

/-- The first part of a timer tick. -/
def reconcile (self : Worker) (tunTarget : InterfaceTarget) : Net Worker := do
  let (_, interfaceSnapshots) ←
    reconcileInterfaceSettings tunTarget self.record.interfaceSnapshots
  let (record, rollbackRoutes) ←
    rollbackUpstreamBypasses { self.record with interfaceSnapshots } self.rollbackRoutes
  pure ⟨record, self.pending, rollbackRoutes⟩

/-- The second part: the bypasses follow the physical routes, unless an update is pending. -/
def refresh (self : Worker) : Net Worker :=
  if self.pending.isNone then do
    let (_, record) ← reconcileBypassRoutes self.record
    pure { self with record }
  else pure self

end Worker

/-! ## 2. The machine -/

/-- Between two programs. -/
inductive Phase where
  | waiting (worker : Worker)
  | refreshing (worker : Worker)
  | stopped (record : InstallRecord)
  | failed

/-- What the worker receives; a request whose caller is gone is skipped. -/
inductive Command where
  | prepare (addresses : List IpAddr) (isClosed : Bool)
  | commit
  | rollback
  | timeout
  | stop

section Machine

variable (isPrivateIp : IpAddr → Bool) (args : TproxyArgs)

/-- The monitor starts after a successful setup. -/
def Phase.afterSetup : Except SetupFailure InstallRecord → Phase
  | .ok record => .waiting ⟨record, none, []⟩
  | .error _ => .failed

def setup : Net Phase := do
  let result ← installTransaction isPrivateIp args
  pure (.afterSetup result)

def Worker.handle (self : Worker) : Command → Net Phase
  | .prepare addresses isClosed =>
    if isClosed then pure (.waiting self)
    else do
      let (_, worker) ← self.prepareBypasses addresses
      pure (.waiting worker)
  | .commit => pure (.waiting self.commitBypasses)
  | .rollback => do
      let worker ← self.rollbackBypasses
      pure (.waiting worker)
  | .timeout => do
      let worker ← self.reconcile (args.tunTarget self.record.tunLuid)
      pure (.refreshing worker)
  | .stop => pure (.stopped self.record)

/-- What the monitor may start; `may` restricts the workers a refresh starts from. -/
inductive Monitor (may : Worker → Prop) : Phase → Net Phase → Prop
  | command (worker : Worker) (c : Command) : Monitor may (.waiting worker) (worker.handle args c)
  | refresh {worker : Worker} (h : may worker) :
      Monitor may (.refreshing worker) (worker.refresh >>= fun worker => pure (.waiting worker))

/-- What is started after the monitor has stopped: cleanups, until one has removed everything. -/
inductive Removal : Phase → Net Phase → Prop
  | cleanup (record : InstallRecord) :
      Removal (.stopped record) (cleanupTransaction record >>= fun out => pure (.stopped out.2))

/-- No row waits to be rolled back when the bypasses are refreshed. -/
def NothingToRollBack (worker : Worker) : Prop := worker.rollbackRoutes = []

end Machine

/-! ## 3. Quiet programs -/

/-- The call does not touch the route table. -/
def NetworkOp.quiet : NetworkOp → Prop
  | .createRoute _ => False
  | .deleteRoute _ => False
  | _ => True

variable {reports : Os → List (RouteSpec × Nat) → Prop}

theorem NetworkOp.Step.quiet {w w' : World} {op : NetworkOp} {r : op.Result}
    (h : NetworkOp.Step reports w op r w') (hq : op.quiet) :
    w'.os.routes = w.os.routes ∧ w'.created = w.created := by
  cases h with
  | created | preexisting | createFails | deleted | deleteFails => exact hq.elim
  | _ => exact ⟨rfl, rfl⟩

theorem planBypasses_quiet (tunLuid : Luid) (cidrs : List IpCidr) (unique : List (IpAddr × Nat)) :
    OnlyCalls NetworkOp.quiet (planBypasses tunLuid cidrs unique) := by
  induction cidrs generalizing unique with
  | nil => exact .pure _
  | cons cidr cidrs ih =>
    rw [planBypasses]
    split
    · exact ih unique
    split
    · exact .pure _
    refine .perform trivial fun best => ?_
    cases best with
    | error e => exact .pure _
    | ok best =>
      dsimp only
      split
      · exact .pure _
      refine .bind (ih _) fun planned => ?_
      cases planned <;> exact .pure _

theorem planTransaction_quiet (isPrivateIp : IpAddr → Bool) (args : TproxyArgs) :
    OnlyCalls NetworkOp.quiet (planTransaction isPrivateIp args) := by
  refine .perform trivial fun luid => ?_
  cases luid with
  | error e => exact .pure _
  | ok tunLuid =>
    refine .perform trivial fun dns => ?_
    cases dns with
    | error e => exact .pure _
    | ok dnsBefore =>
      refine .bind (planBypasses_quiet _ _ _) fun bypasses => ?_
      cases bypasses with
      | error e => exact .pure _
      | ok bypasses =>
        dsimp only
        split <;> exact .pure _

theorem reconcileTargets_quiet (targets : List InterfaceTarget) (unique : List Luid)
    (snapshots : List InterfaceSnapshot) :
    OnlyCalls NetworkOp.quiet (reconcileTargets targets unique snapshots) := by
  induction targets generalizing unique snapshots with
  | nil => exact .pure _
  | cons target targets ih =>
    rw [reconcileTargets]
    split
    · exact ih unique snapshots
    refine .perform trivial fun read => ?_
    cases read with
    | error e =>
      dsimp only
      split
      · exact ih _ _
      · exact .pure _
    | ok current =>
      dsimp only
      split
      · exact ih _ _
      refine .perform trivial fun applied => ?_
      cases applied with
      | error e => exact .pure _
      | ok _ => exact ih _ _

theorem reconcileInterfaceSettings_quiet (tunTarget : InterfaceTarget)
    (snapshots : List InterfaceSnapshot) :
    OnlyCalls NetworkOp.quiet (reconcileInterfaceSettings tunTarget snapshots) := by
  refine .perform trivial fun listed => ?_
  cases listed with
  | error e => exact .pure _
  | ok targets => exact reconcileTargets_quiet _ _ _

theorem setupInterfaces_quiet (args : TproxyArgs) (record : InstallRecord) :
    OnlyCalls NetworkOp.quiet (setupInterfaces args record) := by
  unfold setupInterfaces
  split
  · exact reconcileInterfaceSettings_quiet _ _
  · exact .pure _

theorem setDns_quiet (luid : Luid) (nameServers : Option Str) :
    OnlyCalls NetworkOp.quiet (Net.setDns luid nameServers) := ⟨trivial, fun _ => trivial⟩

theorem restoreInterfaces_quiet (snapshots : List InterfaceSnapshot) :
    OnlyCalls NetworkOp.quiet (restoreInterfaces snapshots) := by
  induction snapshots with
  | nil => exact .pure _
  | cons s snapshots ih =>
    rw [restoreInterfaces]
    split
    · exact ih
    refine .perform trivial fun applied => ?_
    cases applied with
    | ok _ => exact ih
    | error e =>
      dsimp only
      split
      · exact ih
      · exact .bind ih fun _ => .pure _

/-! ## 4. Rules -/

section Rules

variable {others : World → World → Prop} {allowed : World → NetworkOp → Prop} {α : Type}
  {P : World → Prop} {Q : α → World → Prop} {w : World}

/-- The system, with what others do and what the session may call. -/
abbrev env (reports : Os → List (RouteSpec × Nat) → Prop) (others : World → World → Prop)
    (allowed : World → NetworkOp → Prop) : Setting World NetworkOp NetworkOp.Result :=
  ⟨NetworkOp.Step reports, others, allowed⟩

/-- The assertion depends on the rows alone. -/
def OnRows (P : World → Prop) : Prop :=
  ∀ ⦃w w' : World⦄, w'.os.routes = w.os.routes → w'.created = w.created → P w → P w'

theorem OnRows.attempt (hrows : OnRows P) (hw : P w) : P w.attempt := @hrows w w.attempt rfl rfl hw

theorem safe_quiet {p : Net α} (h : OnlyCalls NetworkOp.quiet p)
    (hP : Stable (env reports others allowed) P) (hrows : OnRows P)
    (hallowed : ∀ w op, op.quiet → P w → allowed w op) (hw : P w) :
    Safe (env reports others allowed) p (fun a w => P w ∧ Outcome p a) w := by
  refine (h.safe hP hallowed (fun w op r w' hq hI hstep => ?_) hw).outcome
  obtain ⟨hroutes, hcreated⟩ := hstep.quiet hq
  exact hrows hroutes hcreated hI

theorem safe_createRoute {r : RouteSpec} {f : Except OsError AddOutcome → Net α}
    (hP : Stable (env reports others allowed) P) (hrows : OnRows P)
    (hallowed : ∀ w, P w → allowed w (.createRoute r))
    (hcreated : ∀ w, P w → r ∉ w.os.routes →
      Safe (env reports others allowed) (f (.ok .Created)) Q (w.create r))
    (hpre : ∀ w, P w → r ∈ w.os.routes →
      Safe (env reports others allowed) (f (.ok .Preexisting)) Q w)
    (hfails : ∀ w e, P w → Safe (env reports others allowed) (f (.error e)) Q w) (hw : P w) :
    Safe (env reports others allowed) (Net.createRoute r >>= f) Q w := by
  intro w' hw'
  have h := hP.reach hw hw'
  refine ⟨hallowed w' h, fun res w'' hstep => ?_⟩
  cases hstep with
  | created hn => exact hcreated w' h hn
  | preexisting hm => exact hpre _ (hrows.attempt h) hm
  | createFails => exact hfails _ _ (hrows.attempt h)

theorem safe_deleteRoute {r : RouteSpec} {f : Except OsError Unit → Net α}
    (hP : Stable (env reports others allowed) P) (hrows : OnRows P)
    (hallowed : ∀ w, P w → allowed w (.deleteRoute r))
    (hdeleted : ∀ w, P w → Safe (env reports others allowed) (f (.ok ())) Q (w.delete r))
    (hfails : ∀ w e, P w → Safe (env reports others allowed) (f (.error e)) Q w) (hw : P w) :
    Safe (env reports others allowed) (Net.deleteRoute r >>= f) Q w := by
  intro w' hw'
  have h := hP.reach hw hw'
  refine ⟨hallowed w' h, fun res w'' hstep => ?_⟩
  cases hstep with
  | deleted => exact hdeleted w' h
  | deleteFails => exact hfails _ _ (hrows.attempt h)

theorem safe_physicalRoutes {f : Except OsError (List (RouteSpec × Nat)) → Net α}
    (hP : Stable (env reports others allowed) P)
    (hallowed : ∀ w, P w → allowed w .physicalRoutes)
    (hlisted : ∀ w rows, P w → reports w.os rows →
      Safe (env reports others allowed) (f (.ok rows)) Q w)
    (hfails : ∀ w e, P w → Safe (env reports others allowed) (f (.error e)) Q w) (hw : P w) :
    Safe (env reports others allowed) (Net.physicalRoutes >>= f) Q w := by
  intro w' hw'
  have h := hP.reach hw hw'
  refine ⟨hallowed w' h, fun res w'' hstep => ?_⟩
  cases hstep with
  | physicalRoutes hrows => exact hlisted w' _ h hrows
  | physicalRoutesFails => exact hfails w' _ h

theorem safe_pure {a : α} (hQ : Stable (env reports others allowed) (Q a)) (hw : Q a w) :
    Safe (env reports others allowed) (pure a : Net α) Q w :=
  fun _ hw' => hQ.reach hw hw'

end Rules

/-! ## 5. What is planned -/

variable {planned : List RouteSpec}

/-- The planned bypasses go over physical interfaces, and there is one for a destination. -/
theorem planBypasses_outcome {tunLuid : Luid} {cidrs : List IpCidr} {unique : List (IpAddr × Nat)}
    (h : Outcome (planBypasses tunLuid cidrs unique) (.ok planned)) :
    (planned.map RouteSpec.target).Nodup ∧
      ∀ r ∈ planned, r.target ∉ unique ∧ r.interfaceLuid ≠ tunLuid := by
  induction cidrs generalizing unique planned with
  | nil =>
    cases h
    exact ⟨List.nodup_nil, nofun⟩
  | cons cidr cidrs ih =>
    rw [planBypasses] at h
    split at h
    · exact ih h
    rename_i hunique
    split at h
    · cases h
    obtain ⟨best, h⟩ := Prog.outcome_perform.mp h
    cases best with
    | error e => cases h
    | ok best =>
      dsimp only at h
      split at h
      · cases h
      rename_i hphysical
      obtain ⟨rest, hrest, h⟩ := Prog.outcome_bind.mp h
      cases rest with
      | error e => cases h
      | ok rest =>
        cases h
        obtain ⟨hnodup, hall⟩ := ih hrest
        have hkey : cidr.key ∉ unique := by simpa using hunique
        refine ⟨List.nodup_cons.mpr ⟨fun hm => ?_, hnodup⟩, fun r hr => ?_⟩
        · obtain ⟨r, hr, heq⟩ := List.mem_map.mp hm
          exact (hall r hr).1 (heq ▸ List.mem_cons_self)
        · rcases List.mem_cons.mp hr with rfl | hr
          · exact ⟨hkey, hphysical⟩
          · exact ⟨fun hm => (hall r hr).1 (List.mem_cons_of_mem _ hm), (hall r hr).2⟩

variable {record : InstallRecord}

/-- The record before the first change. -/
theorem planTransaction_outcome {isPrivateIp : IpAddr → Bool} {args : TproxyArgs}
    (h : Outcome (planTransaction isPrivateIp args) (.ok (planned, record))) :
    record.ownedRoutes = [] ∧
      record.desiredBypasses = planned.filter (·.interfaceLuid != record.tunLuid) ∧
      (record.desiredBypasses.map RouteSpec.target).Nodup := by
  obtain ⟨luid, h⟩ := Prog.outcome_perform.mp h
  cases luid with
  | error e => cases h
  | ok tunLuid =>
    obtain ⟨dns, h⟩ := Prog.outcome_perform.mp h
    cases dns with
    | error e => cases h
    | ok dnsBefore =>
      obtain ⟨bypasses, hplan, h⟩ := Prog.outcome_bind.mp h
      cases bypasses with
      | error e => cases h
      | ok bypasses =>
        dsimp only at h
        split at h
        · cases h
        cases h
        obtain ⟨hnodup, hall⟩ := planBypasses_outcome hplan
        -- the capture routes go over the TUN
        have hdesired : (if args.ipv4DefaultRoute then
            bypasses ++ captureRoutes tunLuid args.tunGateway else bypasses).filter
              (·.interfaceLuid != tunLuid) = bypasses := by
          have hkept : bypasses.filter (·.interfaceLuid != tunLuid) = bypasses :=
            List.filter_eq_self.mpr fun r hr => bne_iff_ne.mpr (hall r hr).2
          split
          · rw [List.filter_append, hkept]
            simp [captureRoutes]
          · exact hkept
        refine ⟨rfl, rfl, ?_⟩
        dsimp only
        rw [hdesired]
        exact hnodup

/-! ## 6. What the programs of the worker leave -/

/-- What a rollback leaves of the owned rows and of the rows to delete: a row of these that is
    still owned is still to be deleted. -/
structure RolledBack (record : InstallRecord) (routes : List RouteSpec) (record' : InstallRecord)
    (routes' : List RouteSpec) : Prop where
  desired : record'.desiredBypasses = record.desiredBypasses
  owned : record'.ownedRoutes ⊆ record.ownedRoutes
  rest : routes' ⊆ routes
  kept : ∀ r ∈ record'.ownedRoutes, r ∈ routes → r ∈ routes'

theorem rollbackUpstreamBypasses_outcome {record' : InstallRecord} {routes routes' : List RouteSpec}
    (h : Outcome (rollbackUpstreamBypasses record routes) (record', routes')) :
    RolledBack record routes record' routes' := by
  induction routes generalizing record routes' with
  | nil =>
    cases h
    exact ⟨rfl, List.Subset.refl _, List.Subset.refl _, fun _ _ hr => hr⟩
  | cons r routes ih =>
    rw [rollbackUpstreamBypasses] at h
    obtain ⟨deleted, h⟩ := Prog.outcome_perform.mp h
    cases deleted with
    | ok _ =>
      have hrest := ih h
      refine ⟨hrest.desired, fun x hx => List.mem_of_mem_filter (hrest.owned hx),
        fun x hx => List.mem_cons_of_mem r (hrest.rest hx), fun x hx hm => ?_⟩
      have hne : x ≠ r := bne_iff_ne.mp (List.mem_filter.mp (hrest.owned hx)).2
      exact hrest.kept x hx ((List.mem_cons.mp hm).resolve_left hne)
    | error e =>
      obtain ⟨⟨record₁, routes₁⟩, hrest, hpure⟩ := Prog.outcome_bind.mp h
      cases hpure
      have hrest := ih hrest
      refine ⟨hrest.desired, hrest.owned, List.cons_subset_cons r hrest.rest, fun x hx hm => ?_⟩
      rcases List.mem_cons.mp hm with rfl | hm
      · exact List.mem_cons_self
      · exact List.mem_cons_of_mem r (hrest.kept x hx hm)

variable {update : PreparedBypasses}

theorem installUpstream_outcome {owned owned' : List RouteSpec} {update' : PreparedBypasses}
    {result : Except UpdateError Unit}
    (h : Outcome (installUpstream planned owned update) (result, owned', update')) :
    ∃ more, owned' = owned ++ more ∧ update'.added = update.added ++ more := by
  induction planned generalizing owned update with
  | nil =>
    cases h
    exact ⟨[], (List.append_nil _).symm, (List.append_nil _).symm⟩
  | cons r planned ih =>
    rw [installUpstream] at h
    obtain ⟨created, h⟩ := Prog.outcome_perform.mp h
    cases created with
    | error e =>
      cases h
      exact ⟨[], (List.append_nil _).symm, (List.append_nil _).symm⟩
    | ok outcome =>
      dsimp only at h
      split at h
      · obtain ⟨more, howned, hadded⟩ := ih h
        refine ⟨r :: more, ?_, ?_⟩
        · rw [howned, List.append_assoc]
          rfl
        · rw [hadded, List.append_assoc]
          rfl
      · obtain ⟨more, howned, hadded⟩ := ih h
        exact ⟨more, howned, hadded⟩

/-- The rows an update adds are the ones it says. -/
theorem addUpstreamBypasses_outcome {record' : InstallRecord} {addresses : List IpAddr}
    {result : Except UpdateError Unit}
    (h : Outcome (addUpstreamBypasses record addresses {}) (result, record', update)) :
    record'.desiredBypasses = record.desiredBypasses ∧
      record'.ownedRoutes = record.ownedRoutes ++ update.added := by
  have hnone : record.ownedRoutes = record.ownedRoutes ++ [] := (List.append_nil _).symm
  unfold addUpstreamBypasses at h
  split at h
  · cases h
    exact ⟨rfl, hnone⟩
  obtain ⟨listed, h⟩ := Prog.outcome_perform.mp h
  cases listed with
  | error e =>
    cases h
    exact ⟨rfl, hnone⟩
  | ok routes =>
    dsimp only at h
    split at h
    · cases h
      exact ⟨rfl, hnone⟩
    · obtain ⟨⟨result', owned, update'⟩, hloop, hpure⟩ := Prog.outcome_bind.mp h
      cases hpure
      obtain ⟨more, howned, hadded⟩ := installUpstream_outcome hloop
      exact ⟨rfl, howned.trans (by rw [hadded]; rfl)⟩

/-- The refresh keeps the destinations of the bypasses. -/
theorem reconcileDesired_targets {tunLuid : Luid} {routes : List (RouteSpec × Nat)}
    {desired desired' owned owned' : List RouteSpec} {result : Except OsError Unit}
    (h : Outcome (reconcileDesired tunLuid routes desired owned) (result, desired', owned')) :
    desired'.map RouteSpec.target = desired.map RouteSpec.target := by
  induction desired generalizing owned desired' owned' with
  | nil =>
    cases h
    rfl
  | cons old rest ih =>
    rw [reconcileDesired] at h
    split at h
    · obtain ⟨⟨result', rest', owned₁⟩, hrest, hpure⟩ := Prog.outcome_bind.mp h
      cases hpure
      exact congrArg (old.target :: ·) (ih hrest)
    · obtain ⟨installed, -, h⟩ := Prog.outcome_bind.mp h
      cases installed with
      | error e =>
        cases h
        rfl
      | ok owned₁ =>
        obtain ⟨⟨retired, owned₂⟩, -, h⟩ := Prog.outcome_bind.mp h
        cases retired with
        | error e =>
          cases h
          rfl
        | ok _ =>
          obtain ⟨⟨result', rest', owned₃⟩, hrest, hpure⟩ := Prog.outcome_bind.mp h
          cases hpure
          exact congrArg (old.target :: ·) (ih hrest)

/-- The bypass for the destination is replaced, or there is one more. -/
theorem setDesired_targets (route : RouteSpec) (desired : List RouteSpec) :
    (setDesired route desired).map RouteSpec.target =
      if route.target ∈ desired.map RouteSpec.target then desired.map RouteSpec.target
      else desired.map RouteSpec.target ++ [route.target] := by
  induction desired with
  | nil => rfl
  | cons old desired ih =>
    rw [setDesired]
    by_cases heq : old.target = route.target
    · have hcond : old.destination = route.destination ∧ old.prefixLen = route.prefixLen :=
        Prod.mk.inj heq
      rw [if_pos hcond, List.map_cons, List.map_cons, heq, if_pos List.mem_cons_self]
    · have hcond : ¬(old.destination = route.destination ∧ old.prefixLen = route.prefixLen) :=
        fun h => heq (Prod.ext h.1 h.2)
      rw [if_neg hcond, List.map_cons, ih, List.map_cons]
      have hmem : route.target ∈ old.target :: desired.map RouteSpec.target ↔
          route.target ∈ desired.map RouteSpec.target := by
        rw [List.mem_cons]
        exact or_iff_right fun e => heq e.symm
      by_cases hm : route.target ∈ desired.map RouteSpec.target
      · rw [if_pos hm, if_pos (hmem.mpr hm)]
      · rw [if_neg hm, if_neg fun h => hm (hmem.mp h), List.cons_append]

namespace Worker

variable {worker worker' : Worker}

/-- **A preparation**: it is refused while a row waits to be rolled back; otherwise there is a
    provisional update, and what it has added to the owned rows. -/
theorem prepareBypasses_outcome {addresses : List IpAddr} {result : Except UpdateError Unit}
    (h : Outcome (worker.prepareBypasses addresses) (result, worker')) :
    worker'.record.desiredBypasses = worker.record.desiredBypasses ∧
      ((∃ update, worker'.pending = some update ∧ worker'.rollbackRoutes = [] ∧
        ∀ r ∈ worker'.record.ownedRoutes, r ∈ update.added ∨
          r ∈ worker.record.ownedRoutes ∧ r ∉ worker.rollbackRoutes) ∨
      (result ≠ .ok () ∧ worker'.pending = worker.pending ∧
        ∀ r ∈ worker'.record.ownedRoutes, r ∈ worker.record.ownedRoutes ∧
          (r ∈ worker.rollbackRoutes → r ∈ worker'.rollbackRoutes))) := by
  obtain ⟨⟨record, rollbackRoutes⟩, hrolled, h⟩ := Prog.outcome_bind.mp h
  have hrolled := rollbackUpstreamBypasses_outcome hrolled
  dsimp only at h
  split at h
  · rename_i hempty
    obtain rfl := List.isEmpty_iff.mp hempty
    obtain ⟨⟨result', record', update⟩, hadd, hpure⟩ := Prog.outcome_bind.mp h
    cases hpure
    obtain ⟨hdesired, howned⟩ := addUpstreamBypasses_outcome hadd
    refine ⟨hdesired.trans hrolled.desired, .inl ⟨update, rfl, rfl, fun r hr => ?_⟩⟩
    rw [howned] at hr
    rcases List.mem_append.mp hr with hr | hr
    · exact .inr ⟨hrolled.owned hr, fun hm => List.not_mem_nil (hrolled.kept r hr hm)⟩
    · exact .inl hr
  · cases h
    exact ⟨hrolled.desired, .inr ⟨nofun, rfl, fun r hr =>
      ⟨hrolled.owned hr, hrolled.kept r hr⟩⟩⟩

theorem rollbackBypasses_outcome (h : Outcome worker.rollbackBypasses worker') :
    worker'.pending = none ∧
      RolledBack worker.record worker.abandoned worker'.record worker'.rollbackRoutes := by
  obtain ⟨⟨record, rollbackRoutes⟩, hrolled, h⟩ := Prog.outcome_bind.mp h
  cases h
  exact ⟨rfl, rollbackUpstreamBypasses_outcome hrolled⟩

theorem reconcile_outcome {tunTarget : InterfaceTarget}
    (h : Outcome (worker.reconcile tunTarget) worker') :
    worker'.pending = worker.pending ∧
      RolledBack worker.record worker.rollbackRoutes worker'.record worker'.rollbackRoutes := by
  obtain ⟨⟨result, snapshots⟩, -, h⟩ := Prog.outcome_bind.mp h
  obtain ⟨⟨record, rollbackRoutes⟩, hrolled, h⟩ := Prog.outcome_bind.mp h
  cases h
  have hrolled := rollbackUpstreamBypasses_outcome hrolled
  exact ⟨rfl, hrolled.desired, hrolled.owned, hrolled.rest, hrolled.kept⟩

theorem refresh_outcome (h : Outcome worker.refresh worker') :
    worker'.pending = worker.pending ∧ worker'.rollbackRoutes = worker.rollbackRoutes ∧
      (worker.pending ≠ none → worker' = worker) ∧
      worker'.record.desiredBypasses.map RouteSpec.target =
        worker.record.desiredBypasses.map RouteSpec.target := by
  unfold Worker.refresh at h
  split at h
  · rename_i hnone
    obtain ⟨⟨result, record⟩, hreconcile, h⟩ := Prog.outcome_bind.mp h
    cases h
    refine ⟨rfl, rfl, fun hsome => absurd (Option.isNone_iff_eq_none.mp hnone) hsome, ?_⟩
    obtain ⟨listed, h⟩ := Prog.outcome_perform.mp hreconcile
    cases listed with
    | error e =>
      cases h
      rfl
    | ok routes =>
      obtain ⟨⟨result', desired, owned⟩, hloop, hpure⟩ := Prog.outcome_bind.mp h
      cases hpure
      exact reconcileDesired_targets hloop
  · cases h
    exact ⟨rfl, rfl, fun _ => rfl, rfl⟩

end Worker

/-! ## 7. A sample run -/

section Sample

variable {others : World → World → Prop} {next : Phase → Net Phase → Prop} {α : Type}

/-- A program of the machine on an executable network. -/
theorem reach_run (net : Network) {phase : Phase} {p : Net α} {f : α → Phase} {w : World}
    (hrows : ∀ os, reports os (net.reported os)) (h : next phase (p >>= fun a => pure (f a))) :
    ReflTransGen (Prog.Move (NetworkOp.Step reports) others next) (.pure phase, w)
      (.pure (f (net.run p w).1), (net.run p w).2) :=
  .head (.start h) (Prog.Runs.moves
    (Prog.runs_bind.mpr ⟨_, _, net.run_runs hrows p w, .pure _ _⟩))

/-- The first call of a preparation while a row waits to be rolled back. -/
theorem prepare_deletes (args : TproxyArgs) {worker : Worker} {r : RouteSpec}
    {routes : List RouteSpec} (h : worker.rollbackRoutes = r :: routes) (addresses : List IpAddr) :
    ∃ k, worker.handle args (.prepare addresses false) = .call (.deleteRoute r) k := by
  obtain ⟨record, pending, rollbackRoutes⟩ := worker
  cases h
  exact ⟨_, rfl⟩

theorem rollback_deletes (args : TproxyArgs) {worker : Worker} {r : RouteSpec}
    {routes : List RouteSpec} (h : worker.abandoned = r :: routes) :
    ∃ k, worker.handle args .rollback = .call (.deleteRoute r) k := by
  dsimp only [Worker.handle, Worker.rollbackBypasses]
  rw [h]
  exact ⟨_, rfl⟩

/-- Other software adds a row. -/
def World.addRow (w : World) (r : RouteSpec) : World :=
  { w with os := { w.os with routes := insert r w.os.routes } }

/-- The row over interface 0x88 cannot be deleted. -/
def sampleStuck : NetworkOp → Bool := fun op => decide (op = .deleteRoute (sampleBypass 0x88))

/-- The physical route moves to interface 0x88, an update prepares the bypass over it, and its
    rollback fails, then and at the next tick. -/
def sampleSetup : Phase × World :=
  (sampleNetwork fun _ => false).run (setup (fun _ => false) sampleArgs) (.start sampleOs)

def samplePrepared : (Except UpdateError Unit × Worker) × World :=
  (sampleNetwork fun _ => false).run
    (Worker.prepareBypasses ⟨sampleRecord, none, []⟩ [.v4 0xCB007101#32])
    (sampleSetup.2.addRow (sampleDefault 0x88))

def sampleRolledBack : Worker × World :=
  (sampleNetwork sampleStuck).run samplePrepared.1.2.rollbackBypasses samplePrepared.2

def sampleReconciled : Worker × World :=
  (sampleNetwork sampleStuck).run
    (sampleRolledBack.1.reconcile (sampleArgs.tunTarget sampleRolledBack.1.record.tunLuid))
    sampleRolledBack.2

theorem sampleSetup_phase : sampleSetup.1 = .waiting ⟨sampleRecord, none, []⟩ := by rfl

section Reach

variable (hrows : ∀ (net : Network) os, reports os (net.reported os))
include hrows

theorem sampleSetup_reach :
    ReflTransGen (Prog.Move (NetworkOp.Step reports) others next)
      (setup (fun _ => false) sampleArgs, .start sampleOs)
      (.pure (.waiting ⟨sampleRecord, none, []⟩), sampleSetup.2) := by
  rw [← sampleSetup_phase]
  exact Prog.Runs.moves (Network.run_runs (hrows _) _ _)

variable (hadd : ∀ w r, others w (World.addRow w r)) {may : Worker → Prop}
  (hnext : ∀ phase p, Monitor sampleArgs may phase p → next phase p)
include hnext

theorem sampleReconciled_reach :
    ReflTransGen (Prog.Move (NetworkOp.Step reports) others next)
      (.pure (.waiting samplePrepared.1.2), samplePrepared.2)
      (.pure (.refreshing sampleReconciled.1), sampleReconciled.2) := by
  refine (reach_run (sampleNetwork sampleStuck) (hrows _)
    (hnext _ _ (.command _ .rollback))).trans ?_
  exact reach_run (sampleNetwork sampleStuck) (hrows _) (hnext _ _ (.command _ .timeout))

include hadd

theorem samplePrepared_reach :
    ReflTransGen (Prog.Move (NetworkOp.Step reports) others next)
      (.pure (.waiting ⟨sampleRecord, none, []⟩), sampleSetup.2)
      (.pure (.waiting samplePrepared.1.2), samplePrepared.2) :=
  .head (.others (hadd _ (sampleDefault 0x88))) (reach_run (sampleNetwork fun _ => false) (hrows _)
    (hnext _ _ (.command _ (.prepare [.v4 0xCB007101#32] false))))

end Reach

end Sample

end Tun2Proxy.Windows
