/-
  File:      Tun2Proxy/Windows/Network.lean
  Subject:   The Windows network as the session sees it: route rows, interface flags, the DNS
             servers of an interface, and the calls of `NetworkOperations`
             (src/windows_network_config.rs).

  A mutating call takes effect or fails without effect, and a failure may happen at any call.
  Creating a row that exists reports it as preexisting; deleting a row that is absent succeeds.
  What the reading calls return about routes is left open (`reports` says what is known of
  `physical_routes`); the flags and the DNS servers are read as they are, and an error that says
  that an interface is missing is returned only for one that is gone.

  `World` adds to the system's state what the results talk about: how many mutating calls were
  made, and which rows the session has created and not deleted since.
-/
import Mathlib.Data.Finset.Basic
import Tun2Proxy.Lib.Interaction
import Tun2Proxy.Net.SocketAddr

namespace Tun2Proxy

/-! ## 1. Networks -/

def IpCidr.networkLength : IpCidr → Nat
  | .v4 _ len _ _ => len
  | .v6 _ len _ _ => len

def IpCidr.contains (self : IpCidr) (ip : IpAddr) : Bool :=
  addressInPool ip self.firstAddress self.lastAddress

def IpCidr.newHost : IpAddr → IpCidr
  | .v4 a => .v4 a 32 (Nat.le_refl 32) (Nat.mod_one _)
  | .v6 a => .v6 a 128 (Nat.le_refl 128) (Nat.mod_one _)

/-- A network is its first address and its length. -/
def IpCidr.key (self : IpCidr) : IpAddr × Nat := (self.firstAddress, self.networkLength)

namespace Windows

/-! ## 2. Routes -/

abbrev Luid := UInt64

structure RouteAddress where
  ip : IpAddr
  scopeId : UInt32
  deriving DecidableEq, Repr

def RouteAddress.new (ip : IpAddr) : RouteAddress := ⟨ip, 0⟩

structure RouteSpec where
  destination : IpAddr
  prefixLen : Nat
  nextHop : RouteAddress
  interfaceLuid : Luid
  metric : Nat
  deriving DecidableEq, Repr

inductive AddOutcome where
  | Created
  | Preexisting
  deriving DecidableEq, Repr

/-- What a row is for: destination and length of its prefix. -/
def RouteSpec.target (r : RouteSpec) : IpAddr × Nat := (r.destination, r.prefixLen)

/-- The addresses the row covers. A shift by the whole width leaves no bit of the mask. -/
def containsDestination (route : RouteSpec) (destination : IpAddr) : Bool :=
  match route.destination, destination with
  | .v4 network, .v4 ip =>
    let mask := BitVec.allOnes 32 <<< (32 - route.prefixLen)
    route.prefixLen ≤ 32 && network &&& mask == ip &&& mask
  | .v6 network, .v6 ip =>
    let mask := BitVec.allOnes 128 <<< (128 - route.prefixLen)
    route.prefixLen ≤ 128 && network &&& mask == ip &&& mask
  | _, _ => false

/-- The key of `min_by_key` is smaller: a longer prefix, or the same with a smaller total metric. -/
def prefers (a b : RouteSpec × Nat) : Bool :=
  b.1.prefixLen < a.1.prefixLen ||
    (b.1.prefixLen == a.1.prefixLen && a.1.metric + a.2 < b.1.metric + b.2)

/-- `min_by_key`: the first of the least rows. -/
def firstBest : List (RouteSpec × Nat) → Option (RouteSpec × Nat)
  | [] => none
  | row :: rows => some (rows.foldl (fun best row => if prefers row best then row else best) row)

def selectPhysicalRoute (routes : List (RouteSpec × Nat)) (destination : IpAddr) (tunLuid : Luid)
    (owned : List RouteSpec) : Option RouteSpec :=
  (firstBest (routes.filter fun row =>
    row.1.interfaceLuid != tunLuid && !owned.contains row.1 &&
      containsDestination row.1 destination)).map (·.1)

theorem firstBest_mem {rows : List (RouteSpec × Nat)} {row : RouteSpec × Nat}
    (h : firstBest rows = some row) : row ∈ rows := by
  have hfold : ∀ (rows : List (RouteSpec × Nat)) (best : RouteSpec × Nat),
      rows.foldl (fun best row => if prefers row best then row else best) best ∈ best :: rows := by
    intro rows
    induction rows with
    | nil => exact fun best => List.mem_cons_self
    | cons row rows ih =>
      intro best
      rw [List.foldl_cons]
      have hmem := ih (if prefers row best then row else best)
      rcases List.mem_cons.mp hmem with heq | hmem
      · rw [heq]
        split
        · exact List.mem_cons_of_mem _ List.mem_cons_self
        · exact List.mem_cons_self
      · exact List.mem_cons_of_mem _ (List.mem_cons_of_mem _ hmem)
  cases rows with
  | nil => cases h
  | cons first rows =>
    cases h
    exact hfold rows first

/-- **A physical route is a reported row, not on the TUN, and not one of the session's.** -/
theorem selectPhysicalRoute_some {routes : List (RouteSpec × Nat)} {destination : IpAddr}
    {tunLuid : Luid} {owned : List RouteSpec} {route : RouteSpec}
    (h : selectPhysicalRoute routes destination tunLuid owned = some route) :
    route ∈ routes.map (·.1) ∧ route.interfaceLuid ≠ tunLuid ∧ route ∉ owned := by
  obtain ⟨row, hrow, rfl⟩ := Option.map_eq_some_iff.mp h
  obtain ⟨hmem, hcond⟩ := List.mem_filter.mp (firstBest_mem hrow)
  simp only [Bool.and_eq_true, bne_iff_ne, Bool.not_eq_true', List.contains_eq_mem,
    decide_eq_false_iff_not] at hcond
  exact ⟨List.mem_map_of_mem hmem, hcond.1.1, hcond.1.2⟩

/-! ## 3. Interfaces -/

/-- A value for each flag of an interface. -/
@[ext] structure Flags (α : Type) where
  forwarding : α
  weakHostSend : α
  weakHostReceive : α
  deriving DecidableEq, Repr

abbrev InterfaceSettings := Flags Bool

/-- The flags to set, and to which value. -/
abbrev InterfacePatch := Flags (Option Bool)

namespace InterfacePatch

def empty : InterfacePatch := ⟨none, none, none⟩

def isEmpty (self : InterfacePatch) : Bool :=
  self.forwarding.isNone && self.weakHostSend.isNone && self.weakHostReceive.isNone

/-- One flag of `merge_owned`: it is recorded when it is changed for the first time. -/
def mergeFlag (self patch : Option Bool) (before : Bool) : Option Bool :=
  if patch.isSome && self.isNone then some before else self

def mergeOwned (self patch : InterfacePatch) (before : InterfaceSettings) : InterfacePatch :=
  ⟨mergeFlag self.forwarding patch.forwarding before.forwarding,
    mergeFlag self.weakHostSend patch.weakHostSend before.weakHostSend,
    mergeFlag self.weakHostReceive patch.weakHostReceive before.weakHostReceive⟩

/-- The settings with the flags of the patch set. -/
def apply (self : InterfacePatch) (settings : InterfaceSettings) : InterfaceSettings :=
  ⟨self.forwarding.getD settings.forwarding, self.weakHostSend.getD settings.weakHostSend,
    self.weakHostReceive.getD settings.weakHostReceive⟩

end InterfacePatch

inductive InterfaceRole where
  | Tun
  | WslHns
  deriving DecidableEq, Repr

structure InterfaceTarget where
  luid : Luid
  ifAlias : Str
  role : InterfaceRole
  deriving DecidableEq, Repr

structure InterfaceSnapshot where
  target : InterfaceTarget
  before : InterfaceSettings
  restore : InterfacePatch
  deriving DecidableEq, Repr

/-- `(!current).then_some(true)`. -/
def requireFlag (current : Bool) : Option Bool := if current then none else some true

def requiredInterfacePatch (role : InterfaceRole) (current : InterfaceSettings) : InterfacePatch :=
  match role with
  | .Tun =>
    ⟨requireFlag current.forwarding, requireFlag current.weakHostSend,
      requireFlag current.weakHostReceive⟩
  | .WslHns => { InterfacePatch.empty with forwarding := requireFlag current.forwarding }

/-! ## 4. Operations -/

/-- An error of the system: its code, if it has one, and its text. -/
structure OsError where
  rawOsError : Option Nat
  text : String
  deriving DecidableEq, Repr

def ERROR_FILE_NOT_FOUND : Nat := 2

def ERROR_NOT_FOUND : Nat := 1168

def isMissingInterfaceError (error : OsError) : Bool :=
  error.rawOsError == some ERROR_FILE_NOT_FOUND || error.rawOsError == some ERROR_NOT_FOUND

structure DnsSnapshot where
  nameServers : Option Str
  deriving DecidableEq, Repr

/-- The methods of `NetworkOperations`. -/
inductive NetworkOp where
  | interfaceLuid (ifAlias : Str)
  | bestRoute (destination : IpAddr)
  | physicalRoutes
  | createRoute (route : RouteSpec)
  | deleteRoute (route : RouteSpec)
  | wslHnsInterfaces
  | interfaceSettings (luid : Luid)
  | applyInterfacePatch (luid : Luid) (patch : InterfacePatch)
  | snapshotDns (luid : Luid)
  | setDns (luid : Luid) (nameServers : Option Str)
  deriving DecidableEq, Repr

/-- What a call gives when it succeeds. -/
abbrev NetworkOp.Value : NetworkOp → Type
  | .interfaceLuid _ => Luid
  | .bestRoute _ => Luid × RouteAddress
  | .physicalRoutes => List (RouteSpec × Nat)
  | .createRoute _ => AddOutcome
  | .deleteRoute _ => Unit
  | .wslHnsInterfaces => List InterfaceTarget
  | .interfaceSettings _ => InterfaceSettings
  | .applyInterfacePatch _ _ => Unit
  | .snapshotDns _ => DnsSnapshot
  | .setDns _ _ => Unit

abbrev NetworkOp.Result (op : NetworkOp) : Type := Except OsError op.Value

/-- Code that calls the network operations. -/
abbrev Net := Prog NetworkOp NetworkOp.Result

namespace Net

def interfaceLuid (ifAlias : Str) : Net (Except OsError Luid) :=
  Prog.perform (NetworkOp.interfaceLuid ifAlias)

def bestRoute (destination : IpAddr) : Net (Except OsError (Luid × RouteAddress)) :=
  Prog.perform (NetworkOp.bestRoute destination)

def physicalRoutes : Net (Except OsError (List (RouteSpec × Nat))) :=
  Prog.perform NetworkOp.physicalRoutes

def createRoute (route : RouteSpec) : Net (Except OsError AddOutcome) :=
  Prog.perform (NetworkOp.createRoute route)

def deleteRoute (route : RouteSpec) : Net (Except OsError Unit) :=
  Prog.perform (NetworkOp.deleteRoute route)

def wslHnsInterfaces : Net (Except OsError (List InterfaceTarget)) :=
  Prog.perform NetworkOp.wslHnsInterfaces

def interfaceSettings (luid : Luid) : Net (Except OsError InterfaceSettings) :=
  Prog.perform (NetworkOp.interfaceSettings luid)

def applyInterfacePatch (luid : Luid) (patch : InterfacePatch) : Net (Except OsError Unit) :=
  Prog.perform (NetworkOp.applyInterfacePatch luid patch)

def snapshotDns (luid : Luid) : Net (Except OsError DnsSnapshot) :=
  Prog.perform (NetworkOp.snapshotDns luid)

def setDns (luid : Luid) (nameServers : Option Str) : Net (Except OsError Unit) :=
  Prog.perform (NetworkOp.setDns luid nameServers)

end Net

/-! ## 5. The system -/

structure Os where
  routes : Finset RouteSpec
  dns : Luid → Option Str
  /-- The flags of the interfaces that exist. -/
  settings : Luid → Option InterfaceSettings

structure World where
  os : Os
  /-- The mutating calls made so far. -/
  mutations : Nat
  /-- The rows the session created and has not deleted since. -/
  created : Finset RouteSpec

namespace World

/-- Before the setup. -/
def start (os : Os) : World := ⟨os, 0, ∅⟩

/-- A mutating call without effect. -/
def attempt (w : World) : World := { w with mutations := w.mutations + 1 }

def create (w : World) (r : RouteSpec) : World :=
  { w.attempt with
    os := { w.os with routes := insert r w.os.routes }
    created := insert r w.created }

def delete (w : World) (r : RouteSpec) : World :=
  { w.attempt with
    os := { w.os with routes := w.os.routes.erase r }
    created := w.created.erase r }

def setFlags (w : World) (luid : Luid) (settings : InterfaceSettings) : World :=
  { w.attempt with
    os := { w.os with settings := Function.update w.os.settings luid (some settings) } }

def setDns (w : World) (luid : Luid) (nameServers : Option Str) : World :=
  { w.attempt with os := { w.os with dns := Function.update w.os.dns luid nameServers } }

end World

/-- **What a call may return, and what it does.** -/
inductive NetworkOp.Step (reports : Os → List (RouteSpec × Nat) → Prop) :
    World → (op : NetworkOp) → op.Result → World → Prop
  | interfaceLuid (w ifAlias r) : Step reports w (.interfaceLuid ifAlias) r w
  | bestRoute (w destination r) : Step reports w (.bestRoute destination) r w
  | wslHnsInterfaces (w r) : Step reports w .wslHnsInterfaces r w
  | physicalRoutes {w rows} (h : reports w.os rows) : Step reports w .physicalRoutes (.ok rows) w
  | physicalRoutesFails (w e) : Step reports w .physicalRoutes (.error e) w
  | interfaceSettings {w luid v} (h : w.os.settings luid = some v) :
      Step reports w (.interfaceSettings luid) (.ok v) w
  | interfaceSettingsFails {w luid e}
      (h : isMissingInterfaceError e = true → w.os.settings luid = none) :
      Step reports w (.interfaceSettings luid) (.error e) w
  | snapshotDns (w luid) : Step reports w (.snapshotDns luid) (.ok ⟨w.os.dns luid⟩) w
  | snapshotDnsFails (w luid e) : Step reports w (.snapshotDns luid) (.error e) w
  | created {w r} (h : r ∉ w.os.routes) :
      Step reports w (.createRoute r) (.ok .Created) (w.create r)
  | preexisting {w r} (h : r ∈ w.os.routes) :
      Step reports w (.createRoute r) (.ok .Preexisting) w.attempt
  | createFails (w r e) : Step reports w (.createRoute r) (.error e) w.attempt
  | deleted (w r) : Step reports w (.deleteRoute r) (.ok ()) (w.delete r)
  | deleteFails (w r e) : Step reports w (.deleteRoute r) (.error e) w.attempt
  | patchedNothing {w luid patch} (h : patch.isEmpty = true) :
      Step reports w (.applyInterfacePatch luid patch) (.ok ()) w.attempt
  | patched {w luid patch v} (h : w.os.settings luid = some v) :
      Step reports w (.applyInterfacePatch luid patch) (.ok ()) (w.setFlags luid (patch.apply v))
  | patchFails {w luid patch e}
      (h : isMissingInterfaceError e = true → w.os.settings luid = none) :
      Step reports w (.applyInterfacePatch luid patch) (.error e) w.attempt
  | dnsSet (w luid v) : Step reports w (.setDns luid v) (.ok ()) (w.setDns luid v)
  | dnsFails (w luid v e) : Step reports w (.setDns luid v) (.error e) w.attempt

/-! ## 6. Calls in a run -/

section Runs

open Prog (Runs)

variable {reports : Os → List (RouteSpec × Nat) → Prop} {α : Type} {w w' : World} {a : α}

/-- The call only looks at the system, and what it answers is left open. -/
def NetworkOp.observes : NetworkOp → Prop
  | .interfaceLuid _ | .bestRoute _ | .wslHnsInterfaces | .physicalRoutes => True
  | _ => False

theorem runs_observes {op : NetworkOp} {f : op.Result → Net α}
    (h : Runs (NetworkOp.Step reports) (Prog.perform op >>= f) w a w') (hop : op.observes) :
    ∃ r, Runs (NetworkOp.Step reports) (f r) w a w' := by
  obtain ⟨r, t, hs, hr⟩ := Prog.runs_perform.mp h
  cases hs <;> first | exact ⟨_, hr⟩ | exact hop.elim

theorem runs_snapshotDns {luid : Luid} {f : Except OsError DnsSnapshot → Net α}
    (h : Runs (NetworkOp.Step reports) (Net.snapshotDns luid >>= f) w a w') :
    Runs (NetworkOp.Step reports) (f (.ok ⟨w.os.dns luid⟩)) w a w' ∨
      ∃ e, Runs (NetworkOp.Step reports) (f (.error e)) w a w' := by
  obtain ⟨r, t, hs, hr⟩ := Prog.runs_perform.mp h
  cases hs with
  | snapshotDns => exact .inl hr
  | snapshotDnsFails => exact .inr ⟨_, hr⟩

theorem runs_interfaceSettings {luid : Luid} {f : Except OsError InterfaceSettings → Net α}
    (h : Runs (NetworkOp.Step reports) (Net.interfaceSettings luid >>= f) w a w') :
    (∃ v, w.os.settings luid = some v ∧ Runs (NetworkOp.Step reports) (f (.ok v)) w a w') ∨
      ∃ e, Runs (NetworkOp.Step reports) (f (.error e)) w a w' := by
  obtain ⟨r, t, hs, hr⟩ := Prog.runs_perform.mp h
  cases hs with
  | interfaceSettings hv => exact .inl ⟨_, hv, hr⟩
  | interfaceSettingsFails => exact .inr ⟨_, hr⟩

theorem runs_createRoute {r : RouteSpec} {f : Except OsError AddOutcome → Net α}
    (h : Runs (NetworkOp.Step reports) (Net.createRoute r >>= f) w a w') :
    (r ∉ w.os.routes ∧ Runs (NetworkOp.Step reports) (f (.ok .Created)) (w.create r) a w') ∨
      (r ∈ w.os.routes ∧ Runs (NetworkOp.Step reports) (f (.ok .Preexisting)) w.attempt a w') ∨
      ∃ e, Runs (NetworkOp.Step reports) (f (.error e)) w.attempt a w' := by
  obtain ⟨r, t, hs, hr⟩ := Prog.runs_perform.mp h
  cases hs with
  | created hn => exact .inl ⟨hn, hr⟩
  | preexisting hm => exact .inr (.inl ⟨hm, hr⟩)
  | createFails => exact .inr (.inr ⟨_, hr⟩)

theorem runs_deleteRoute {r : RouteSpec} {f : Except OsError Unit → Net α}
    (h : Runs (NetworkOp.Step reports) (Net.deleteRoute r >>= f) w a w') :
    Runs (NetworkOp.Step reports) (f (.ok ())) (w.delete r) a w' ∨
      ∃ e, Runs (NetworkOp.Step reports) (f (.error e)) w.attempt a w' := by
  obtain ⟨r, t, hs, hr⟩ := Prog.runs_perform.mp h
  cases hs with
  | deleted => exact .inl hr
  | deleteFails => exact .inr ⟨_, hr⟩

theorem runs_applyInterfacePatch {luid : Luid} {patch : InterfacePatch}
    {f : Except OsError Unit → Net α} (hne : patch.isEmpty = false)
    (h : Runs (NetworkOp.Step reports) (Net.applyInterfacePatch luid patch >>= f) w a w') :
    (∃ v, w.os.settings luid = some v ∧
      Runs (NetworkOp.Step reports) (f (.ok ())) (w.setFlags luid (patch.apply v)) a w') ∨
      ∃ e, (isMissingInterfaceError e = true → w.os.settings luid = none) ∧
        Runs (NetworkOp.Step reports) (f (.error e)) w.attempt a w' := by
  obtain ⟨r, t, hs, hr⟩ := Prog.runs_perform.mp h
  cases hs with
  | patchedNothing he =>
    rw [hne] at he
    cases he
  | patched hv => exact .inl ⟨_, hv, hr⟩
  | patchFails hm => exact .inr ⟨_, hm, hr⟩

theorem runs_setDns {luid : Luid} {v : Option Str} {f : Except OsError Unit → Net α}
    (h : Runs (NetworkOp.Step reports) (Net.setDns luid v >>= f) w a w') :
    Runs (NetworkOp.Step reports) (f (.ok ())) (w.setDns luid v) a w' ∨
      ∃ e, Runs (NetworkOp.Step reports) (f (.error e)) w.attempt a w' := by
  obtain ⟨r, t, hs, hr⟩ := Prog.runs_perform.mp h
  cases hs with
  | dnsSet => exact .inl hr
  | dnsFails => exact .inr ⟨_, hr⟩

end Runs

/-! ## 7. A network that answers -/

/-- An executable network: what the lookups return, the rows `physical_routes` may report, and
    the calls that fail. -/
structure Network where
  luid : Luid
  best : Luid × RouteAddress
  rows : List (RouteSpec × Nat)
  wsl : List InterfaceTarget
  fails : NetworkOp → Bool

namespace Network

/-- Access denied. -/
def denied : OsError := ⟨some 5, "Access is denied."⟩

def missing : OsError := ⟨some ERROR_NOT_FOUND, "Element not found."⟩

/-- The rows of the table among those that may be reported. -/
def reported (net : Network) (os : Os) : List (RouteSpec × Nat) :=
  net.rows.filter fun row => decide (row.1 ∈ os.routes)

def answer (net : Network) (w : World) : (op : NetworkOp) → op.Result × World
  | .interfaceLuid _ => (.ok net.luid, w)
  | .bestRoute _ => (.ok net.best, w)
  | .wslHnsInterfaces => (.ok net.wsl, w)
  | .physicalRoutes =>
    if net.fails .physicalRoutes then (.error denied, w) else (.ok (net.reported w.os), w)
  | .interfaceSettings luid =>
    match w.os.settings luid with
    | some v => (.ok v, w)
    | none => (.error missing, w)
  | .snapshotDns luid => (.ok ⟨w.os.dns luid⟩, w)
  | .createRoute r =>
    if net.fails (.createRoute r) then (.error denied, w.attempt)
    else if r ∈ w.os.routes then (.ok .Preexisting, w.attempt)
    else (.ok .Created, w.create r)
  | .deleteRoute r =>
    if net.fails (.deleteRoute r) then (.error denied, w.attempt) else (.ok (), w.delete r)
  | .applyInterfacePatch luid patch =>
    if net.fails (.applyInterfacePatch luid patch) then (.error denied, w.attempt)
    else
      match w.os.settings luid with
      | some v => (.ok (), w.setFlags luid (patch.apply v))
      | none => (.error missing, w.attempt)
  | .setDns luid v =>
    if net.fails (.setDns luid v) then (.error denied, w.attempt) else (.ok (), w.setDns luid v)

/-- The program on this network. -/
def run {α : Type} (net : Network) : Net α → World → α × World
  | .pure a, w => (a, w)
  | .call op k, w => net.run (k (net.answer w op).1) (net.answer w op).2

theorem answer_step {net : Network} {reports : Os → List (RouteSpec × Nat) → Prop}
    (hrows : ∀ os, reports os (net.reported os)) (w : World) (op : NetworkOp) :
    NetworkOp.Step reports w op (net.answer w op).1 (net.answer w op).2 := by
  cases op with
  | interfaceLuid ifAlias => exact .interfaceLuid w ifAlias _
  | bestRoute destination => exact .bestRoute w destination _
  | wslHnsInterfaces => exact .wslHnsInterfaces w _
  | physicalRoutes =>
    dsimp only [answer]
    split
    · exact .physicalRoutesFails w _
    · exact .physicalRoutes (hrows w.os)
  | interfaceSettings luid =>
    dsimp only [answer]
    split
    · exact .interfaceSettings ‹_›
    · exact .interfaceSettingsFails fun _ => ‹_›
  | snapshotDns luid => exact .snapshotDns w luid
  | createRoute r =>
    dsimp only [answer]
    split
    · exact .createFails w r _
    · split
      · exact .preexisting ‹_›
      · exact .created ‹_›
  | deleteRoute r =>
    dsimp only [answer]
    split
    · exact .deleteFails w r _
    · exact .deleted w r
  | applyInterfacePatch luid patch =>
    dsimp only [answer]
    split
    · exact .patchFails (fun h => by cases h)
    · split
      · exact .patched ‹_›
      · exact .patchFails fun _ => ‹_›
  | setDns luid v =>
    dsimp only [answer]
    split
    · exact .dnsFails w luid v _
    · exact .dnsSet w luid v

/-- **What the network does is one of the runs.** -/
theorem run_runs {α : Type} {net : Network} {reports : Os → List (RouteSpec × Nat) → Prop}
    (hrows : ∀ os, reports os (net.reported os)) (p : Net α) (w : World) :
    Prog.Runs (NetworkOp.Step reports) p w (net.run p w).1 (net.run p w).2 := by
  induction p generalizing w with
  | pure a => exact .pure a w
  | call op k ih => exact .call (net.answer_step hrows w op) (ih _ _)

end Network

end Windows

end Tun2Proxy
