/-
  File:      Tun2Proxy/Windows/Transaction.lean
  Subject:   The transactional network setup of a Windows TUN session
             (src/windows_network_config.rs): installing, reconciling, updating and removing.

  Every function is a program over the network operations (`Net`) that returns its result together
  with the record it leaves, since a failed call keeps what was recorded before it. Errors are
  kept as data: which step failed, and the error of the system. The snapshots of the interfaces
  are a field of the record; their lock is never contended inside one function.
-/
import Tun2Proxy.Windows.Network

namespace Tun2Proxy.Windows

/-! ## 1. Records -/

structure InstallRecord where
  tunLuid : Luid
  dnsBefore : DnsSnapshot
  dnsChanged : Bool
  ownedRoutes : List RouteSpec
  desiredBypasses : List RouteSpec
  interfaceSnapshots : List InterfaceSnapshot
  removed : Bool
  deriving DecidableEq, Repr

/-- A provisional update. -/
structure PreparedBypasses where
  added : List RouteSpec := []
  desired : List RouteSpec := []
  deriving DecidableEq, Repr

/-- The arguments of the setup that are read. -/
structure TproxyArgs where
  tunName : Str
  tunGateway : IpAddr
  proxyIp : IpAddr
  bypassIps : List IpCidr
  ipv4DefaultRoute : Bool

def CAPTURE_ROUTE_METRIC : Nat := 6

def BYPASS_ROUTE_METRIC : Nat := 1

/-! ## 2. Interface settings -/

inductive ReconcileError where
  | list (e : OsError)
  | read (target : InterfaceTarget) (e : OsError)
  | enable (target : InterfaceTarget) (e : OsError)
  deriving DecidableEq, Repr

/-- The snapshot of an interface that has none yet. -/
def addSnapshot (target : InterfaceTarget) (current : InterfaceSettings)
    (snapshots : List InterfaceSnapshot) : List InterfaceSnapshot :=
  if snapshots.any (·.target.luid == target.luid) then snapshots
  else snapshots ++ [⟨target, current, .empty⟩]

/-- Records that the flags of the patch are about to change, in the snapshot of the interface. -/
def recordPatch (luid : Luid) (patch : InterfacePatch) :
    List InterfaceSnapshot → List InterfaceSnapshot
  | [] => []
  | snapshot :: snapshots =>
    if snapshot.target.luid = luid then
      { snapshot with restore := snapshot.restore.mergeOwned patch snapshot.before } :: snapshots
    else snapshot :: recordPatch luid patch snapshots

/-- The loop over the targets; `unique` holds the interfaces already done. -/
def reconcileTargets : List InterfaceTarget → List Luid → List InterfaceSnapshot →
    Net (Except ReconcileError Unit × List InterfaceSnapshot)
  | [], _, snapshots => pure (.ok (), snapshots)
  | target :: targets, unique, snapshots =>
    if unique.contains target.luid then reconcileTargets targets unique snapshots
    else do
      match ← Net.interfaceSettings target.luid with
      | .error e =>
        if isMissingInterfaceError e && target.role == .WslHns then
          reconcileTargets targets (target.luid :: unique) snapshots
        else pure (.error (.read target e), snapshots)
      | .ok current =>
        let required := requiredInterfacePatch target.role current
        let snapshots := addSnapshot target current snapshots
        if required.isEmpty then
          reconcileTargets targets (target.luid :: unique) snapshots
        else do
          let snapshots := recordPatch target.luid required snapshots
          match ← Net.applyInterfacePatch target.luid required with
          | .error e => pure (.error (.enable target e), snapshots)
          | .ok () => reconcileTargets targets (target.luid :: unique) snapshots

def reconcileInterfaceSettings (tunTarget : InterfaceTarget)
    (snapshots : List InterfaceSnapshot) :
    Net (Except ReconcileError Unit × List InterfaceSnapshot) := do
  match ← Net.wslHnsInterfaces with
  | .error e => pure (.error (.list e), snapshots)
  | .ok targets => reconcileTargets (tunTarget :: targets) [] snapshots

/-! ## 3. Removal -/

/-- What could not be undone, in the order it was tried. -/
inductive Failure where
  | route (route : RouteSpec) (e : OsError)
  | dns (e : OsError)
  | interface (target : InterfaceTarget) (e : OsError)
  deriving DecidableEq, Repr

/-- The failure's text starts with `restore TUN DNS:`. -/
def Failure.isDns : Failure → Bool
  | .dns _ => true
  | _ => false

/-- Deletes rows one after the other; gives those that could not be deleted. -/
def deleteRoutes : List RouteSpec → Net (List (RouteSpec × OsError))
  | [] => pure []
  | route :: routes => do
      match ← Net.deleteRoute route with
      | .error e => do
          let failed ← deleteRoutes routes
          pure ((route, e) :: failed)
      | .ok () => deleteRoutes routes

/-- Restores interfaces one after the other; gives those that could not be restored. -/
def restoreInterfaces : List InterfaceSnapshot → Net (List (InterfaceSnapshot × OsError))
  | [] => pure []
  | snapshot :: snapshots =>
    if snapshot.restore.isEmpty then restoreInterfaces snapshots
    else do
      match ← Net.applyInterfacePatch snapshot.target.luid snapshot.restore with
      | .ok () => restoreInterfaces snapshots
      | .error e =>
        if isMissingInterfaceError e && snapshot.target.role == .WslHns then
          restoreInterfaces snapshots
        else do
          let failed ← restoreInterfaces snapshots
          pure ((snapshot, e) :: failed)

/-- Restores the DNS servers, if they were changed; gives the failures so far. -/
def restoreDns (record : InstallRecord) (failures : List Failure) :
    Net (List Failure × InstallRecord) :=
  if record.dnsChanged then do
    let failures ← match ← Net.setDns record.tunLuid record.dnsBefore.nameServers with
      | .error e => pure (failures ++ [.dns e])
      | .ok () => pure failures
    if failures.getLast?.any Failure.isDns then pure (failures, record)
    else pure (failures, { record with dnsChanged := false })
  else pure (failures, record)

def cleanupTransaction (record : InstallRecord) :
    Net (Except (List Failure) Unit × InstallRecord) :=
  if record.removed then pure (.ok (), record)
  else do
    let failedRoutes ← deleteRoutes record.ownedRoutes.reverse
    let record := { record with ownedRoutes := (failedRoutes.map Prod.fst).reverse }
    let (failures, record) ← restoreDns record (failedRoutes.map fun f => Failure.route f.1 f.2)
    let failedSnapshots ← restoreInterfaces record.interfaceSnapshots.reverse
    let record := { record with interfaceSnapshots := (failedSnapshots.map Prod.fst).reverse }
    let failures := failures ++ failedSnapshots.map fun f => Failure.interface f.1.target f.2
    if failures.isEmpty then pure (.ok (), { record with removed := true })
    else pure (.error failures, { record with removed := false })

theorem restoreDns_onlyCalls {ok : NetworkOp → Prop} (h : ∀ luid servers, ok (.setDns luid servers))
    (record : InstallRecord) (failures : List Failure) :
    Prog.OnlyCalls ok (restoreDns record failures) := by
  unfold restoreDns
  split
  · refine .perform (h _ _) fun set => ?_
    cases set with
    | error | ok =>
      refine .bind (.pure _) fun failures => ?_
      dsimp only
      split <;> exact .pure _
  · exact .pure _

/-! ## 4. Installation -/

inductive SetupError where
  | resolveTun (e : OsError)
  | snapshotDns (e : OsError)
  | tooBroad (cidr : IpCidr)
  | bestRoute (cidr : IpCidr) (e : OsError)
  | resolvesToTun (cidr : IpCidr)
  | gateway (ip : IpAddr)
  | interfaces (e : ReconcileError)
  | createRoute (route : RouteSpec) (e : OsError)
  | setDns (e : OsError)

/-- The error of a failed setup: nothing was changed yet, or the changes were rolled back, or two
    rollbacks left something behind. -/
inductive SetupFailure where
  | planning (e : SetupError)
  | rolledBack (e : SetupError)
  | rollbackFailed (e : SetupError) (first second : List Failure)

def rollbackAfterSetupFailure (record : InstallRecord) (e : SetupError) :
    Net (SetupFailure × InstallRecord) := do
  let (first, record) ← cleanupTransaction record
  match first with
  | .ok () => pure (.rolledBack e, record)
  | .error first => do
      let (second, record) ← cleanupTransaction record
      match second with
      | .ok () => pure (.rolledBack e, record)
      | .error second => pure (.rollbackFailed e first second, record)

/-- The address whose best route a bypass takes. -/
def probeAddress (destination : IpAddr) : IpAddr :=
  if destination.toNat = 0 then
    match destination with
    | .v4 _ => .v4 0x01010101#32
    | .v6 _ => .v6 0x26064700470000000000000000001111#128
  else destination

/-- The loop over the bypasses: the rows to create. -/
def planBypasses (tunLuid : Luid) : List IpCidr → List (IpAddr × Nat) →
    Net (Except SetupError (List RouteSpec))
  | [], _ => pure (.ok [])
  | cidr :: cidrs, unique =>
    if unique.contains cidr.key then planBypasses tunLuid cidrs unique
    else if cidr.firstAddress.isIpv4 && cidr.networkLength ≤ 1 then
      pure (.error (.tooBroad cidr))
    else do
      match ← Net.bestRoute (probeAddress cidr.firstAddress) with
      | .error e => pure (.error (.bestRoute cidr e))
      | .ok (physicalLuid, nextHop) =>
        if physicalLuid = tunLuid then pure (.error (.resolvesToTun cidr))
        else do
          let route : RouteSpec :=
            ⟨cidr.firstAddress, cidr.networkLength, nextHop, physicalLuid, BYPASS_ROUTE_METRIC⟩
          match ← planBypasses tunLuid cidrs (cidr.key :: unique) with
          | .error e => pure (.error e)
          | .ok planned => pure (.ok (route :: planned))

/-- The default route and its two halves, through the TUN. -/
def captureRoutes (tunLuid : Luid) (gateway : IpAddr) : List RouteSpec :=
  [⟨.v4 0#32, 0, .new gateway, tunLuid, CAPTURE_ROUTE_METRIC⟩,
    ⟨.v4 0#32, 1, .new gateway, tunLuid, CAPTURE_ROUTE_METRIC⟩,
    ⟨.v4 0x80000000#32, 1, .new gateway, tunLuid, CAPTURE_ROUTE_METRIC⟩]

/-- Creates the planned rows; gives those the session owns, and the error that ended the loop. -/
def createPlanned : List RouteSpec → List RouteSpec →
    Net (Option (RouteSpec × OsError) × List RouteSpec)
  | [], owned => pure (none, owned)
  | route :: planned, owned => do
      match ← Net.createRoute route with
      | .error e => pure (some (route, e), owned)
      | .ok .Created => createPlanned planned (owned ++ [route])
      | .ok .Preexisting => createPlanned planned owned

section Install

-- `tproxy_config::is_private_ip`
variable (isPrivateIp : IpAddr → Bool)

def TproxyArgs.bypassCidrs (args : TproxyArgs) : List IpCidr :=
  if !isPrivateIp args.proxyIp && !args.bypassIps.any (·.contains args.proxyIp) then
    args.bypassIps ++ [.newHost args.proxyIp]
  else args.bypassIps

def TproxyArgs.tunTarget (args : TproxyArgs) (tunLuid : Luid) : InterfaceTarget :=
  ⟨tunLuid, args.tunName, .Tun⟩

/-- Everything that is looked up before the first change: the rows to create, and the record. -/
def planTransaction (args : TproxyArgs) :
    Net (Except SetupError (List RouteSpec × InstallRecord)) := do
  match ← Net.interfaceLuid args.tunName with
  | .error e => pure (.error (.resolveTun e))
  | .ok tunLuid => do
      match ← Net.snapshotDns tunLuid with
      | .error e => pure (.error (.snapshotDns e))
      | .ok dnsBefore => do
          match ← planBypasses tunLuid (args.bypassCidrs isPrivateIp) [] with
          | .error e => pure (.error e)
          | .ok bypasses =>
            if args.ipv4DefaultRoute && !args.tunGateway.isIpv4 then
              pure (.error (.gateway args.tunGateway))
            else
              let planned := if args.ipv4DefaultRoute then
                bypasses ++ captureRoutes tunLuid args.tunGateway else bypasses
              pure (.ok (planned,
                { tunLuid, dnsBefore, dnsChanged := false, ownedRoutes := [],
                  desiredBypasses := planned.filter (·.interfaceLuid != tunLuid),
                  interfaceSnapshots := [], removed := false }))

/-- The interfaces are set up when the session takes the default route. -/
def setupInterfaces (args : TproxyArgs) (record : InstallRecord) :
    Net (Except ReconcileError Unit × List InterfaceSnapshot) :=
  if args.ipv4DefaultRoute then
    reconcileInterfaceSettings (args.tunTarget record.tunLuid) record.interfaceSnapshots
  else pure (.ok (), record.interfaceSnapshots)

/-- The changes of the setup; the record says what has been changed when one fails. -/
def applyTransaction (args : TproxyArgs) (planned : List RouteSpec) (record : InstallRecord) :
    Net (Except SetupError Unit × InstallRecord) := do
  let (reconciled, snapshots) ← setupInterfaces args record
  let record := { record with interfaceSnapshots := snapshots }
  match reconciled with
  | .error e => pure (.error (.interfaces e), record)
  | .ok () => do
      let (failed, owned) ← createPlanned planned record.ownedRoutes
      let record := { record with ownedRoutes := owned }
      match failed with
      | some (route, e) => pure (.error (.createRoute route e), record)
      | none => do
          let record := { record with dnsChanged := true }
          match ← Net.setDns record.tunLuid (some args.tunGateway.display) with
          | .error e => pure (.error (.setDns e), record)
          | .ok () => pure (.ok (), record)

def installTransaction (args : TproxyArgs) : Net (Except SetupFailure InstallRecord) := do
  match ← planTransaction isPrivateIp args with
  | .error e => pure (.error (.planning e))
  | .ok (planned, record) => do
      let (result, record) ← applyTransaction args planned record
      match result with
      | .ok () => pure (.ok record)
      | .error e => do
          let (failure, _) ← rollbackAfterSetupFailure record e
          pure (.error failure)

end Install

/-! ## 5. Bypass routes -/

/-- The inner loop of `reconcile_bypass_routes`: deletes the session's other rows for the same
    destination. -/
def retireRoutes (tunLuid : Luid) (desired : RouteSpec) :
    List RouteSpec → Net (Except OsError Unit × List RouteSpec)
  | [] => pure (.ok (), [])
  | old :: owned =>
    if old.interfaceLuid != tunLuid && old.destination == desired.destination &&
        old.prefixLen == desired.prefixLen && old != desired then do
      match ← Net.deleteRoute old with
      | .error e => pure (.error e, old :: owned)
      | .ok () => retireRoutes tunLuid desired owned
    else do
      let (result, owned) ← retireRoutes tunLuid desired owned
      pure (result, old :: owned)

/-- The replacement row is installed unless it is reported; a row that was created is owned. -/
def installReplacement (routes : List (RouteSpec × Nat)) (new : RouteSpec)
    (owned : List RouteSpec) : Net (Except OsError (List RouteSpec)) :=
  if (routes.map (·.1)).contains new then pure (.ok owned)
  else do
    match ← Net.createRoute new with
    | .error e => pure (.error e)
    | .ok outcome =>
      if outcome = .Created && !owned.contains new then pure (.ok (owned ++ [new]))
      else pure (.ok owned)

/-- The loop of `reconcile_bypass_routes`: the bypasses and the owned rows it leaves. -/
def reconcileDesired (tunLuid : Luid) (routes : List (RouteSpec × Nat)) :
    List RouteSpec → List RouteSpec →
    Net (Except OsError Unit × List RouteSpec × List RouteSpec)
  | [], owned => pure (.ok (), [], owned)
  | desired :: rest, owned =>
    match selectPhysicalRoute routes desired.destination tunLuid owned with
    | none => do
        let (result, rest, owned) ← reconcileDesired tunLuid routes rest owned
        pure (result, desired :: rest, owned)
    | some physical => do
        let new : RouteSpec :=
          { desired with interfaceLuid := physical.interfaceLuid, nextHop := physical.nextHop }
        match ← installReplacement routes new owned with
        | .error e => pure (.error e, desired :: rest, owned)
        | .ok owned => do
            let (retired, owned) ← retireRoutes tunLuid new owned
            match retired with
            | .error e => pure (.error e, new :: rest, owned)
            | .ok () => do
                let (result, rest, owned) ← reconcileDesired tunLuid routes rest owned
                pure (result, new :: rest, owned)

def reconcileBypassRoutes (record : InstallRecord) : Net (Except OsError Unit × InstallRecord) := do
  match ← Net.physicalRoutes with
  | .error e => pure (.error e, record)
  | .ok routes => do
      let (result, desiredBypasses, ownedRoutes) ←
        reconcileDesired record.tunLuid routes record.desiredBypasses record.ownedRoutes
      pure (result, { record with desiredBypasses, ownedRoutes })

inductive UpdateError where
  | removed
  | physicalRoutes (e : OsError)
  | noPhysicalRoute (destination : IpAddr)
  | createRoute (route : RouteSpec) (e : OsError)
  | rollbackPending
  deriving DecidableEq, Repr

def isLoopback : IpAddr → Bool
  | .v4 a => a.toNat / 2 ^ 24 == 127
  | .v6 a => a.toNat == 1

def hostLength : IpAddr → Nat
  | .v4 _ => 32
  | .v6 _ => 128

/-- The rows for the addresses, each once. -/
def planUpstream (tunLuid : Luid) (owned : List RouteSpec) (routes : List (RouteSpec × Nat)) :
    List IpAddr → List RouteSpec → Except UpdateError (List RouteSpec)
  | [], planned => .ok planned
  | destination :: addresses, planned =>
    if isLoopback destination || destination.toNat == 0 then
      planUpstream tunLuid owned routes addresses planned
    else
      match selectPhysicalRoute routes destination tunLuid owned with
      | none => .error (.noPhysicalRoute destination)
      | some physical =>
        let route : RouteSpec :=
          ⟨destination, hostLength destination, physical.nextHop, physical.interfaceLuid,
            BYPASS_ROUTE_METRIC⟩
        planUpstream tunLuid owned routes addresses
          (if planned.contains route then planned else planned ++ [route])

/-- Installs the planned rows into the update, up to the first failure. -/
def installUpstream : List RouteSpec → List RouteSpec → PreparedBypasses →
    Net (Except UpdateError Unit × List RouteSpec × PreparedBypasses)
  | [], owned, update => pure (.ok (), owned, update)
  | route :: planned, owned, update => do
      match ← Net.createRoute route with
      | .error e => pure (.error (.createRoute route e), owned, update)
      | .ok outcome =>
        if outcome = .Created && !owned.contains route then
          installUpstream planned (owned ++ [route])
            ⟨update.added ++ [route], update.desired ++ [route]⟩
        else installUpstream planned owned { update with desired := update.desired ++ [route] }

def addUpstreamBypasses (record : InstallRecord) (addresses : List IpAddr)
    (update : PreparedBypasses) :
    Net (Except UpdateError Unit × InstallRecord × PreparedBypasses) :=
  if record.removed then pure (.error .removed, record, update)
  else do
    match ← Net.physicalRoutes with
    | .error e => pure (.error (.physicalRoutes e), record, update)
    | .ok routes =>
      match planUpstream record.tunLuid record.ownedRoutes routes addresses [] with
      | .error e => pure (.error e, record, update)
      | .ok planned => do
          let (result, ownedRoutes, update) ← installUpstream planned record.ownedRoutes update
          pure (result, { record with ownedRoutes }, update)

/-- Replaces the bypass for the same destination, or appends. -/
def setDesired (route : RouteSpec) : List RouteSpec → List RouteSpec
  | [] => [route]
  | old :: desired =>
    if old.destination = route.destination ∧ old.prefixLen = route.prefixLen then
      route :: desired
    else old :: setDesired route desired

def commitUpstreamBypasses (record : InstallRecord) (update : PreparedBypasses) : InstallRecord :=
  { record with
    desiredBypasses := update.desired.foldl (fun desired route => setDesired route desired)
      record.desiredBypasses }

/-- The rows that could not be deleted stay to be tried again, and stay owned. -/
def rollbackUpstreamBypasses : InstallRecord → List RouteSpec → Net (InstallRecord × List RouteSpec)
  | record, [] => pure (record, [])
  | record, route :: routes => do
      match ← Net.deleteRoute route with
      | .ok () =>
        rollbackUpstreamBypasses
          { record with ownedRoutes := record.ownedRoutes.filter (· != route) } routes
      | .error _ => do
          let (record, routes) ← rollbackUpstreamBypasses record routes
          pure (record, route :: routes)

/-! ## 6. A sample system -/

section Sample

/-- A default route over a physical interface. -/
def sampleDefault (luid : Luid) : RouteSpec := ⟨.v4 0#32, 0, .new (.v4 0xC0A80001#32), luid, 25⟩

/-- The TUN is interface 1, a virtual switch interface 2, and the physical route goes over
    interface 0x77. -/
def sampleOs : Os where
  routes := {sampleDefault 0x77}
  dns := fun _ => none
  settings := fun luid => if luid = 1 ∨ luid = 2 then some ⟨false, false, false⟩ else none

/-- Interfaces 0x88 and 0x99 are preferred as soon as there is a default route over them. -/
def sampleNetwork (fails : NetworkOp → Bool) : Network where
  luid := 1
  best := (0x77, .new (.v4 0xC0A80001#32))
  rows := [(sampleDefault 0x77, 30), (sampleDefault 0x88, 20), (sampleDefault 0x99, 10)]
  wsl := [⟨2, "vEthernet".toList, .WslHns⟩]
  fails := fails

/-- One proxy, no other bypass, and the default route taken. -/
def sampleArgs : TproxyArgs where
  tunName := "tun0".toList
  tunGateway := .v4 0x0A000001#32
  proxyIp := .v4 0xCB007101#32
  bypassIps := []
  ipv4DefaultRoute := true

/-- The bypass of the proxy over an interface. -/
def sampleBypass (luid : Luid) : RouteSpec :=
  ⟨.v4 0xCB007101#32, 32, .new (.v4 0xC0A80001#32), luid, 1⟩

/-- What the setup records. -/
def sampleRecord : InstallRecord where
  tunLuid := 1
  dnsBefore := ⟨none⟩
  dnsChanged := true
  ownedRoutes := sampleBypass 0x77 :: captureRoutes 1 sampleArgs.tunGateway
  desiredBypasses := [sampleBypass 0x77]
  interfaceSnapshots :=
    [⟨sampleArgs.tunTarget 1, ⟨false, false, false⟩, ⟨some false, some false, some false⟩⟩,
      ⟨⟨2, "vEthernet".toList, .WslHns⟩, ⟨false, false, false⟩, ⟨some false, none, none⟩⟩]
  removed := false

end Sample

end Tun2Proxy.Windows
