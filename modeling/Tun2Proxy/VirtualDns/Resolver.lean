/-
  File:      Tun2Proxy/VirtualDns/Resolver.lean
  Subject:   The fake-IP resolver (src/virtual_dns.rs): its state and every operation on it.

  `VirtualDns` holds the two maps of the table (address to name, in order of use, and name to
  address), the pool, the allocation cursor and the journal. The operations run in a `World`, the
  resolver together with the disk its journal lives on; a failed operation keeps what it changed
  before the failure, as `&mut self` does.

  The allocation loop has no bound in the source. Here it takes one (`fuel`), and a call that
  does not end within it has no result; that every call ends is a theorem about reachable
  states, not part of the definition.
-/
import Tun2Proxy.Lib.LruCache
import Tun2Proxy.Net.SocketAddr
import Tun2Proxy.VirtualDns.Persistence

namespace Tun2Proxy

open Lines

structure VirtualDns where
  trailingDot : Bool
  lruCache : LruCache IpAddr Str
  nameToIp : AList (fun _ : Str => IpAddr)
  networkAddr : IpAddr
  broadcastAddr : IpAddr
  nextAddr : IpAddr
  persistence : Option PersistentCache

/-- The resolver and the disk its journal lives on. -/
structure World where
  dns : VirtualDns
  disk : Disk

/-- A fallible method with `&mut self`. -/
abbrev Method := EStateM Error World

namespace VirtualDns

/-! ## 1. The table -/

def new (ipPool : IpCidr) : VirtualDns where
  trailingDot := false
  nextAddr := ipPool.firstAddress
  nameToIp := ∅
  networkAddr := ipPool.firstAddress
  broadcastAddr := ipPool.lastAddress
  lruCache := .empty
  persistence := none

def clearMappings (self : VirtualDns) : VirtualDns :=
  { self with lruCache := .empty, nameToIp := ∅, nextAddr := self.networkAddr }

def canonicalName (self : VirtualDns) (name : Str) : Str :=
  Str.toAsciiLowercase
    (if name.endsWith '.' && !self.trailingDot then name.trimEndMatches '.' else name)

/-- `VirtualDns::address_in_pool`, also `contains_address`. -/
def addressInPool (self : VirtualDns) (ip : IpAddr) : Bool :=
  Tun2Proxy.addressInPool ip self.networkAddr self.broadcastAddr

/-- The first eviction of `restore_mapping`: the name leaves its old address. -/
def removeName (self : VirtualDns) (name : Str) : VirtualDns :=
  match self.nameToIp.lookup name with
  | some oldIp =>
    { self with
      nameToIp := self.nameToIp.erase name
      lruCache := (self.lruCache.remove oldIp).2 }
  | none => self

/-- The second eviction of `restore_mapping`: the address leaves its old name. -/
def removeIp (self : VirtualDns) (ip : IpAddr) : VirtualDns :=
  match self.lruCache.remove ip with
  | (some oldName, lruCache) =>
    { self with
      lruCache
      nameToIp := self.nameToIp.erase oldName }
  | (none, lruCache) => { self with lruCache }

/-- Binding `ip` to `name` in both maps. -/
def bindMapping (self : VirtualDns) (ip : IpAddr) (name : Str) : VirtualDns :=
  { self with
    lruCache := self.lruCache.insert ip name
    nameToIp := self.nameToIp.insert name ip }

/-- `restore_mapping`: whether the mapping was taken, and the table after it. -/
def restoreMapping (self : VirtualDns) (ip : IpAddr) (name : Str) : Bool × VirtualDns :=
  let name := self.canonicalName name
  if name.isEmpty || decide (253 < name.len) || !self.addressInPool ip then (false, self)
  else (true, ((self.removeName name).removeIp ip).bindMapping ip name)

/-- The restore loop of `enable_persistence`, with `repair_needed`. -/
def restoreMappings : VirtualDns → List (IpAddr × Str) → Bool → VirtualDns × Bool
  | self, [], repairNeeded => (self, repairNeeded)
  | self, (ip, name) :: mappings, repairNeeded =>
    match self.restoreMapping ip name with
    | (true, self) => restoreMappings self mappings repairNeeded
    | (false, self) => restoreMappings self mappings true

def touchIp (self : VirtualDns) (addr : IpAddr) : VirtualDns :=
  { self with lruCache := self.lruCache.touch addr }

def resolveIp (self : VirtualDns) (addr : IpAddr) : Option Str × VirtualDns :=
  let (name, lruCache) := self.lruCache.get addr
  (name, { self with lruCache })

end VirtualDns

namespace World

/-! ## 2. The journal of a resolver -/

section Codec

variable (codec : RecordCodec)

def rewritePersistence : Method Unit := fun w =>
  match w.dns.persistence with
  | none => .ok () w
  | some persistence =>
    match persistence.rewrite codec w.dns.networkAddr w.dns.broadcastAddr w.dns.nextAddr
        w.dns.lruCache.iter w.disk with
    | .ok persistence disk => .ok () ⟨{ w.dns with persistence := some persistence }, disk⟩
    | .error e disk => .error e { w with disk }

/-- The `result` of `persist_mapping`: a rewrite, or an append that may call for one. -/
def tryPersistMapping (persistence : PersistentCache) (ip : IpAddr) (name : Str) : Method Unit :=
  fun w =>
    match persistence.needsRewrite w.disk with
    | .ok true disk => rewritePersistence codec { w with disk }
    | .ok false disk =>
      match persistence.appendMapping codec ip name disk with
      | .ok persistence disk =>
        let w : World := ⟨{ w.dns with persistence := some persistence }, disk⟩
        if persistence.shouldCompact codec w.dns.lruCache.len then rewritePersistence codec w
        else .ok () w
      | .error e disk => .error e { w with disk }
    | .error e disk => .error e { w with disk }

def markDirty (w : World) : World :=
  { w with dns := { w.dns with persistence := w.dns.persistence.map (·.markDirty) } }

/-- A rewrite whose error is only logged. -/
def rewriteOrWarn (w : World) : World :=
  match rewritePersistence codec w with
  | .ok _ w => w
  | .error _ w => w

def persistMapping (ip : IpAddr) (name : Str) (w : World) : World :=
  match w.dns.persistence with
  | none => w
  | some persistence =>
    match tryPersistMapping codec persistence ip name w with
    | .ok _ w => w
    | .error _ w =>
      -- repaired at once, while the new mapping is still in memory
      w.markDirty.rewriteOrWarn codec

def retryDirtyPersistence (w : World) : World :=
  match w.dns.persistence with
  | some persistence => if persistence.dirty then w.rewriteOrWarn codec else w
  | none => w

/-- The end of every branch of `enable_persistence` that rewrites the file. -/
def rewriteAndCount : Method Nat := do
  rewritePersistence codec
  let w ← get
  pure w.dns.lruCache.len

def enablePersistence (path : Str) : Method Nat := fun w =>
  let dns := w.dns
  match (PersistentCache.new path).load codec dns.networkAddr dns.broadcastAddr w.disk with
  | .error e disk => .error e { w with disk }
  | .ok (.missing, persistence) disk =>
    -- the first persistent generation starts in the upper half of the pool
    let nextAddr :=
      if dns.lruCache.isEmpty then upperHalfStart dns.networkAddr dns.broadcastAddr
      else dns.nextAddr
    rewriteAndCount codec ⟨{ dns with nextAddr, persistence := some persistence }, disk⟩
  | .ok (.incompatible, persistence) disk =>
    let nextAddr := upperHalfStart dns.networkAddr dns.broadcastAddr
    rewriteAndCount codec
      ⟨{ dns.clearMappings with nextAddr, persistence := some persistence }, disk⟩
  | .ok (.loaded allocationCursor mappings repairNeeded, persistence) disk =>
    let (dns, repairNeeded) :=
      { dns.clearMappings with nextAddr := allocationCursor }.restoreMappings mappings
        repairNeeded
    let w : World := ⟨{ dns with persistence := some persistence }, disk⟩
    if repairNeeded then rewriteAndCount codec w else .ok dns.lruCache.len w

/-! ## 3. Allocation -/

def bindMapping (ip : IpAddr) (name : Str) (w : World) : World :=
  { w with dns := w.dns.bindMapping ip name }

/-- The recycling branch of the loop, taken when the scan came back to its start. -/
def recycle (insertName : Str) (w : World) : EStateM.Result Error World IpAddr :=
  match w.dns.lruCache.removeLru with
  | none => .error (.string "Virtual IP space for DNS exhausted") w
  | some ((ip, oldName), lruCache) =>
    let w := { w with dns := { w.dns with
      lruCache
      nameToIp := w.dns.nameToIp.erase oldName } }
    .ok ip ((w.bindMapping ip insertName).persistMapping codec ip insertName)

/-- The loop of `find_or_allocate_ip`; `none` when it does not end within the bound. -/
def allocateLoop (insertName : Str) (startedAt : IpAddr) :
    Nat → World → Option (EStateM.Result Error World IpAddr)
  | 0, _ => none
  | fuel + 1, w =>
    match w.dns.lruCache.peek w.dns.nextAddr with
    | none =>
      let ip := w.dns.nextAddr
      some (.ok ip ((w.bindMapping ip insertName).persistMapping codec ip insertName))
    | some _ =>
      match advance w.dns.networkAddr w.dns.broadcastAddr w.dns.nextAddr with
      | .error e => some (.error e w)
      | .ok nextAddr =>
        let w := { w with dns := { w.dns with nextAddr } }
        if nextAddr = startedAt then some (recycle codec insertName w)
        else allocateLoop insertName startedAt fuel w

def findOrAllocateIp (fuel : Nat) (name : Str) (w : World) :
    Option (EStateM.Result Error World IpAddr) :=
  let insertName := w.dns.canonicalName name
  match w.dns.nameToIp.lookup insertName with
  | some ip => some (.ok ip ({ w with dns := w.dns.touchIp ip }.retryDirtyPersistence codec))
  | none => allocateLoop codec insertName w.dns.nextAddr fuel w

end Codec

end World

/-- `resolve_virtual_domain` (src/lib.rs) on a resolver that is there: the name of a mapped
    address, no name outside the pool, an error for a stale pool address. -/
def resolveVirtualDomain (dns : VirtualDns) (destination : IpAddr) :
    Except Error (Option Str) × VirtualDns :=
  let dns := dns.touchIp destination
  match dns.resolveIp destination with
  | (some domain, dns) => (.ok (some domain), dns)
  | (none, dns) =>
    let text := String.ofList destination.display
    if dns.addressInPool destination then
      (.error (.io .notFound
        s!"stale virtual DNS address {text}; reconnect after refreshing DNS"), dns)
    else (.ok none, dns)

end Tun2Proxy
