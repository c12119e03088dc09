/-
  File:      Tun2Proxy/UdpBypass/Pool.lean
  Subject:   Physical UDP sockets for processes that bypass the proxy (src/udp_bypass.rs): the pool,
             its endpoints, their receiver tasks, and the flows.

  An endpoint is one physical socket for one application socket. A flow is one peer of it; the
  endpoint routes what it receives from a peer to the flow registered for the peer.

  The methods of the pool hold its lock, so one of them runs at a time; they are programs over the
  sections in which they hold the lock of an endpoint (`PoolOp`). Each section is atomic. Between
  two of them flows and receiver tasks go on (`Others`).
-/
import Mathlib.Data.List.AList
import Tun2Proxy.Lib.Interaction
import Tun2Proxy.Net.SocketAddr

namespace Tun2Proxy.UdpBypass

/-! ## 1. Endpoints and flows -/

/-- Times are in nanoseconds. -/
def IDLE_TIMEOUT : Nat := 120000000000

def OWNER_FAILURE_GRACE : Nat := 6000000000

def PEER_QUEUE : Nat := 16

structure SocketOwner where
  pid : UInt32
  boundAt : Int64
  deriving DecidableEq

/-- `BindInterface`, as far as an endpoint looks at it. -/
structure BindInterface where
  ipv4Index : UInt32
  ipv6Index : UInt32
  deriving DecidableEq

/-- What of an endpoint does not change. Its number stands for its socket. -/
structure Endpoint where
  id : Nat
  owner : SocketOwner
  interface : BindInterface
  deriving DecidableEq

/-- A datagram, with the socket it was received on and the peer it came from. -/
structure Datagram where
  socket : Nat
  peer : SocketAddr
  bytes : List UInt8
  deriving DecidableEq

/-- Where the task `Endpoint::receive` stands. -/
inductive Receiver where
  | waiting
  -- has a datagram, and does not have the lock yet
  | received (peer : SocketAddr) (bytes : List UInt8)
  -- has left its loop
  | leaving
  | finished
  deriving DecidableEq

structure EndpointState where
  endpoint : Endpoint
  /-- The socket of the application it was created for. -/
  source : SocketAddr
  routes : AList fun _ : SocketAddr => Nat
  lastActivity : Nat
  /-- The token is cancelled. -/
  closed : Bool
  /-- `close` has returned. -/
  retired : Bool
  receiver : Receiver

/-- What `open_with` is called for. -/
structure FlowRequest where
  source : SocketAddr
  peer : SocketAddr
  owner : SocketOwner
  interface : BindInterface
  deriving DecidableEq

structure Flow where
  endpoint : Endpoint
  /-- What it was opened for; its peer is `request.peer`. -/
  request : FlowRequest
  queue : List Datagram
  /-- Taken from the queue by `relay`, which does not have the lock yet. -/
  inHand : Option Datagram
  alive : Bool

/-- A datagram that a flow has sent to its peer, or injected into the stack. -/
structure Passed where
  flow : Nat
  datagram : Datagram

/-- Endpoints and flows are never forgotten here, so that a number is used once. -/
structure World where
  endpoints : List EndpointState
  flows : List Flow
  now : Nat
  /-- What the sockets have received. -/
  received : List Datagram
  sent : List Passed
  injected : List Passed

namespace World

def start : World := ⟨[], [], 0, [], [], []⟩

def modifyEndpoint (w : World) (e : Nat) (f : EndpointState → EndpointState) : World :=
  { w with endpoints := w.endpoints.modify e f }

def modifyFlow (w : World) (i : Nat) (f : Flow → Flow) : World :=
  { w with flows := w.flows.modify i f }

/-- `Endpoint::close`. -/
def close (w : World) (e : Nat) : World :=
  w.modifyEndpoint e fun st => { st with closed := true, routes := ∅, retired := true }

/-- `Endpoint::expired`. -/
def expired (w : World) (e : Nat) : Bool :=
  match w.endpoints[e]? with
  | none => true
  | some st =>
    st.closed || (st.routes.entries.isEmpty && decide (IDLE_TIMEOUT ≤ w.now - st.lastActivity))

/-- The last activity of an endpoint without routes. -/
def idleSince (w : World) (e : Nat) : Option Nat :=
  match w.endpoints[e]? with
  | none => none
  | some st => if st.routes.entries.isEmpty then some st.lastActivity else none

/-- A new endpoint, whose receiver task is spawned. -/
def create (w : World) (source : SocketAddr) (owner : SocketOwner) (interface : BindInterface) :
    Endpoint × World :=
  let endpoint := ⟨w.endpoints.length, owner, interface⟩
  (endpoint, { w with
    endpoints := w.endpoints ++ [⟨endpoint, source, ∅, w.now, false, false, .waiting⟩] })

/-- The last section of `open_with`: the route is registered, unless the endpoint is closed or the
    peer has one. -/
def register (w : World) (endpoint : Endpoint) (request : FlowRequest) :
    Except Error (Option Nat) × World :=
  match w.endpoints[endpoint.id]? with
  | none => (.error (.ofKind .brokenPipe), w)
  | some st =>
    if st.closed then (.error (.ofKind .brokenPipe), w)
    else if (st.routes.lookup request.peer).isSome then (.ok none, w)
    else
      let flow := w.flows.length
      (.ok (some flow), { (w.modifyEndpoint endpoint.id fun st => { st with
          routes := st.routes.insert request.peer flow, lastActivity := w.now }) with
        flows := w.flows ++ [⟨endpoint, request, [], none, true⟩] })

/-- `Flow::drop`. -/
def dropFlow (w : World) (i : Nat) : World :=
  match w.flows[i]? with
  | none => w
  | some flow =>
    (w.modifyEndpoint flow.endpoint.id fun st => { st with
      routes := st.routes.erase flow.request.peer }).modifyFlow i fun flow =>
        { flow with alive := false, queue := [], inHand := none }

end World

/-! ## 2. The methods of the pool -/

abbrev Endpoints := AList fun _ : SocketAddr => Endpoint

/-- The sections of the pool's methods under the lock of an endpoint, the clock, `bind`, and the
    order in which a `HashMap` is walked. -/
inductive PoolOp where
  | now
  | iter (endpoints : Endpoints)
  | expired (e : Nat)
  | close (e : Nat)
  | idleSince (e : Nat)
  | bind (source : SocketAddr) (owner : SocketOwner) (interface : BindInterface)
  | register (endpoint : Endpoint) (request : FlowRequest)

namespace PoolOp

abbrev Result : PoolOp → Type
  | now => Nat
  | iter _ => List (SocketAddr × Endpoint)
  | expired _ => Bool
  | close _ => Unit
  | idleSince _ => Option Nat
  | bind _ _ _ => Except Error Endpoint
  | register _ _ => Except Error (Option Nat)

/-- What an operation may return, and what it leaves. -/
inductive Step : World → (op : PoolOp) → op.Result → World → Prop
  | now {w : World} : Step w now w.now w
  | iter {w : World} {endpoints : Endpoints} {l : List (SocketAddr × Endpoint)}
      (h : l.Perm (endpoints.entries.map fun x => (x.1, x.2))) : Step w (iter endpoints) l w
  | expired {w : World} (e : Nat) : Step w (expired e) (w.expired e) w
  | close {w : World} (e : Nat) : Step w (close e) () (w.close e)
  | idleSince {w : World} (e : Nat) : Step w (idleSince e) (w.idleSince e) w
  | bind {w : World} (source : SocketAddr) (owner : SocketOwner) (interface : BindInterface) :
      Step w (bind source owner interface) (.ok (w.create source owner interface).1)
        (w.create source owner interface).2
  | bindFails {w : World} (source : SocketAddr) (owner : SocketOwner) (interface : BindInterface)
      (error : Error) : Step w (bind source owner interface) (.error error) w
  | register {w : World} (endpoint : Endpoint) (request : FlowRequest) :
      Step w (register endpoint request) (w.register endpoint request).1
        (w.register endpoint request).2

end PoolOp

abbrev Method := Prog PoolOp PoolOp.Result

namespace Method

def now : Method Nat := Prog.perform PoolOp.now

def iter (endpoints : Endpoints) : Method (List (SocketAddr × Endpoint)) :=
  Prog.perform (PoolOp.iter endpoints)

def expired (endpoint : Endpoint) : Method Bool := Prog.perform (PoolOp.expired endpoint.id)

def close (endpoint : Endpoint) : Method Unit := Prog.perform (PoolOp.close endpoint.id)

def idleSince (endpoint : Endpoint) : Method (Option Nat) :=
  Prog.perform (PoolOp.idleSince endpoint.id)

def bindSocket (request : FlowRequest) : Method (Except Error Endpoint) :=
  Prog.perform (PoolOp.bind request.source request.owner request.interface)

def register (endpoint : Endpoint) (request : FlowRequest) : Method (Except Error (Option Nat)) :=
  Prog.perform (PoolOp.register endpoint request)

end Method

/-- `PoolState` and the limit. The set of tasks is left out: `reap` only logs. -/
structure Pool where
  endpoints : Endpoints
  ownerFailureSince : Option Nat
  limit : Nat

def Pool.new (limit : Nat) : Pool := ⟨∅, none, min limit 1024⟩

/-- `Endpoint::uses_interface`. -/
def Endpoint.usesInterface (self : Endpoint) (source : SocketAddr) (interface : BindInterface) :
    Bool :=
  match source with
  | .v6 _ _ _ _ => self.interface.ipv6Index == interface.ipv6Index
  | .v4 _ _ => self.interface.ipv4Index == interface.ipv4Index

def isUnspecified (ip : IpAddr) : Bool := ip.toNat == 0

/-- `HashMap::retain`: the endpoints that are not wanted or have expired are closed. -/
def retainLoop (wanted : SocketAddr → Endpoint → Bool) :
    List (SocketAddr × Endpoint) → Endpoints → Method Endpoints
  | [], endpoints => pure endpoints
  | (source, endpoint) :: rest, endpoints => do
      let expired ← if wanted source endpoint then Method.expired endpoint else pure true
      if expired then do
        Method.close endpoint
        retainLoop wanted rest (endpoints.erase source)
      else retainLoop wanted rest endpoints

def retain (wanted : SocketAddr → Endpoint → Bool) (endpoints : Endpoints) : Method Endpoints := do
  let entries ← Method.iter endpoints
  retainLoop wanted entries endpoints

/-- The first of the endpoints without routes whose last activity is the oldest. -/
def oldestIdle : List (SocketAddr × Endpoint) → Option (SocketAddr × Nat) →
    Method (Option (SocketAddr × Nat))
  | [], oldest => pure oldest
  | (source, endpoint) :: rest, oldest => do
      match ← Method.idleSince endpoint with
      | none => oldestIdle rest oldest
      | some activity =>
        match oldest with
        | none => oldestIdle rest (some (source, activity))
        | some (_, least) =>
          oldestIdle rest (if activity < least then some (source, activity) else oldest)

/-- An endpoint of another owner or on another interface is retired. -/
def retireStale (request : FlowRequest) (endpoints : Endpoints) : Method Endpoints :=
  match endpoints.lookup request.source with
  | none => pure endpoints
  | some endpoint =>
    if endpoint.owner ≠ request.owner ∨
        endpoint.usesInterface request.source request.interface = false then do
      Method.close endpoint
      pure (endpoints.erase request.source)
    else pure endpoints

/-- Room for one more endpoint, if there is some or an idle endpoint can go. -/
def makeRoom (limit : Nat) (endpoints : Endpoints) : Method (Option Endpoints) :=
  if limit ≤ endpoints.entries.length then do
    let entries ← Method.iter endpoints
    match ← oldestIdle entries none with
    | none => pure none
    | some (source, _) =>
      match endpoints.lookup source with
      -- `unwrap`: the source is one of the entries
      | none => pure none
      | some endpoint => do
          Method.close endpoint
          pure (some (endpoints.erase source))
  else pure (some endpoints)

/-- The endpoint of the source, which is created if there is none. A pool that is full has none. -/
def endpointFor (request : FlowRequest) (limit : Nat) (endpoints : Endpoints) :
    Method (Except Error (Option Endpoint) × Endpoints) :=
  match endpoints.lookup request.source with
  | some endpoint => pure (.ok (some endpoint), endpoints)
  | none => do
      match ← makeRoom limit endpoints with
      | none => pure (.ok none, endpoints)
      | some endpoints => do
          match ← Method.bindSocket request with
          | .error e => pure (.error e, endpoints)
          | .ok endpoint => pure (.ok (some endpoint), endpoints.insert request.source endpoint)

/-- `Pool::open_with`: the number of the flow, if there is one. -/
def openWith (request : FlowRequest) (pool : Pool) :
    Method (Except Error (Option Nat) × Pool) :=
  if request.source.ip.isIpv4 ≠ request.peer.ip.isIpv4 ∨ isMulticast request.peer.ip = true ∨
      isUnspecified request.peer.ip = true then
    pure (.error (.ofKind .invalidInput), pool)
  else do
    let endpoints ← retain (fun _ _ => true) pool.endpoints
    let endpoints ← retireStale request endpoints
    let (found, endpoints) ← endpointFor request pool.limit endpoints
    match found with
    | .error e => pure (.error e, { pool with endpoints := endpoints })
    | .ok none => pure (.ok none, { pool with endpoints := endpoints })
    | .ok (some endpoint) => do
        let flow ← Method.register endpoint request
        pure (flow, { pool with endpoints := endpoints })

/-- The owners by socket, where they could be read. -/
abbrev UdpOwners := SocketAddr → Option SocketOwner

/-- `owner_failure_since` after a look at the owners, and whether endpoints may stay without one. -/
def ownershipUnknown (owners : Option UdpOwners) (since : Option Nat) :
    Method (Option Nat × Bool) :=
  match owners with
  | some _ => pure (none, false)
  | none => do
      let since ← match since with
        | none => Method.now
        | some since => pure since
      let now ← Method.now
      pure (some since, decide (now - since < OWNER_FAILURE_GRACE))

/-- `Pool::maintain_with`. -/
def maintainWith (owners : Option UdpOwners) (interface : Option BindInterface) (pool : Pool) :
    Method Pool := do
  let (since, unknown) ← ownershipUnknown owners pool.ownerFailureSince
  let endpoints ← retain (fun source endpoint =>
    (unknown || decide (owners.bind (· source) = some endpoint.owner)) &&
      interface.any fun interface => endpoint.usesInterface source interface) pool.endpoints
  pure { pool with endpoints := endpoints, ownerFailureSince := since }

def closeAll : List (SocketAddr × Endpoint) → Method Unit
  | [] => pure ()
  | (_, endpoint) :: rest => do
      Method.close endpoint
      closeAll rest

/-- `Pool::shutdown`. The tasks it aborts are among the `Others`. -/
def shutdown (pool : Pool) : Method Pool := do
  let entries ← Method.iter pool.endpoints
  closeAll entries
  pure { pool with endpoints := ∅ }

/-! ## 3. Flows and receiver tasks -/

/-- **What happens between two sections of the pool.** -/
inductive Others : World → World → Prop
  | tick {w : World} (d : Nat) : Others w { w with now := w.now + d }
  | dropFlow {w : World} {i : Nat} {flow : Flow} (hflow : w.flows[i]? = some flow)
      (halive : flow.alive = true) : Others w (w.dropFlow i)
  -- `Flow::send`, which has the lock
  | send {w : World} {i : Nat} {flow : Flow} {st : EndpointState} (payload : List UInt8)
      (hflow : w.flows[i]? = some flow) (halive : flow.alive = true)
      (hst : w.endpoints[flow.endpoint.id]? = some st) (hopen : st.closed = false) :
      Others w { (w.modifyEndpoint flow.endpoint.id fun st => { st with
          lastActivity := w.now }) with
        sent := w.sent ++
          [⟨i, ⟨flow.endpoint.id, flow.request.peer, payload⟩⟩] }
  -- `Flow::relay` takes a reply and waits for the lock
  | take {w : World} {i : Nat} {flow : Flow} {datagram : Datagram} {rest : List Datagram}
      (hflow : w.flows[i]? = some flow) (halive : flow.alive = true)
      (hqueue : flow.queue = datagram :: rest) (hfree : flow.inHand = none) :
      Others w (w.modifyFlow i fun flow => { flow with queue := rest, inHand := some datagram })
  -- it has the lock, and the endpoint is open
  | inject {w : World} {i : Nat} {flow : Flow} {datagram : Datagram} {st : EndpointState}
      (hflow : w.flows[i]? = some flow) (halive : flow.alive = true)
      (hhand : flow.inHand = some datagram) (hst : w.endpoints[flow.endpoint.id]? = some st)
      (hopen : st.closed = false) :
      Others w { (w.modifyFlow i fun flow => { flow with inHand := none }) with
        injected := w.injected ++ [⟨i, datagram⟩] }
  -- `Endpoint::receive` gets a datagram and waits for the lock
  | recvFrom {w : World} {e : Nat} {st : EndpointState} (peer : SocketAddr) (bytes : List UInt8)
      (hst : w.endpoints[e]? = some st) (hwaiting : st.receiver = .waiting) :
      Others w { (w.modifyEndpoint e fun st => { st with receiver := .received peer bytes }) with
        received := w.received ++ [⟨e, peer, bytes⟩] }
  | route {w : World} {e i : Nat} {st : EndpointState} {flow : Flow} {peer : SocketAddr}
      {bytes : List UInt8} (hst : w.endpoints[e]? = some st)
      (hreceived : st.receiver = .received peer bytes) (hroute : st.routes.lookup peer = some i)
      (hflow : w.flows[i]? = some flow) (hroom : flow.queue.length < PEER_QUEUE) :
      Others w ((w.modifyEndpoint e fun st => { st with
          receiver := .waiting, lastActivity := w.now }).modifyFlow i fun flow => { flow with
        queue := flow.queue ++ [⟨e, peer, bytes⟩] })
  -- no route, no room in the queue, or none in the budget
  | lose {w : World} {e : Nat} {st : EndpointState} {peer : SocketAddr} {bytes : List UInt8}
      (hst : w.endpoints[e]? = some st) (hreceived : st.receiver = .received peer bytes) :
      Others w (w.modifyEndpoint e fun st => { st with receiver := .waiting })
  -- the token is cancelled, the policy has changed, or the socket fails
  | leave {w : World} {e : Nat} {st : EndpointState} (hst : w.endpoints[e]? = some st)
      (hwaiting : st.receiver = .waiting) :
      Others w (w.modifyEndpoint e fun st => { st with receiver := .leaving })
  | exit {w : World} {e : Nat} {st : EndpointState} (hst : w.endpoints[e]? = some st)
      (hleaving : st.receiver = .leaving) :
      Others w ((w.close e).modifyEndpoint e fun st => { st with receiver := .finished })
  -- the guard of a task that is aborted cancels the token, and nothing else
  | abort {w : World} (e : Nat) :
      Others w (w.modifyEndpoint e fun st => { st with closed := true, receiver := .finished })

/-- The pool while its lock is free, and the flows it has returned, with what each was opened
    for. -/
structure Phase where
  pool : Pool
  opened : List (FlowRequest × Nat)

def Phase.new (limit : Nat) : Phase := ⟨.new limit, []⟩

/-- After a call of `open_with`. -/
def Phase.returned (phase : Phase) (request : FlowRequest) :
    Except Error (Option Nat) × Pool → Phase
  | (.ok (some flow), pool) => ⟨pool, (request, flow) :: phase.opened⟩
  | (_, pool) => ⟨pool, phase.opened⟩

/-- The methods that may be called when the lock is free. -/
inductive Next : Phase → Method Phase → Prop
  | openWith {phase : Phase} (request : FlowRequest) :
      Next phase (openWith request phase.pool >>= fun out => pure (phase.returned request out))
  | maintainWith {phase : Phase} (owners : Option UdpOwners) (interface : Option BindInterface) :
      Next phase (maintainWith owners interface phase.pool >>= fun pool =>
        pure { phase with pool := pool })
  | shutdown {phase : Phase} :
      Next phase (shutdown phase.pool >>= fun pool => pure { phase with pool := pool })

/-- **One move** of the pool, of a flow or of a receiver task. -/
abbrev Move := Prog.Move PoolOp.Step Others Next

end Tun2Proxy.UdpBypass
