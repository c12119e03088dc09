/-
  File:      Tun2Proxy/Udpgw/Server.lean
  Subject:   The udpgw server for one client connection (src/bin/udpgw_server.rs).

  Three kinds of tasks share the state of a connection: the request loop, which handles the
  client's packets in order; one relay task for every UDP session, which receives datagrams and
  queues responses; and the writer, which takes responses off the queue and writes them to the
  client. They meet in two maps, `generations` and `sessions`, in a bounded queue, and in the
  delivery lock, which covers a change of generation and the check and write of a response.

  A task is a program counter (`RequestPc`, `RelayPc`, `WriterPc`), and a step of the system is a
  step of one task up to the next point where another one can run: an await, or the end of a
  critical section of one of the maps. What the network and the clock decide is left open.

  * A session's socket, its stop token and its activity time are named by its generation, which
    no other session has.
  * `NEXT_GENERATION` is a 64-bit counter that no process lives to exhaust; here it is a natural
    number. Other connections count on it too (`otherClient`).
  * `received`, `opened` and `written` are history: no step looks at them.
-/
import Mathlib.Logic.Function.Basic
import Tun2Proxy.Udpgw.Packet

namespace Tun2Proxy.Udpgw

/-! ## 1. The state -/

/-- The capacity of the queue to the writer. -/
def QUEUE_CAPACITY : Nat := 1024

structure OutboundItem where
  packet : Packet
  generation : Option Nat
  deriving DecidableEq

def OutboundItem.connId (item : OutboundItem) : UInt16 := item.packet.header.connId

/-- The item of `send_error_response`. -/
def errorItem (connId : UInt16) (generation : Nat) : OutboundItem :=
  ⟨Packet.buildErrorPacket connId, some generation⟩

/-- The item of `send_keepalive_response`. -/
def keepaliveItem (connId : UInt16) : OutboundItem := ⟨Packet.buildKeepalivePacket connId, none⟩

structure Session where
  dst : SocketAddr
  reqAddr : Address
  generation : Nat
  deriving DecidableEq

/-- A DATA request past its checks: `conn_id` and the address to resolve. -/
structure DataRequest where
  connId : UInt16
  reqAddr : Address
  deriving DecidableEq

/-- What the request loop does once `replace_generation` is through. -/
inductive AfterReplace where
  | respond
  | resolve (reqAddr : Address)
  deriving DecidableEq

/-- Where the request loop stands. -/
inductive RequestPc where
  /-- Waiting for the next packet. -/
  | idle
  /-- `replace_generation`, waiting for the delivery lock. -/
  | replacing (connId : UInt16) (after : AfterReplace)
  /-- `replace_generation` with its new generation, before it changes `generations`. -/
  | inserting (connId : UInt16) (generation : Nat) (after : AfterReplace)
  /-- `replace_generation`, before it changes `sessions`. -/
  | evicting (connId : UInt16) (generation : Nat) (after : AfterReplace)
  /-- `close_session`, waiting for the delivery lock. -/
  | closing (connId : UInt16)
  /-- `close_session`, before it changes `generations`. -/
  | forgetting (connId : UInt16)
  /-- `close_session`, before it changes `sessions`. -/
  | dropping (connId : UInt16)
  /-- `process_udp`, before its look at `sessions`. -/
  | looking (request : DataRequest)
  /-- Sending on the socket of the session that is there. -/
  | reusing (connId : UInt16) (generation : Nat)
  /-- Waiting for the resolver. -/
  | resolving (request : DataRequest) (generation : Nat)
  /-- Resolved, waiting for the delivery lock. -/
  | opening (request : DataRequest) (generation : Nat) (dst : SocketAddr)
  /-- With the delivery lock, before the socket is there. -/
  | binding (request : DataRequest) (generation : Nat) (dst : SocketAddr)
  /-- Sending the first datagram of a new session, with the delivery lock. -/
  | sending (connId : UInt16) (generation : Nat) (dst : SocketAddr)
  /-- The first datagram could not be sent: taking the session out again. -/
  | undoing (connId : UInt16) (generation : Nat)
  /-- Before the relay task is spawned. -/
  | spawning (connId : UInt16) (generation : Nat) (dst : SocketAddr)
  /-- Waiting for room in the queue. -/
  | responding (item : OutboundItem)
  deriving DecidableEq

/-- Where a relay task stands. -/
inductive RelayPc where
  /-- Waiting for a datagram, its stop token, or a second to pass. -/
  | receiving
  /-- A datagram from another source came in. -/
  | unexpected
  /-- A datagram of the destination came in. -/
  | arrived (data : List UInt8)
  /-- Waiting for room in the queue, or its stop token. -/
  | queueing (item : OutboundItem)
  /-- A second passed without a datagram. -/
  | idling
  /-- Out of its loop, before the session is taken out. -/
  | exiting
  deriving DecidableEq

structure Relay where
  connId : UInt16
  dst : SocketAddr
  pc : RelayPc
  deriving DecidableEq

/-- Where the writer stands. -/
inductive WriterPc where
  | idle
  /-- With an item, waiting for the delivery lock. -/
  | waiting (item : OutboundItem)
  /-- With the delivery lock, before its look at `generations`. -/
  | checking (item : OutboundItem)
  /-- Writing the frame, with the delivery lock. -/
  | writing (item : OutboundItem)
  /-- Returned an error; the connection ends. -/
  | failed
  deriving DecidableEq

/-- Who holds the delivery lock. -/
inductive Party where
  | request
  | writer
  deriving DecidableEq

/-- A datagram that a relay task received. -/
structure Datagram where
  generation : Nat
  source : SocketAddr
  data : List UInt8
  deriving DecidableEq

/-- A session that was opened. -/
structure Opened where
  generation : Nat
  connId : UInt16
  dst : SocketAddr
  deriving DecidableEq

structure Server where
  nextGeneration : Nat
  generations : UInt16 → Option Nat
  sessions : UInt16 → Option Session
  lock : Option Party
  queue : List OutboundItem
  request : RequestPc
  writer : WriterPc
  /-- The relay tasks, by generation. -/
  relays : Nat → Option Relay
  /-- The stop tokens, by generation. -/
  stopped : Nat → Bool
  lastAct : Nat → Nat
  now : Nat
  received : List Datagram
  opened : List Opened
  written : List OutboundItem

/-- A new connection; the counter is where other connections left it. -/
def Server.new (nextGeneration : Nat) : Server where
  nextGeneration
  generations _ := none
  sessions _ := none
  lock := none
  queue := []
  request := .idle
  writer := .idle
  relays _ := none
  stopped _ := false
  lastAct _ := 0
  now := 0
  received := []
  opened := []
  written := []

/-! ## 2. What the tasks compute -/

/-- `process_client_udp_req` and the checks of `process_udp` on one packet. -/
def dispatch (udpMtu : UInt16) (packet : Packet) : RequestPc :=
  let connId := packet.header.connId
  if packet.header.flags = .KEEPALIVE then .responding (keepaliveItem connId)
  else if packet.header.flags = .CLOSE then .closing connId
  else if packet.header.flags ≠ .DATA then .replacing connId .respond
  else
    match packet.address with
    | none => .replacing connId .respond
    | some reqAddr =>
      if udpMtu.toNat < packet.data.length then .replacing connId .respond
      else .looking ⟨connId, reqAddr⟩

/-- `effective_mtu`: the datagram must also fit a frame with the address of its source. -/
def effectiveMtu (codec : AddressCodec) (udpMtu : UInt16) (dst : SocketAddr) : Nat :=
  min udpMtu.toNat (u16Max - (UdpgwHeader.staticLen + codec.len (.socketAddress dst)))

/-- The response to a datagram: an error packet if it is too long, nothing if no packet can be
    built. -/
def response (codec : AddressCodec) (udpMtu : UInt16) (connId : UInt16) (dst : SocketAddr)
    (data : List UInt8) : Option Packet :=
  if effectiveMtu codec udpMtu dst < data.length then some (Packet.buildErrorPacket connId)
  else (Packet.buildPacketFromAddress codec connId (.socketAddress dst) data).toOption

namespace Server

/-- The session of a relay task, if it is still in the map. -/
def ownSession (s : Server) (connId : UInt16) (generation : Nat) : Option Session :=
  (s.sessions connId).filter (·.generation == generation)

/-- How long the session of a relay task has been idle, if it is still in the map. -/
def idleFor (s : Server) (connId : UInt16) (generation : Nat) : Option Nat :=
  (s.ownSession connId generation).map fun session => s.now - s.lastAct session.generation

def removeSession (s : Server) (connId : UInt16) : Server :=
  { s with sessions := Function.update s.sessions connId none }

/-- Removing the session of `connId` and cancelling its token. -/
def evict (s : Server) (connId : UInt16) : Server :=
  { s with
    sessions := Function.update s.sessions connId none
    stopped :=
      match s.sessions connId with
      | some old => Function.update s.stopped old.generation true
      | none => s.stopped }

/-- Removing the session of a relay task, if it is still in the map. -/
def removeOwn (s : Server) (connId : UInt16) (generation : Nat) : Server :=
  { s with
    sessions :=
      if (s.ownSession connId generation).isSome then Function.update s.sessions connId none
      else s.sessions }

/-- The cleanup of a relay task: its token is cancelled and its session removed, if the session is
    still in the map. -/
def cleanUp (s : Server) (connId : UInt16) (generation : Nat) : Server :=
  { s.removeOwn connId generation with
    stopped :=
      if (s.ownSession connId generation).isSome then Function.update s.stopped generation true
      else s.stopped }

def setRelay (s : Server) (generation : Nat) (relay : Option Relay) : Server :=
  { s with relays := Function.update s.relays generation relay }

end Server

/-! ## 3. The request loop -/

/-- A step of `process_client_udp_req`, with `process_udp`, `replace_generation` and
    `close_session`. -/
inductive RequestStep (udpMtu : UInt16) (s : Server) : Server → Prop
  | packet (h : s.request = .idle) (packet : Packet) :
      RequestStep udpMtu s { s with request := dispatch udpMtu packet }
  -- `replace_generation`
  | lockReplace {c : UInt16} {k : AfterReplace} (h : s.request = .replacing c k)
      (hlock : s.lock = none) :
      RequestStep udpMtu s { s with
        lock := some .request
        nextGeneration := s.nextGeneration + 1
        request := .inserting c s.nextGeneration k }
  | insert {c : UInt16} {g : Nat} {k : AfterReplace} (h : s.request = .inserting c g k) :
      RequestStep udpMtu s { s with
        generations := Function.update s.generations c (some g)
        request := .evicting c g k }
  | replaced {c : UInt16} {g : Nat} (h : s.request = .evicting c g .respond) :
      RequestStep udpMtu s { s.evict c with
        lock := none
        request := .responding (errorItem c g) }
  | switched {c : UInt16} {g : Nat} {reqAddr : Address}
      (h : s.request = .evicting c g (.resolve reqAddr)) :
      RequestStep udpMtu s { s.evict c with
        lock := none
        request := .resolving ⟨c, reqAddr⟩ g }
  -- `close_session`
  | lockClose {c : UInt16} (h : s.request = .closing c) (hlock : s.lock = none) :
      RequestStep udpMtu s { s with
        lock := some .request
        request := .forgetting c }
  | forget {c : UInt16} (h : s.request = .forgetting c) :
      RequestStep udpMtu s { s with
        generations := Function.update s.generations c none
        request := .dropping c }
  | drop {c : UInt16} (h : s.request = .dropping c) :
      RequestStep udpMtu s { s.evict c with
        lock := none
        request := .idle }
  -- the fast path of `process_udp`
  | reuse {r : DataRequest} {session : Session} (h : s.request = .looking r)
      (hsession : s.sessions r.connId = some session) (haddr : session.reqAddr = r.reqAddr) :
      RequestStep udpMtu s { s with
        lastAct := Function.update s.lastAct session.generation s.now
        request := .reusing r.connId session.generation }
  | reused {c : UInt16} {g : Nat} (h : s.request = .reusing c g) :
      RequestStep udpMtu s { s with request := .idle }
  | notReused {c : UInt16} {g : Nat} (h : s.request = .reusing c g) :
      RequestStep udpMtu s { s with request := .responding (errorItem c g) }
  | miss {r : DataRequest} (h : s.request = .looking r)
      (hsession : ∀ session, s.sessions r.connId = some session → session.reqAddr ≠ r.reqAddr) :
      RequestStep udpMtu s { s with request := .replacing r.connId (.resolve r.reqAddr) }
  -- a new session
  | unresolved {r : DataRequest} {g : Nat} (h : s.request = .resolving r g) :
      RequestStep udpMtu s { s with request := .responding (errorItem r.connId g) }
  | resolve {r : DataRequest} {g : Nat} (h : s.request = .resolving r g) (dst : SocketAddr) :
      RequestStep udpMtu s { s with request := .opening r g dst }
  | lockOpen {r : DataRequest} {g : Nat} {dst : SocketAddr} (h : s.request = .opening r g dst)
      (hlock : s.lock = none) :
      RequestStep udpMtu s { s with
        lock := some .request
        request := .binding r g dst }
  | noSocket {r : DataRequest} {g : Nat} {dst : SocketAddr} (h : s.request = .binding r g dst) :
      RequestStep udpMtu s { s with
        lock := none
        request := .responding (errorItem r.connId g) }
  | bind {r : DataRequest} {g : Nat} {dst : SocketAddr} (h : s.request = .binding r g dst) :
      RequestStep udpMtu s { s with
        sessions := Function.update s.sessions r.connId (some ⟨dst, r.reqAddr, g⟩)
        stopped := Function.update s.stopped g false
        lastAct := Function.update s.lastAct g s.now
        opened := ⟨g, r.connId, dst⟩ :: s.opened
        request := .sending r.connId g dst }
  | sent {c : UInt16} {g : Nat} {dst : SocketAddr} (h : s.request = .sending c g dst) :
      RequestStep udpMtu s { s with
        lock := none
        request := .spawning c g dst }
  | notSent {c : UInt16} {g : Nat} {dst : SocketAddr} (h : s.request = .sending c g dst) :
      RequestStep udpMtu s { s with request := .undoing c g }
  | undo {c : UInt16} {g : Nat} (h : s.request = .undoing c g) :
      RequestStep udpMtu s { s.removeOwn c g with
        lock := none
        request := .responding (errorItem c g) }
  | spawn {c : UInt16} {g : Nat} {dst : SocketAddr} (h : s.request = .spawning c g dst) :
      RequestStep udpMtu s { s.setRelay g (some ⟨c, dst, .receiving⟩) with request := .idle }
  | respond {item : OutboundItem} (h : s.request = .responding item)
      (hroom : s.queue.length < QUEUE_CAPACITY) :
      RequestStep udpMtu s { s with
        queue := s.queue ++ [item]
        request := .idle }

/-! ## 4. The relay tasks -/

/-- A step of the relay task of generation `g`. The stop token is looked at before a datagram is
    received and before an item is queued, and it may be cancelled right after the look, so
    these steps do not depend on it. -/
inductive RelayStep (codec : AddressCodec) (udpMtu : UInt16) (idleMs : Nat) (g : Nat) (r : Relay)
    (s : Server) : Server → Prop
  | stop (hpc : r.pc = .receiving) (hstop : s.stopped g = true) :
      RelayStep codec udpMtu idleMs g r s (s.setRelay g (some { r with pc := .exiting }))
  | receive (hpc : r.pc = .receiving) (data : List UInt8) :
      RelayStep codec udpMtu idleMs g r s
        { s.setRelay g (some { r with pc := .arrived data }) with
          received := ⟨g, r.dst, data⟩ :: s.received }
  | receiveOther (hpc : r.pc = .receiving) {source : SocketAddr} (hsource : source ≠ r.dst)
      (data : List UInt8) :
      RelayStep codec udpMtu idleMs g r s
        { s.setRelay g (some { r with pc := .unexpected }) with
          received := ⟨g, source, data⟩ :: s.received }
  | receiveError (hpc : r.pc = .receiving) :
      RelayStep codec udpMtu idleMs g r s (s.setRelay g (some { r with pc := .exiting }))
  | timeout (hpc : r.pc = .receiving) :
      RelayStep codec udpMtu idleMs g r s (s.setRelay g (some { r with pc := .idling }))
  -- after a datagram from another source
  | ignore (hpc : r.pc = .unexpected)
      (hidle : ∀ idle, s.idleFor r.connId g = some idle → idle < idleMs) :
      RelayStep codec udpMtu idleMs g r s (s.setRelay g (some { r with pc := .receiving }))
  | ignoreExpired (hpc : r.pc = .unexpected) {idle : Nat}
      (hidle : s.idleFor r.connId g = some idle) (hexpired : idleMs ≤ idle) :
      RelayStep codec udpMtu idleMs g r s
        ((s.removeSession r.connId).setRelay g (some { r with pc := .exiting }))
  -- after a datagram of the destination
  | replaced {data : List UInt8} (hpc : r.pc = .arrived data) (hstop : s.stopped g = true) :
      RelayStep codec udpMtu idleMs g r s (s.setRelay g (some { r with pc := .exiting }))
  | relay {data : List UInt8} {packet : Packet} (hpc : r.pc = .arrived data)
      (hstop : s.stopped g = false)
      (hpacket : response codec udpMtu r.connId r.dst data = some packet) :
      RelayStep codec udpMtu idleMs g r s
        { s.setRelay g (some { r with pc := .queueing ⟨packet, some g⟩ }) with
          lastAct := Function.update s.lastAct g s.now }
  | noPacket {data : List UInt8} (hpc : r.pc = .arrived data) (hstop : s.stopped g = false)
      (hpacket : response codec udpMtu r.connId r.dst data = none) :
      RelayStep codec udpMtu idleMs g r s
        { s.setRelay g (some { r with pc := .receiving }) with
          lastAct := Function.update s.lastAct g s.now }
  | queue {item : OutboundItem} (hpc : r.pc = .queueing item)
      (hroom : s.queue.length < QUEUE_CAPACITY) :
      RelayStep codec udpMtu idleMs g r s
        { s.setRelay g (some { r with pc := .receiving }) with queue := s.queue ++ [item] }
  | queueStopped {item : OutboundItem} (hpc : r.pc = .queueing item) (hstop : s.stopped g = true) :
      RelayStep codec udpMtu idleMs g r s (s.setRelay g (some { r with pc := .exiting }))
  | clientGone {item : OutboundItem} (hpc : r.pc = .queueing item) (hgone : s.writer = .failed) :
      RelayStep codec udpMtu idleMs g r s (s.setRelay g (some { r with pc := .exiting }))
  -- after a second without a datagram
  | expire (hpc : r.pc = .idling) {idle : Nat} (hidle : s.idleFor r.connId g = some idle)
      (hexpired : idleMs ≤ idle) :
      RelayStep codec udpMtu idleMs g r s
        ((s.evict r.connId).setRelay g (some { r with pc := .exiting }))
  | stay (hpc : r.pc = .idling) {idle : Nat} (hidle : s.idleFor r.connId g = some idle)
      (hlive : idle < idleMs) :
      RelayStep codec udpMtu idleMs g r s (s.setRelay g (some { r with pc := .receiving }))
  | notCurrent (hpc : r.pc = .idling) (hidle : s.idleFor r.connId g = none) :
      RelayStep codec udpMtu idleMs g r s (s.setRelay g (some { r with pc := .exiting }))
  -- the end of the task
  | exit (hpc : r.pc = .exiting) :
      RelayStep codec udpMtu idleMs g r s
        ((s.cleanUp r.connId g).setRelay g none)

/-! ## 5. The writer -/

/-- Whether the writer finds the generation of an item current. -/
def OutboundItem.current (item : OutboundItem) (generations : UInt16 → Option Nat) : Bool :=
  match item.generation with
  | none => true
  | some g => generations item.connId == some g

/-- A step of `write_to_client`. -/
inductive WriterStep (s : Server) : Server → Prop
  | recv {item : OutboundItem} {rest : List OutboundItem} (h : s.writer = .idle)
      (hqueue : s.queue = item :: rest) :
      WriterStep s { s with
        queue := rest
        writer := .waiting item }
  | lock {item : OutboundItem} (h : s.writer = .waiting item) (hlock : s.lock = none) :
      WriterStep s { s with
        lock := some .writer
        writer := .checking item }
  | stale {item : OutboundItem} (h : s.writer = .checking item)
      (hstale : item.current s.generations = false) :
      WriterStep s { s with
        lock := none
        writer := .idle }
  | current {item : OutboundItem} (h : s.writer = .checking item)
      (hcurrent : item.current s.generations = true) :
      WriterStep s { s with writer := .writing item }
  | write {item : OutboundItem} (h : s.writer = .writing item) :
      WriterStep s { s with
        lock := none
        writer := .idle
        written := s.written ++ [item] }
  | fail {item : OutboundItem} (h : s.writer = .writing item) :
      WriterStep s { s with
        lock := none
        writer := .failed }

/-! ## 6. The system -/

inductive Step (codec : AddressCodec) (udpMtu : UInt16) (idleMs : Nat) (s : Server) : Server → Prop
  | request {s' : Server} (h : RequestStep udpMtu s s') : Step codec udpMtu idleMs s s'
  | relay {g : Nat} {r : Relay} {s' : Server} (hr : s.relays g = some r)
      (h : RelayStep codec udpMtu idleMs g r s s') : Step codec udpMtu idleMs s s'
  | writer {s' : Server} (h : WriterStep s s') : Step codec udpMtu idleMs s s'
  | tick (n : Nat) : Step codec udpMtu idleMs s { s with now := s.now + n }
  | otherClient : Step codec udpMtu idleMs s { s with nextGeneration := s.nextGeneration + 1 }

inductive Reachable (codec : AddressCodec) (udpMtu : UInt16) (idleMs : Nat) : Server → Prop
  | new (nextGeneration : Nat) : Reachable codec udpMtu idleMs (.new nextGeneration)
  | step {s s' : Server} (hs : Reachable codec udpMtu idleMs s)
      (h : Step codec udpMtu idleMs s s') : Reachable codec udpMtu idleMs s'

end Tun2Proxy.Udpgw
