/-
  File:      Tun2Proxy/Udpgw/Client.lean
  Subject:   The udpgw client: its pool of connections and the heartbeat (src/udpgw.rs), and the
             sessions that use them (`handle_udp_gateway_session` of src/lib.rs).

  A connection is a value, `UdpGwClientStream`, that is moved from the pool to a session or to the
  heartbeat and back. Its halves are moved with it, so whoever has it is alone with them. A half
  has a history: what was read from it or written to it since the handshake with the proxy.

  A task is a program counter, and a step of the system is a step of one task up to a point where
  another one can run or where the task can be dropped. A task that is dropped, or returns early,
  takes the connections it holds with it.

  The reader of a session is dropped whenever the application sends something. It keeps what it has
  in `recv_acc` and goes on from there in the next call, so its reads are steps of the session
  (`SessionStep.read`), and dropping it is none. Nobody but its task sees what the handshake or a
  read of the heartbeat does in between, so each of them is one step.
-/
import Mathlib.Logic.Function.Basic
import Tun2Proxy.Proxy.Handler
import Tun2Proxy.Udpgw.AsyncStream

namespace Tun2Proxy

open Packet PieceDecoder

/-! ## 1. Connections -/

/-- The reading half of the TCP stream. -/
structure OwnedReadHalf where
  /-- What `handle_proxy_session` has read behind the end of the handshake. -/
  prefetched : List UInt8
  /-- All that was read behind the end of the handshake. -/
  consumed : List UInt8

/-- The writing half of the TCP stream. -/
structure OwnedWriteHalf where
  written : List UInt8

/-- A session that a connection has served: its number, and how much had been written before. -/
structure Service where
  connId : UInt16
  start : Nat
  deriving DecidableEq

/-- The address of the stream is left out: it appears in the log only. -/
structure UdpGwClientStream where
  writer : Option OwnedWriteHalf
  reader : Option OwnedReadHalf
  closed : Bool
  lastActivity : Nat
  serialNumber : UInt16
  /-- History: no step looks at it. -/
  served : List Service

namespace UdpGwClientStream

def close (self : UdpGwClientStream) : UdpGwClientStream := { self with closed := true }

def updateActivity (self : UdpGwClientStream) (now : Nat) : UdpGwClientStream :=
  { self with lastActivity := now }

/-- With the next number of `SERIAL_NUMBER`. -/
def rotateSerialNumber (self : UdpGwClientStream) (next : UInt16) : UdpGwClientStream :=
  { self with serialNumber := next }

/-- `UdpGwClientStream::new` on a stream behind its handshake, of which these bytes were read
    already. -/
def new (prefetched : List UInt8) (next : UInt16) (now : Nat) : UdpGwClientStream where
  writer := some ⟨[]⟩
  reader := some ⟨prefetched, prefetched⟩
  closed := false
  lastActivity := now
  serialNumber := next
  served := []

/-- With the halves put back, as `store_server_connection_full` does it. -/
def withHalves (self : UdpGwClientStream) (reader : OwnedReadHalf) (writer : OwnedWriteHalf) :
    UdpGwClientStream :=
  { self with reader := some reader, writer := some writer }

end UdpGwClientStream

namespace UdpGwClient

/-- The fields of `UdpGwClient` that never change, and the options of a session. -/
structure Config where
  codec : AsyncAddressCodec
  udpMtu : UInt16
  maxConnections : Nat
  keepaliveTime : Nat
  ipv6Enabled : Bool

/-! ## 2. A session with its connection -/

/-- The variables of `handle_udp_gateway_session`. -/
structure SessionVars where
  stream : UdpGwClientStream
  sn : UInt16
  reader : OwnedReadHalf
  writer : OwnedWriteHalf
  recvAcc : List UInt8
  reusable : Bool

namespace SessionVars

def close (self : SessionVars) : SessionVars := { self with stream := self.stream.close }

def updateActivity (self : SessionVars) (now : Nat) : SessionVars :=
  { self with stream := self.stream.updateActivity now }

def write (self : SessionVars) (bytes : List UInt8) : SessionVars :=
  { self with writer := ⟨self.writer.written ++ bytes⟩ }

/-- A read of the socket into `recv_acc`. -/
def read (self : SessionVars) (bytes : List UInt8) : SessionVars :=
  { self with
    reader := { self.reader with consumed := self.reader.consumed ++ bytes }
    recvAcc := self.recvAcc ++ bytes }

end SessionVars

/-- `get_reader` and `get_writer` at the beginning of a session, if both halves are there. -/
def beginSession (stream : UdpGwClientStream) : Option SessionVars :=
  match stream.reader, stream.writer with
  | some reader, some writer =>
    some {
      stream := { stream with
        reader := none
        writer := none
        served := ⟨stream.serialNumber, writer.written.length⟩ :: stream.served }
      sn := stream.serialNumber
      reader
      writer
      recvAcc := []
      reusable := false }
  | _, _ => none

theorem beginSession_some {stream : UdpGwClientStream} {v : SessionVars}
    (h : beginSession stream = some v) :
    ∃ reader writer, stream.reader = some reader ∧ stream.writer = some writer ∧
      v = {
        stream := { stream with
          reader := none
          writer := none
          served := ⟨stream.serialNumber, writer.written.length⟩ :: stream.served }
        sn := stream.serialNumber
        reader
        writer
        recvAcc := []
        reusable := false } := by
  unfold beginSession at h
  split at h
  · rename_i reader writer hreader hwriter
    cases h
    exact ⟨reader, writer, hreader, hwriter, rfl⟩
  · cases h

/-- Where a session stands. -/
inductive SessionPc where
  /-- Waiting for the lock of the pool, to take a connection. -/
  | popping
  /-- On the way to a new connection. -/
  | connecting
  /-- In the `select!` of its loop. -/
  | selecting (v : SessionVars)
  /-- Writing a DATA frame, of which this is left. -/
  | sending (v : SessionVars) (rest : List UInt8)
  /-- Writing a payload to the application. -/
  | delivering (v : SessionVars) (payload : List UInt8)
  /-- Out of its loop. -/
  | leaving (v : SessionVars)
  /-- Writing the CLOSE frame, of which this is left. -/
  | closing (v : SessionVars) (rest : List UInt8)
  /-- Waiting for the lock of the pool, to put the connection back. -/
  | storing (v : SessionVars)

def isIpv6 : Address → Bool
  | .socketAddress (.v6 _ _ _ _) => true
  | _ => false

/-- The packet of `send_udpgw_packet`. -/
def sendUdpgwPacket (cfg : Config) (data : List UInt8) (remoteAddr : Address) (connId : UInt16) :
    Except Error Packet :=
  if cfg.ipv6Enabled = false ∧ isIpv6 remoteAddr = true then .error (.string "ipv6 not support")
  else buildPacketFromAddress cfg.codec.toAddressCodec connId remoteAddr data

/-- What a session does with a response, when the frame has been taken off `recv_acc`. -/
def SessionVars.respond (self : SessionVars) (now : Nat) : UdpGwResponse → SessionPc
  | .keepAlive => .leaving self.close
  | .tcpClose => .leaving self.close
  | .error => .selecting (self.updateActivity now)
  | .data packet =>
    if packet.header.connId ≠ self.sn then .selecting (self.updateActivity now)
    else .delivering self packet.data

/-- A session leaves, goes on, or takes up a payload sent to it. -/
theorem SessionVars.respond_cases (v : SessionVars) (now : Nat) (response : UdpGwResponse) :
    v.respond now response = .leaving v.close ∨
    v.respond now response = .selecting (v.updateActivity now) ∨
    ∃ packet, response = .data packet ∧ packet.header.connId = v.sn ∧
      v.respond now response = .delivering v packet.data := by
  cases response with
  | keepAlive => exact .inl rfl
  | tcpClose => exact .inl rfl
  | error => exact .inr (.inl rfl)
  | data packet =>
    by_cases hid : packet.header.connId ≠ v.sn
    · exact .inr (.inl (if_pos hid))
    · exact .inr (.inr ⟨packet, rfl, not_not.mp hid, if_neg hid⟩)

/-- **A step of a session that has a connection.** -/
inductive SessionStep (cfg : Config) (now : Nat) (dst : Address) : SessionPc → SessionPc → Prop
  -- the application is done, or its stream fails
  | appEnd {v : SessionVars} :
      SessionStep cfg now dst (.selecting v) (.leaving { v with reusable := true })
  | appData {v : SessionVars} {data : List UInt8} {packet : Packet}
      (h : sendUdpgwPacket cfg data dst v.stream.serialNumber = .ok packet) :
      SessionStep cfg now dst (.selecting v)
        (.sending v (packet.writeToBuf cfg.codec.toAddressCodec))
  | appRefused {v : SessionVars} {data : List UInt8} {e : Error}
      (h : sendUdpgwPacket cfg data dst v.stream.serialNumber = .error e) :
      SessionStep cfg now dst (.selecting v) (.leaving v)
  -- `write_all` of a DATA frame
  | write {v : SessionVars} (bytes rest : List UInt8) :
      SessionStep cfg now dst (.sending v (bytes ++ rest)) (.sending (v.write bytes) rest)
  | sent {v : SessionVars} :
      SessionStep cfg now dst (.sending v []) (.selecting (v.updateActivity now))
  | notSent {v : SessionVars} {rest : List UInt8} :
      SessionStep cfg now dst (.sending v rest) (.leaving v)
  -- `recv_udpgw_packet_csafe`
  | read {v : SessionVars} (chunk : Chunk)
      (h : tryAcc cfg.codec.toAddressCodec cfg.udpMtu v.recvAcc = none) :
      SessionStep cfg now dst (.selecting v) (.selecting (v.read chunk.bytes))
  -- the end of the stream, an error, or the time limit
  | readFails {v : SessionVars}
      (h : tryAcc cfg.codec.toAddressCodec cfg.udpMtu v.recvAcc = none) :
      SessionStep cfg now dst (.selecting v) (.leaving v.close)
  | refused {v : SessionVars} {e : Error} {acc : List UInt8}
      (h : tryAcc cfg.codec.toAddressCodec cfg.udpMtu v.recvAcc = some (.error e, acc)) :
      SessionStep cfg now dst (.selecting v) (.leaving { v.close with recvAcc := acc })
  | response {v : SessionVars} {n : Nat} {response : UdpGwResponse} {acc : List UInt8}
      (h : tryAcc cfg.codec.toAddressCodec cfg.udpMtu v.recvAcc = some (.ok (n, response), acc)) :
      SessionStep cfg now dst (.selecting v)
        (SessionVars.respond { v with recvAcc := acc } now response)
  -- `write_all` to the application
  | delivered {v : SessionVars} {payload : List UInt8} :
      SessionStep cfg now dst (.delivering v payload) (.selecting (v.updateActivity now))
  | notDelivered {v : SessionVars} {payload : List UInt8} :
      SessionStep cfg now dst (.delivering v payload) (.leaving { v with reusable := true })
  -- behind the loop
  | close {v : SessionVars} (hreusable : v.reusable = true) (hacc : v.recvAcc = []) :
      SessionStep cfg now dst (.leaving v)
        (.closing v ((buildClosePacket v.sn).writeToBuf cfg.codec.toAddressCodec))
  | writeClose {v : SessionVars} (bytes rest : List UInt8) :
      SessionStep cfg now dst (.closing v (bytes ++ rest)) (.closing (v.write bytes) rest)
  | closed {v : SessionVars} :
      SessionStep cfg now dst (.closing v []) (.storing (v.updateActivity now))

/-! ## 3. The heartbeat with a connection -/

/-- The variables of the heartbeat while it has taken the halves of a stream. -/
structure PingVars where
  stream : UdpGwClientStream
  reader : OwnedReadHalf
  writer : OwnedWriteHalf

def PingVars.write (self : PingVars) (bytes : List UInt8) : PingVars :=
  { self with writer := ⟨self.writer.written ++ bytes⟩ }

def PingVars.read (self : PingVars) (bytes : List UInt8) : PingVars :=
  { self with reader := { self.reader with consumed := self.reader.consumed ++ bytes } }

def PingVars.updateActivity (self : PingVars) (now : Nat) : PingVars :=
  { self with stream := self.stream.updateActivity now }

/-- `get_reader` and `get_writer` of the heartbeat, if both halves are there. -/
def beginPing (stream : UdpGwClientStream) : Option PingVars :=
  match stream.reader, stream.writer with
  | some reader, some writer =>
    some ⟨{ stream with reader := none, writer := none }, reader, writer⟩
  | _, _ => none

theorem beginPing_some {stream : UdpGwClientStream} {v : PingVars}
    (h : beginPing stream = some v) :
    ∃ reader writer, stream.reader = some reader ∧ stream.writer = some writer ∧
      v = ⟨{ stream with reader := none, writer := none }, reader, writer⟩ := by
  unfold beginPing at h
  split at h
  · rename_i reader writer hreader hwriter
    cases h
    exact ⟨reader, writer, hreader, hwriter, rfl⟩
  · cases h

/-- Where the heartbeat stands with a stream. -/
inductive PingPc where
  /-- Writing the keep-alive frame, of which this is left. -/
  | pinging (v : PingVars) (rest : List UInt8)
  /-- Waiting for the response. -/
  | listening (v : PingVars)
  /-- Waiting for the lock of the pool, to put the stream back. -/
  | storing (v : PingVars)

/-- `recv_udpgw_packet` has read these pieces and returned this response. -/
def Receives (cfg : Config) (pieces : List (Piece UInt8)) (response : UdpGwResponse) : Prop :=
  ∃ packet, retrieveFromAsyncStream cfg.codec pieces = .ok (packet, []) ∧
    parseUdpResponse cfg.udpMtu packet = .ok response

/-- **A step of the heartbeat that has taken a stream.** -/
inductive PingStep (cfg : Config) (now : Nat) : PingPc → PingPc → Prop
  | write {v : PingVars} (bytes rest : List UInt8) :
      PingStep cfg now (.pinging v (bytes ++ rest)) (.pinging (v.write bytes) rest)
  | sent {v : PingVars} : PingStep cfg now (.pinging v []) (.listening v)
  | alive {v : PingVars} {pieces : List (Piece UInt8)} (h : Receives cfg pieces .keepAlive) :
      PingStep cfg now (.listening v)
        (.storing ((v.read (joined pieces)).updateActivity now))
  | late {v : PingVars} {pieces : List (Piece UInt8)} {response : UdpGwResponse}
      (h : Receives cfg pieces response)
      (hlate : response = .error ∨ ∃ packet, response = .data packet) :
      PingStep cfg now (.listening v) (.listening (v.read (joined pieces)))

/-- Where the heartbeat stands. -/
inductive HeartbeatPc where
  | sleeping
  /-- Taking the streams out of the pool. -/
  | collecting (streams : List UdpGwClientStream)
  /-- At the next of the streams. -/
  | next (streams : List UdpGwClientStream)
  /-- Waiting for the lock of the pool, to put back a stream that was active. -/
  | restoring (stream : UdpGwClientStream) (streams : List UdpGwClientStream)
  | busy (pc : PingPc) (streams : List UdpGwClientStream)
  | exited

/-! ## 4. The system -/

/-- A session of the TUN with one destination. -/
structure GatewaySession where
  dst : Address
  pc : SessionPc

structure State where
  /-- `SERIAL_NUMBER`, which wraps around. -/
  serialNumber : UInt16
  serverConnections : List UdpGwClientStream
  sessions : Nat → Option GatewaySession
  heartbeat : HeartbeatPc
  now : Nat

def State.start : State := ⟨1, [], fun _ => none, .sleeping, 0⟩

namespace State

def setSession (s : State) (i : Nat) (session : Option GatewaySession) : State :=
  { s with sessions := Function.update s.sessions i session }

/-- `store_server_connection`: a stream for which the pool has no room is dropped. -/
def storeServerConnection (s : State) (cfg : Config) (stream : UdpGwClientStream) : State :=
  { s with
    serverConnections :=
      if s.serverConnections.length < cfg.maxConnections then s.serverConnections ++ [stream]
      else s.serverConnections }

/-- A session goes on with a stream, or returns because a half of it is missing. -/
def serve (s : State) (i : Nat) (dst : Address) (stream : UdpGwClientStream) : State :=
  s.setSession i ((beginSession stream).map fun v => ⟨dst, .selecting v⟩)

end State

section Steps

variable {σ : Type} (methods : ProxyHandler σ) (cfg : Config)

/-- **One step of the client.** -/
inductive Step (s : State) : State → Prop
  | tick (d : Nat) : Step s { s with now := s.now + d }
  | spawn {i : Nat} (h : s.sessions i = none) (dst : Address) :
      Step s (s.setSession i (some ⟨dst, .popping⟩))
  -- a session takes a connection out of the pool
  | popClosed {i : Nat} {dst : Address} {stream : UdpGwClientStream}
      {rest : List UdpGwClientStream} (h : s.sessions i = some ⟨dst, .popping⟩)
      (hpool : s.serverConnections = stream :: rest) (hclosed : stream.closed = true) :
      Step s { s with serverConnections := rest }
  | pop {i : Nat} {dst : Address} {stream : UdpGwClientStream} {rest : List UdpGwClientStream}
      (h : s.sessions i = some ⟨dst, .popping⟩) (hpool : s.serverConnections = stream :: rest)
      (hopen : stream.closed = false) :
      Step s (State.serve { s with
          serverConnections := rest
          serialNumber := s.serialNumber + 1 } i dst (stream.rotateSerialNumber s.serialNumber))
  | popEmpty {i : Nat} {dst : Address} (h : s.sessions i = some ⟨dst, .popping⟩)
      (hpool : s.serverConnections = []) :
      Step s (s.setSession i (some ⟨dst, .connecting⟩))
  -- or connects; what the handler has for its client is never asked for
  | connect {i : Nat} {dst : Address} (h : s.sessions i = some ⟨dst, .connecting⟩) (handler : σ)
      (reads : List ReadResult) (server : Writer) {associate : Option SocketAddr} {x : Exchange σ}
      (hproxy : handleProxySession methods handler reads server = .ok (associate, x)) :
      Step s (State.serve { s with serialNumber := s.serialNumber + 1 } i dst
        (.new (methods.peekData .toClient x.handler) s.serialNumber s.now))
  | session {i : Nat} {dst : Address} {pc pc' : SessionPc} (h : s.sessions i = some ⟨dst, pc⟩)
      (hstep : SessionStep cfg s.now dst pc pc') : Step s (s.setSession i (some ⟨dst, pc'⟩))
  | store {i : Nat} {dst : Address} {v : SessionVars} (h : s.sessions i = some ⟨dst, .storing v⟩) :
      Step s ((s.storeServerConnection cfg (v.stream.withHalves v.reader v.writer)).setSession i
        none)
  -- a session returns without its connection, or is dropped
  | ends {i : Nat} {session : GatewaySession} (h : s.sessions i = some session) :
      Step s (s.setSession i none)
  -- the heartbeat takes all connections out of the pool
  | wake (h : s.heartbeat = .sleeping) : Step s { s with heartbeat := .collecting [] }
  | collectClosed {streams : List UdpGwClientStream} {stream : UdpGwClientStream}
      {rest : List UdpGwClientStream} (h : s.heartbeat = .collecting streams)
      (hpool : s.serverConnections = stream :: rest) (hclosed : stream.closed = true) :
      Step s { s with serverConnections := rest }
  | collect {streams : List UdpGwClientStream} {stream : UdpGwClientStream}
      {rest : List UdpGwClientStream} (h : s.heartbeat = .collecting streams)
      (hpool : s.serverConnections = stream :: rest) (hopen : stream.closed = false) :
      Step s { s with
        serverConnections := rest
        heartbeat := .collecting (streams ++ [stream]) }
  | collected {streams : List UdpGwClientStream} (h : s.heartbeat = .collecting streams)
      (hpool : s.serverConnections = []) : Step s { s with heartbeat := .next streams }
  -- and goes through them
  | recent {stream : UdpGwClientStream} {streams : List UdpGwClientStream}
      (h : s.heartbeat = .next (stream :: streams))
      (hrecent : s.now - stream.lastActivity < cfg.keepaliveTime) :
      Step s { s with heartbeat := .restoring stream streams }
  | restore {stream : UdpGwClientStream} {streams : List UdpGwClientStream}
      (h : s.heartbeat = .restoring stream streams) :
      Step s { s.storeServerConnection cfg stream with heartbeat := .next streams }
  | ping {stream : UdpGwClientStream} {streams : List UdpGwClientStream} {v : PingVars}
      (h : s.heartbeat = .next (stream :: streams))
      (hidle : cfg.keepaliveTime ≤ s.now - stream.lastActivity) (hv : beginPing stream = some v) :
      Step s { s with
        heartbeat := .busy (.pinging v ((buildKeepalivePacket stream.serialNumber).writeToBuf
          cfg.codec.toAddressCodec)) streams }
  | noHalf {stream : UdpGwClientStream} {streams : List UdpGwClientStream}
      (h : s.heartbeat = .next (stream :: streams))
      (hidle : cfg.keepaliveTime ≤ s.now - stream.lastActivity) (hv : beginPing stream = none) :
      Step s { s with heartbeat := .next streams }
  | heartbeat {pc pc' : PingPc} {streams : List UdpGwClientStream}
      (h : s.heartbeat = .busy pc streams) (hstep : PingStep cfg s.now pc pc') :
      Step s { s with heartbeat := .busy pc' streams }
  -- a frame that is not written or not answered as expected: the stream is dropped
  | pingFails {pc : PingPc} {streams : List UdpGwClientStream}
      (h : s.heartbeat = .busy pc streams) : Step s { s with heartbeat := .next streams }
  | pingStore {v : PingVars} {streams : List UdpGwClientStream}
      (h : s.heartbeat = .busy (.storing v) streams) :
      Step s { s.storeServerConnection cfg (v.stream.withHalves v.reader v.writer) with
        heartbeat := .next streams }
  | rest (h : s.heartbeat = .next []) : Step s { s with heartbeat := .sleeping }
  -- it is shut down, returns an error, or is dropped
  | heartbeatEnds : Step s { s with heartbeat := .exited }

inductive Reachable : State → Prop
  | start : Reachable .start
  | step {s s' : State} (hs : Reachable s) (h : Step methods cfg s s') : Reachable s'

end Steps

end UdpGwClient

end Tun2Proxy
