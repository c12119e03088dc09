/-
  File:      Tun2Proxy/Udpgw/Link.lean
  Subject:   One connection between the udpgw client and the udpgw server.

  The client's side of the connection is in the pool, with a session, or with the heartbeat
  (`Holder`), and goes on as in Udpgw/Client.lean; the server for it goes on as in
  Udpgw/Server.lean. Each of them can read what the other one has written so far, in whatever
  pieces: a step that would have read more has to wait (`harrived`).

  * A session that begins takes any serial number: `SERIAL_NUMBER` counts for all connections, and
    wraps around.
  * A client that drops the connection, and a server that returns, take no further steps.
  * A new connection has nothing behind the handshake, as the server has not been sent anything.
  * `sessions`, `requests` and `resolved` are history: no step looks at them.
-/
import Tun2Proxy.Udpgw.Client
import Tun2Proxy.Udpgw.Server

namespace Tun2Proxy

open Packet PieceDecoder
open UdpGwClient (Config SessionVars SessionPc SessionStep PingVars PingPc PingStep beginSession
  beginPing)
open Udpgw (Server DataRequest RequestPc WriterPc Relay OutboundItem RequestStep RelayStep
  WriterStep dispatch)

/-! ## 1. The two ends of the client -/

/-- How far the client is: what it has read and written, what it holds of the frame it reads and
    what is left of the frame it writes. Nothing is known of these if it will not go on. -/
structure ClientEnds where
  consumed : List UInt8
  held : Option (List UInt8)
  written : List UInt8
  left : Option (List UInt8)

namespace UdpGwClient

/-- With `recv_acc` held and this left to write. -/
def SessionVars.ends (v : SessionVars) (left : List UInt8) : ClientEnds :=
  ⟨v.reader.consumed, some v.recvAcc, v.writer.written, some left⟩

/-- For good. -/
def SessionVars.lost (v : SessionVars) : ClientEnds :=
  ⟨v.reader.consumed, none, v.writer.written, none⟩

def SessionPc.ends : SessionPc → ClientEnds
  | .popping => ⟨[], none, [], none⟩
  | .connecting => ⟨[], none, [], none⟩
  | .selecting v => v.ends []
  | .sending v rest => v.ends rest
  | .delivering v _ => v.ends []
  | .leaving v => if v.reusable then v.ends [] else v.lost
  | .closing v rest => { v.ends rest with held := some [] }
  | .storing v => { v.ends [] with held := some [] }

def PingVars.ends (v : PingVars) (left : List UInt8) : ClientEnds :=
  ⟨v.reader.consumed, some [], v.writer.written, some left⟩

def PingPc.ends : PingPc → ClientEnds
  | .pinging v rest => v.ends rest
  | .listening v => v.ends []
  | .storing v => v.ends []

end UdpGwClient

/-- Of a connection in the pool. -/
def UdpGwClientStream.ends (stream : UdpGwClientStream) : ClientEnds where
  consumed := (stream.reader.map OwnedReadHalf.consumed).getD []
  held := some []
  written := (stream.writer.map OwnedWriteHalf.written).getD []
  left := some []

namespace Udpgw

/-! ## 2. What is to be remembered of the server -/

/-- The DATA request the request loop handles, as long as its session is not open. -/
def RequestPc.asked : RequestPc → Option DataRequest
  | .looking r => some r
  | .replacing c (.resolve reqAddr) => some ⟨c, reqAddr⟩
  | .inserting c _ (.resolve reqAddr) => some ⟨c, reqAddr⟩
  | .evicting c _ (.resolve reqAddr) => some ⟨c, reqAddr⟩
  | .resolving r _ => some r
  | .opening r _ _ => some r
  | .binding r _ _ => some r
  | _ => none

/-- The answer of the resolver that takes the request loop on. -/
def resolution : RequestPc → RequestPc → Option (DataRequest × SocketAddr)
  | .resolving r _, .opening _ _ dst => some (r, dst)
  | _, _ => none

/-- The frame the writer has just begun. -/
def WriterPc.frame (codec : AddressCodec) : WriterPc → List UInt8
  | .writing item => item.packet.writeToBuf codec
  | _ => []

end Udpgw

namespace UdpgwLink

/-! ## 3. The connection -/

/-- Who has the client's side of the connection. -/
inductive Holder where
  | pooled (stream : UdpGwClientStream)
  | session (dst : Address) (pc : SessionPc)
  | heartbeat (pc : PingPc)

def Holder.ends : Holder → ClientEnds
  | .pooled stream => stream.ends
  | .session _ pc => pc.ends
  | .heartbeat pc => pc.ends

/-- A session that has used the connection. -/
structure Tenant where
  serial : UInt16
  dst : Address

structure Link where
  client : Holder
  server : Server
  /-- What the server has written. -/
  sent : List UInt8
  /-- What is left of the frame the server writes. -/
  outgoing : List UInt8
  /-- What the server has read. -/
  taken : List UInt8
  /-- The sessions that have used the connection, the last one first. -/
  sessions : List Tenant
  requests : List DataRequest
  resolved : List (DataRequest × SocketAddr)

/-- Client and server, and the answers the server's resolver may give. -/
structure Options where
  client : Config
  udpMtu : UInt16
  idleMs : Nat
  resolves : Address → SocketAddr → Prop

/-- The address format, which is the same on both sides. -/
abbrev Options.codec (opts : Options) : AsyncAddressCodec := opts.client.codec

/-- **One step of the connection.** -/
inductive Step (opts : Options) (l : Link) : Link → Prop
  -- the client
  | begin {stream : UdpGwClientStream} {v : SessionVars} (h : l.client = .pooled stream)
      (hopen : stream.closed = false) (serial : UInt16) (dst : Address)
      (hv : beginSession (stream.rotateSerialNumber serial) = some v) :
      Step opts l { l with
        client := .session dst (.selecting v)
        sessions := ⟨serial, dst⟩ :: l.sessions }
  | session {dst : Address} {pc pc' : SessionPc} (h : l.client = .session dst pc) (now : Nat)
      (hstep : SessionStep opts.client now dst pc pc') (harrived : pc'.ends.consumed <+: l.sent) :
      Step opts l { l with client := .session dst pc' }
  | store {dst : Address} {v : SessionVars} (h : l.client = .session dst (.storing v)) :
      Step opts l { l with client := .pooled (v.stream.withHalves v.reader v.writer) }
  | ping {stream : UdpGwClientStream} {v : PingVars} (h : l.client = .pooled stream)
      (hv : beginPing stream = some v) :
      Step opts l { l with
        client := .heartbeat (.pinging v ((buildKeepalivePacket stream.serialNumber).writeToBuf
          opts.codec.toAddressCodec)) }
  | heartbeat {pc pc' : PingPc} (h : l.client = .heartbeat pc) (now : Nat)
      (hstep : PingStep opts.client now pc pc') (harrived : pc'.ends.consumed <+: l.sent) :
      Step opts l { l with client := .heartbeat pc' }
  | pingStore {v : PingVars} (h : l.client = .heartbeat (.storing v)) :
      Step opts l { l with client := .pooled (v.stream.withHalves v.reader v.writer) }
  -- the request loop of the server reads the next packet, or goes on with the last one
  | packet {pieces : List (Piece UInt8)} {packet : Packet} (h : l.server.request = .idle)
      (hread : retrieveFromAsyncStream opts.codec pieces = .ok (packet, []))
      (harrived : l.taken ++ joined pieces <+: l.client.ends.written) :
      Step opts l { l with
        server := { l.server with request := dispatch opts.udpMtu packet }
        taken := l.taken ++ joined pieces
        requests := (dispatch opts.udpMtu packet).asked.toList ++ l.requests }
  | request {s' : Server} (h : RequestStep opts.udpMtu l.server s')
      (hbusy : l.server.request ≠ .idle)
      (hresolves : ∀ x, Udpgw.resolution l.server.request s'.request = some x →
        opts.resolves x.1.reqAddr x.2) :
      Step opts l { l with
        server := s'
        resolved := (Udpgw.resolution l.server.request s'.request).toList ++ l.resolved }
  | relay {g : Nat} {r : Relay} {s' : Server} (hr : l.server.relays g = some r)
      (h : RelayStep opts.codec.toAddressCodec opts.udpMtu opts.idleMs g r l.server s') :
      Step opts l { l with server := s' }
  -- the writer of the server; it comes back to its queue when the frame is written as a whole
  | writer {s' : Server} (h : WriterStep l.server s')
      (hwhole : s'.writer = .idle → l.outgoing = []) :
      Step opts l { l with
        server := s'
        outgoing := s'.writer.frame opts.codec.toAddressCodec }
  | emit {item : OutboundItem} {part rest : List UInt8} (h : l.server.writer = .writing item)
      (houtgoing : l.outgoing = part ++ rest) :
      Step opts l { l with
        sent := l.sent ++ part
        outgoing := rest }
  | tick (n : Nat) : Step opts l { l with server := { l.server with now := l.server.now + n } }
  | otherClient :
      Step opts l { l with
        server := { l.server with nextGeneration := l.server.nextGeneration + 1 } }

/-- The connection when its first session begins. -/
def Link.start (nextGeneration : Nat) (serial : UInt16) (dst : Address) (v : SessionVars) :
    Link where
  client := .session dst (.selecting v)
  server := .new nextGeneration
  sent := []
  outgoing := []
  taken := []
  sessions := [⟨serial, dst⟩]
  requests := []
  resolved := []

inductive Reachable (opts : Options) : Link → Prop
  | start (nextGeneration now : Nat) (serial : UInt16) (dst : Address) {v : SessionVars}
      (hv : beginSession (.new [] serial now) = some v) :
      Reachable opts (.start nextGeneration serial dst v)
  | step {l l' : Link} (hl : Reachable opts l) (h : Step opts l l') : Reachable opts l'

end UdpgwLink

end Tun2Proxy
