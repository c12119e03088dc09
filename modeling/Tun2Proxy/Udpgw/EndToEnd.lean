/-
  File:      Tun2Proxy/Udpgw/EndToEnd.lean
  Subject:   What a udpgw session hands to its application comes from where its requests went.

  Each direction of the connection is a channel (Lib/Channel.lean): one for the packets of the
  client, and one for the items of the server. Every step of the connection is a number of steps of
  the two channels (`up_client`, `down_client`, `up_packet`, `down_writer`), so both readers stay in
  step, whatever is in flight: a packet the server reads is one a session has sent, and a packet a
  session reads is one the server has sent.

  The rest is about where things come from. A packet with DATA has the serial number and the
  destination of a session of this connection (`Says`), the addresses the server resolves are those
  of such packets (`Logged`), and an item of the server with DATA is a datagram that came from the
  address it has resolved (`Genuine`, of Udpgw/Delivery.lean).
-/
import Tun2Proxy.Lib.Channel
import Tun2Proxy.Udpgw.CleanPool
import Tun2Proxy.Udpgw.Delivery
import Tun2Proxy.Udpgw.Link

namespace Tun2Proxy

open Packet PieceDecoder Decoder
open UdpGwClient (Config SessionVars SessionPc SessionStep PingVars PingPc PingStep Lawful
  beginSession_some beginPing_some sendUdpgwPacket)
open Udpgw (Server DataRequest RequestPc WriterPc OutboundItem RequestStep RelayStep WriterStep
  dispatch)

/-- The packet as it is read back. -/
def Packet.plain (p : Packet) : Packet := { p with address := p.address.map Address.plain }

namespace UdpgwLink

/-! ## 1. Frames -/

section Frames

variable {codec : AsyncAddressCodec}

/-- The frame of the packet is read back as the packet. -/
abbrev Codes (codec : AsyncAddressCodec) (p : Packet) : Prop :=
  Reads (retrieveFromStream codec.toAddressCodec) (p.writeToBuf codec.toAddressCodec) p.plain

theorem codes_bare (hc : Lawful codec) {flags : UdpFlag} (h : flags &&& .DATA ≠ .DATA)
    (connId : UInt16) : Codes codec ⟨⟨flags, connId⟩, none, []⟩ :=
  reads_writeToBuf hc.roundTrips (wellFormed_bare h connId)

theorem codes_built (hc : Lawful codec) {connId : UInt16} {addr : Address} {data : List UInt8}
    {p : Packet} (h : buildPacketFromAddress codec.toAddressCodec connId addr data = .ok p) :
    Codes codec p := by
  have hreads := reads_built hc.roundTrips hc.writesPlain h
  obtain ⟨rfl, -⟩ := buildPacketFromAddress_ok.mp h
  exact hreads

theorem not_reads_nil (hc : Lawful codec) (p : Packet) :
    ¬ Reads (retrieveFromStream codec.toAddressCodec) [] p := by
  intro h
  exact absurd (length_of_reads hc.roundTrips.framed h) (by decide)

/-- The packets the server sends. -/
inductive Answer (codec : AsyncAddressCodec) : Packet → Prop
  | data {connId : UInt16} {addr : Address} {data : List UInt8} {p : Packet}
      (h : buildPacketFromAddress codec.toAddressCodec connId addr data = .ok p) : Answer codec p
  | keepalive (connId : UInt16) : Answer codec (buildKeepalivePacket connId)
  | error (connId : UInt16) : Answer codec (buildErrorPacket connId)

theorem Answer.codes (hc : Lawful codec) {p : Packet} (h : Answer codec p) : Codes codec p := by
  cases h with
  | data h => exact codes_built hc h
  | keepalive connId => exact codes_bare hc (by decide) connId
  | error connId => exact codes_bare hc (by decide) connId

/-- A session takes a packet of the server for data only if it is a DATA packet. -/
theorem Answer.flags_of_data {p q : Packet} {udpMtu : UInt16} (h : Answer codec p)
    (hparse : parseUdpResponse udpMtu p.plain = .ok (.data q)) :
    q = p.plain ∧ p.header.flags = .DATA := by
  obtain ⟨rfl, herr, hkeep⟩ := parseUdpResponse_data hparse
  cases h with
  | data h =>
    obtain ⟨rfl, -⟩ := buildPacketFromAddress_ok.mp h
    exact ⟨rfl, rfl⟩
  | keepalive connId =>
    exact absurd (show UdpFlag.KEEPALIVE &&& .KEEPALIVE = .KEEPALIVE by decide) hkeep
  | error connId => exact absurd (show UdpFlag.ERR &&& .ERR = .ERR by decide) herr

end Frames

/-! ## 2. The channels -/

section Channels

variable {opts : Options} {l l' : Link}

/-- From the client to the server. -/
def Link.up (l : Link) (posted : List Packet) : Channel UInt8 Packet where
  begun := posted
  written := l.client.ends.written
  left := l.client.ends.left
  consumed := l.taken
  held := some []

/-- What is left of the frame of the server's writer. -/
def Link.left (l : Link) : Option (List UInt8) :=
  if l.server.writer = .failed then none else some l.outgoing

/-- From the server to the client. -/
def Link.down (l : Link) (begun : List OutboundItem) : Channel UInt8 OutboundItem where
  begun
  written := l.sent
  left := l.left
  consumed := l.client.ends.consumed
  held := l.client.ends.held

abbrev UpSteps (codec : AsyncAddressCodec) : Channel UInt8 Packet → Channel UInt8 Packet → Prop :=
  Channel.Steps (retrieveFromStream codec.toAddressCodec) (writeToBuf codec.toAddressCodec)
    Packet.plain

abbrev DownSteps (codec : AsyncAddressCodec) :
    Channel UInt8 OutboundItem → Channel UInt8 OutboundItem → Prop :=
  Channel.Steps (retrieveFromStream codec.toAddressCodec)
    (fun item => item.packet.writeToBuf codec.toAddressCodec) (fun item => item.packet.plain)

/-- The packet is one of a session with this number and destination, if it has DATA. -/
def SaidBy (serial : UInt16) (dst : Address) (p : Packet) : Prop :=
  p.header.flags = .DATA → p.header.connId = serial ∧ p.address = some dst

/-- Where a session with this number stands. -/
def Holds (serial : UInt16) : SessionPc → Prop
  | .popping => False
  | .connecting => False
  | .selecting v => v.sn = serial ∧ v.stream.serialNumber = serial ∧ v.reusable = false
  | .sending v _ => v.sn = serial ∧ v.stream.serialNumber = serial ∧ v.reusable = false
  | .delivering v _ => v.sn = serial ∧ v.stream.serialNumber = serial ∧ v.reusable = false
  | .leaving v => v.sn = serial
  | .closing v _ => v.sn = serial
  | .storing v => v.sn = serial

theorem ends_leaving {v : SessionVars} (h : v.reusable = false) :
    (SessionPc.leaving v).ends = v.lost :=
  if_neg (h ▸ Bool.false_ne_true)

theorem ends_respond {v : SessionVars} (h : v.reusable = false) (now : Nat)
    (response : UdpGwResponse) :
    (v.respond now response).ends = v.ends [] ∨ (v.respond now response).ends = v.lost := by
  rcases v.respond_cases now response with heq | heq | ⟨packet, -, -, heq⟩ <;> rw [heq]
  · exact .inr (ends_leaving (v := v.close) h)
  · exact .inl rfl
  · exact .inl rfl

variable {serial : UInt16}

theorem holds_respond {v : SessionVars} (h : Holds serial (.selecting v)) (now : Nat)
    (response : UdpGwResponse) : Holds serial (v.respond now response) := by
  rcases v.respond_cases now response with heq | heq | ⟨packet, -, -, heq⟩ <;> rw [heq]
  · exact h.1
  · exact h
  · exact h

variable {cfg : Config} {now : Nat}

theorem holds_step {dst : Address} {pc pc' : SessionPc} (h : Holds serial pc)
    (hs : SessionStep cfg now dst pc pc') : Holds serial pc' := by
  cases hs with
  | @response v n response acc htry =>
    exact holds_respond (v := { v with recvAcc := acc }) h now response
  | appEnd | appRefused | notSent | readFails | refused | notDelivered => exact h.1
  | appData | write | sent | read | delivered | close | writeClose | closed => exact h

/-! ## 3. The client on the channels -/

/-- **A step of a session on the channel to the server.** -/
theorem up_session (hc : Lawful cfg.codec) {dst : Address} {pc pc' : SessionPc}
    (h : Holds serial pc) (hs : SessionStep cfg now dst pc pc') (posted : List Packet)
    (taken : List UInt8) :
    ∃ posted', (∀ p ∈ posted', p ∈ posted ∨ SaidBy serial dst p) ∧
      UpSteps cfg.codec ⟨posted, pc.ends.written, pc.ends.left, taken, some []⟩
        ⟨posted', pc'.ends.written, pc'.ends.left, taken, some []⟩ := by
  have hold : ∀ p ∈ posted, p ∈ posted ∨ SaidBy serial dst p := fun p hp => .inl hp
  -- one more packet
  have hnew : ∀ {p}, SaidBy serial dst p →
      ∀ q ∈ posted ++ [p], q ∈ posted ∨ SaidBy serial dst q := by
    grind
  cases hs with
  | @appData v data packet hpacket =>
    unfold UdpGwClient.sendUdpgwPacket at hpacket
    split at hpacket
    case isTrue => cases hpacket
    case isFalse =>
      have hsaid : SaidBy serial dst packet := by
        obtain ⟨rfl, -⟩ := buildPacketFromAddress_ok.mp hpacket
        exact fun _ => ⟨h.2.1, rfl⟩
      exact ⟨posted ++ [packet], hnew hsaid, .single (.begin rfl (codes_built hc hpacket))⟩
  | write | writeClose => exact ⟨posted, hold, .single (.write rfl)⟩
  | appRefused | notSent =>
    rw [ends_leaving h.2.2]
    exact ⟨posted, hold, .single .stopWriting⟩
  | @readFails v htry =>
    rw [ends_leaving (v := v.close) h.2.2]
    exact ⟨posted, hold, .single .stopWriting⟩
  | @refused v e acc htry =>
    rw [ends_leaving (v := { v.close with recvAcc := acc }) h.2.2]
    exact ⟨posted, hold, .single .stopWriting⟩
  | @response v n response acc htry =>
    rcases ends_respond (v := { v with recvAcc := acc }) h.2.2 now response with hends | hends
    · rw [hends]
      exact ⟨posted, hold, .refl⟩
    · rw [hends]
      exact ⟨posted, hold, .single .stopWriting⟩
  | @close v hreusable hacc =>
    have hends : (SessionPc.leaving v).ends = v.ends [] := if_pos hreusable
    rw [hends]
    exact ⟨posted ++ [buildClosePacket v.sn], hnew nofun,
      .single (.begin rfl (codes_bare hc (by decide) v.sn))⟩
  | appEnd | sent | read | delivered | notDelivered | closed => exact ⟨posted, hold, .refl⟩

/-- **A step of a session on the channel from the server.** -/
theorem down_session (hc : Lawful cfg.codec) {dst : Address} {pc pc' : SessionPc}
    (h : Holds serial pc) (hs : SessionStep cfg now dst pc pc') (begun : List OutboundItem)
    {sent : List UInt8} (left : Option (List UInt8)) (harrived : pc'.ends.consumed <+: sent) :
    DownSteps cfg.codec ⟨begun, sent, left, pc.ends.consumed, pc.ends.held⟩
      ⟨begun, sent, left, pc'.ends.consumed, pc'.ends.held⟩ := by
  cases hs with
  | appRefused | notSent =>
    rw [ends_leaving h.2.2]
    exact .single .stopReading
  | read chunk => exact .single (.read rfl harrived)
  | @readFails v htry =>
    rw [ends_leaving (v := v.close) h.2.2]
    exact .single .stopReading
  | @refused v e acc htry =>
    rw [ends_leaving (v := { v.close with recvAcc := acc }) h.2.2]
    exact .single .stopReading
  | @response v n response acc htry =>
    have hfound : Found cfg.codec.toAddressCodec cfg.udpMtu v.recvAcc
        (tryAcc cfg.codec.toAddressCodec cfg.udpMtu v.recvAcc) :=
      tryAcc_found hc.roundTrips.framed v.recvAcc
    rw [htry] at hfound
    cases hfound with
    | frame hacc hlen hreads hparse =>
      have htake : DownSteps cfg.codec
          ⟨begun, sent, left, v.reader.consumed, some v.recvAcc⟩
          ⟨begun, sent, left, v.reader.consumed, some acc⟩ :=
        .single (.take (congrArg some hacc) hreads)
      rcases ends_respond (v := { v with recvAcc := acc }) h.2.2 now response with hends | hends
      · rw [hends]
        exact htake
      · rw [hends]
        exact htake.tail .stopReading
  | @close v hreusable hacc =>
    have hends : (SessionPc.leaving v).ends = v.ends [] := if_pos hreusable
    rw [hends]
    show DownSteps _ ⟨begun, sent, left, v.reader.consumed, some v.recvAcc⟩ _
    rw [hacc]
    exact .refl
  | appEnd | appData | write | sent | delivered | notDelivered | writeClose | closed => exact .refl

/-- The heartbeat writes the frame it has begun. -/
theorem up_ping {pc pc' : PingPc} (hs : PingStep cfg now pc pc') (posted : List Packet)
    (taken : List UInt8) :
    UpSteps cfg.codec ⟨posted, pc.ends.written, pc.ends.left, taken, some []⟩
      ⟨posted, pc'.ends.written, pc'.ends.left, taken, some []⟩ := by
  cases hs with
  | write bytes rest => exact .single (.write rfl)
  | sent | alive | late => exact .refl

/-- The heartbeat reads whole frames. -/
theorem down_ping (hc : Lawful cfg.codec) {pc pc' : PingPc} (hs : PingStep cfg now pc pc')
    (begun : List OutboundItem) {sent : List UInt8} (left : Option (List UInt8))
    (harrived : pc'.ends.consumed <+: sent) :
    DownSteps cfg.codec ⟨begun, sent, left, pc.ends.consumed, pc.ends.held⟩
      ⟨begun, sent, left, pc'.ends.consumed, pc'.ends.held⟩ := by
  cases hs with
  | write | sent => exact .refl
  | alive hr | late hr =>
    obtain ⟨packet, hread, -⟩ := hr
    exact Channel.steps_value rfl harrived
      (reads_joined hc.roundTrips.framed hc.agrees hread)

end Channels

/-! ## 4. Where things come from -/

section Origins

variable {opts : Options} {l l' : Link}

/-- A packet with DATA has the number and the destination of one of the sessions. -/
def Says (sessions : List Tenant) (p : Packet) : Prop :=
  p.header.flags = .DATA →
    ∃ x ∈ sessions, p.header.connId = x.serial ∧ p.address = some x.dst

/-- The request loop has an answer of the resolver, and no session yet. -/
def found : RequestPc → Option (DataRequest × SocketAddr)
  | .opening r _ dst => some (r, dst)
  | .binding r _ dst => some (r, dst)
  | _ => none

/-- **What the server has resolved.** -/
structure Logged (opts : Options) (l : Link) : Prop where
  requests : ∀ r ∈ l.requests, ∃ x ∈ l.sessions, r = ⟨x.serial, x.dst.plain⟩
  asked : ∀ r, l.server.request.asked = some r → r ∈ l.requests
  resolved : ∀ x ∈ l.resolved, x.1 ∈ l.requests ∧ opts.resolves x.1.reqAddr x.2
  found : ∀ x, found l.server.request = some x → x ∈ l.resolved
  opened : ∀ o ∈ l.server.opened, ∃ reqAddr, (⟨o.connId, reqAddr⟩, o.dst) ∈ l.resolved

theorem dispatch_asked {udpMtu : UInt16} {packet : Packet} {r : DataRequest}
    (h : (dispatch udpMtu packet).asked = some r) :
    packet.header.flags = .DATA ∧ packet.header.connId = r.connId ∧
      packet.address = some r.reqAddr := by
  simp only [dispatch] at h
  cases haddr : packet.address with
  | none =>
    simp only [haddr] at h
    split_ifs at h <;> cases h
  | some reqAddr =>
    simp only [haddr] at h
    split_ifs at h with hkeep hclose hdata hlong <;> cases h
    exact ⟨not_not.mp hdata, rfl, rfl⟩

theorem found_dispatch (udpMtu : UInt16) (packet : Packet) :
    found (dispatch udpMtu packet) = none := by
  unfold dispatch
  repeat' split
  all_goals rfl

theorem asked_request {udpMtu : UInt16} {s s' : Server} (hs : RequestStep udpMtu s s')
    (hbusy : s.request ≠ .idle) {r : DataRequest} (h : s'.request.asked = some r) :
    s.request.asked = some r := by
  cases hs
  case packet hidle packet => exact absurd hidle hbusy
  case lockReplace c k hpc hlock => cases k <;> simp_all [RequestPc.asked]
  case insert c g k hpc => cases k <;> simp_all [RequestPc.asked]
  case miss r' hpc hsession =>
    rw [hpc]
    exact h
  all_goals simp_all [RequestPc.asked]

theorem found_request {udpMtu : UInt16} {s s' : Server} (hs : RequestStep udpMtu s s')
    (hbusy : s.request ≠ .idle) {x : DataRequest × SocketAddr} (h : found s'.request = some x) :
    found s.request = some x ∨ Udpgw.resolution s.request s'.request = some x := by
  cases hs
  case packet hidle packet => exact absurd hidle hbusy
  case resolve r g hpc dst =>
    rw [hpc]
    exact .inr h
  all_goals simp_all [found]

theorem resolution_some {pc pc' : RequestPc} {x : DataRequest × SocketAddr}
    (h : Udpgw.resolution pc pc' = some x) : pc.asked = some x.1 := by
  unfold Udpgw.resolution at h
  split at h
  · cases h
    rfl
  · cases h

namespace Logged

/-- Steps that change neither the request loop nor what was opened. -/
theorem congr (h : Logged opts l) (hrequest : l'.server.request = l.server.request)
    (hopened : l'.server.opened = l.server.opened) (hsessions : ∀ x ∈ l.sessions, x ∈ l'.sessions)
    (hrequests : l'.requests = l.requests) (hresolved : l'.resolved = l.resolved) :
    Logged opts l' := by
  constructor
  case requests => grind [h.requests]
  case asked => grind [h.asked]
  case resolved =>
    rw [hresolved, hrequests]
    exact h.resolved
  case found => grind [h.found]
  case opened => grind [h.opened]

/-- The server reads a packet of one of the sessions. -/
theorem packet (h : Logged opts l) {packet p : Packet} (hp : packet = p.plain)
    (hsaid : Says l.sessions p) (taken : List UInt8) :
    Logged opts { l with
      server := { l.server with request := dispatch opts.udpMtu packet }
      taken
      requests := (dispatch opts.udpMtu packet).asked.toList ++ l.requests } := by
  constructor
  case requests =>
    intro r hr
    rcases List.mem_append.mp hr with hr | hr
    · obtain ⟨hflags, hid, haddr⟩ := dispatch_asked (Option.mem_toList.mp hr)
      subst hp
      obtain ⟨x, hx, hserial, hdst⟩ := hsaid hflags
      have hplain : p.plain.address = some x.dst.plain := by
        rw [Packet.plain, hdst]
        rfl
      refine ⟨x, hx, ?_⟩
      rw [Option.some.inj (hplain.symm.trans haddr), ← hserial,
        show p.header.connId = r.connId from hid]
    · exact h.requests r hr
  case asked => grind
  case resolved =>
    exact fun x hx => ⟨List.mem_append_right _ (h.resolved x hx).1, (h.resolved x hx).2⟩
  case found => grind [found_dispatch]
  case opened => exact h.opened

/-- The request loop goes on with the last packet. -/
theorem request (h : Logged opts l) {s' : Server} (hs : RequestStep opts.udpMtu l.server s')
    (hbusy : l.server.request ≠ .idle)
    (hresolves : ∀ x, Udpgw.resolution l.server.request s'.request = some x →
      opts.resolves x.1.reqAddr x.2) :
    Logged opts { l with
      server := s'
      resolved := (Udpgw.resolution l.server.request s'.request).toList ++ l.resolved } := by
  constructor
  case requests => exact h.requests
  case asked => exact fun r hr => h.asked r (asked_request hs hbusy hr)
  case resolved =>
    intro x hx
    rcases List.mem_append.mp hx with hx | hx
    · have hx := Option.mem_toList.mp hx
      exact ⟨h.asked x.1 (resolution_some hx), hresolves x hx⟩
    · exact h.resolved x hx
  case found => grind [h.found, found_request]
  case opened =>
    intro o ho
    rcases Udpgw.opened_request hs with e | ⟨r, g, dst, hpc, e, -⟩
    · grind [h.opened]
    · -- the session is opened for the address that was found
      rcases List.mem_cons.mp (e ▸ ho) with rfl | ho
      · exact ⟨r.reqAddr, List.mem_append_right _ (h.found (r, dst) (by rw [hpc]; rfl))⟩
      · grind [h.opened]

end Logged

end Origins

/-! ## 5. The invariant -/

section Invariant

variable {opts : Options} {l l' : Link} {posted posted' : List Packet}
  {begun begun' : List OutboundItem}

/-- The payload came from the destination of a session of the server for this number. -/
def Delivered (s : Server) (serial : UInt16) (payload : List UInt8) : Prop :=
  ∃ g source, ⟨g, serial, source⟩ ∈ s.opened ∧ ⟨g, source, payload⟩ ∈ s.received

abbrev UpInv (codec : AsyncAddressCodec) : Channel UInt8 Packet → Prop :=
  Channel.Inv (retrieveFromStream codec.toAddressCodec) (writeToBuf codec.toAddressCodec)
    Packet.plain

abbrev DownInv (codec : AsyncAddressCodec) : Channel UInt8 OutboundItem → Prop :=
  Channel.Inv (retrieveFromStream codec.toAddressCodec)
    (fun item => item.packet.writeToBuf codec.toAddressCodec) (fun item => item.packet.plain)

/-- **The invariant of the connection**, with the packets the client and the items the server has
    begun to write. -/
structure Inv (opts : Options) (l : Link) (posted : List Packet) (begun : List OutboundItem) :
    Prop where
  up : UpInv opts.codec (l.up posted)
  down : DownInv opts.codec (l.down begun)
  posted : ∀ p ∈ posted, Says l.sessions p
  begun : ∀ item ∈ begun, Udpgw.Genuine l.server item ∧ Answer opts.codec item.packet
  server : Udpgw.Inv l.server
  pending : ∀ item, l.server.Pending item → Answer opts.codec item.packet
  outgoing : (∀ item, l.server.writer ≠ .writing item) → l.outgoing = []
  tenant : ∀ dst pc, l.client = .session dst pc →
    ∃ serial earlier, l.sessions = ⟨serial, dst⟩ :: earlier ∧ Holds serial pc
  logged : Logged opts l
  delivering : ∀ dst v payload, l.client = .session dst (.delivering v payload) →
    Delivered l.server v.sn payload

theorem Says.mono {sessions sessions' : List Tenant} {p : Packet} (h : Says sessions p)
    (hsub : ∀ x ∈ sessions, x ∈ sessions') : Says sessions' p := by
  intro hflags
  obtain ⟨x, hx, hsaid⟩ := h hflags
  exact ⟨x, hsub x hx, hsaid⟩

/-- A step of the client: the server stays, and the channels go on. -/
theorem Inv.client (h : Inv opts l posted begun) (hc : Lawful opts.codec) {client : Holder}
    {sessions : List Tenant} (hsessions : ∀ x ∈ l.sessions, x ∈ sessions)
    (hposted : ∀ p ∈ posted', p ∈ posted ∨ Says sessions p)
    (hup : UpSteps opts.codec (l.up posted) (Link.up { l with client, sessions } posted'))
    (hdown : DownSteps opts.codec (l.down begun) (Link.down { l with client, sessions } begun))
    (htenant : ∀ dst pc, client = .session dst pc →
      ∃ serial earlier, sessions = ⟨serial, dst⟩ :: earlier ∧ Holds serial pc)
    (hdelivering : ∀ dst v payload, client = .session dst (.delivering v payload) →
      Delivered l.server v.sn payload) :
    Inv opts { l with client, sessions } posted' begun where
  up := h.up.steps (not_reads_nil hc) hup
  down := h.down.steps (not_reads_nil hc) hdown
  posted p hp := (hposted p hp).elim (fun hp => (h.posted p hp).mono hsessions) id
  begun := h.begun
  server := h.server
  pending := h.pending
  outgoing := h.outgoing
  tenant := htenant
  logged := h.logged.congr rfl rfl hsessions rfl rfl
  delivering := hdelivering

/-- The items of the server are answers. -/
theorem answer_step {codec : AsyncAddressCodec} {udpMtu : UInt16} {idleMs : Nat} {s s' : Server}
    (h : ∀ item, s.Pending item → Answer codec item.packet)
    (hs : Udpgw.Step codec.toAddressCodec udpMtu idleMs s s') (item : OutboundItem)
    (hp : s'.Pending item) : Answer codec item.packet := by
  cases hs with
  | request hs =>
    rcases Udpgw.pending_request hs hp with hp | ⟨c, rfl⟩ | ⟨c, g, rfl, -⟩
    · exact h item hp
    · exact .keepalive c
    · exact .error c
  | @relay g r _ hr hs =>
    rcases Udpgw.pending_relay hr (Udpgw.relayEffect hs) hp with
      hp | ⟨data, packet, -, hresponse, rfl⟩
    · exact h item hp
    · rcases Udpgw.response_some hresponse with rfl | hbuild
      · exact .error r.connId
      · exact .data hbuild
  | writer hs => exact h item (Udpgw.pending_writer hs hp)
  | tick n => exact h item (Udpgw.pending_congr hp rfl rfl rfl rfl)
  | otherClient => exact h item (Udpgw.pending_congr hp rfl rfl rfl rfl)

variable {payload : List UInt8}

theorem Delivered.step {codec : AddressCodec} {udpMtu : UInt16} {idleMs : Nat} {s s' : Server}
    {serial : UInt16} (h : Delivered s serial payload) (hs : Udpgw.Step codec udpMtu idleMs s s') :
    Delivered s' serial payload := by
  obtain ⟨hopened, hreceived⟩ := Udpgw.history_step hs
  obtain ⟨g, source, ho, hd⟩ := h
  exact ⟨g, source, hopened _ ho, hreceived _ hd⟩

/-- A step of the server: the client stays. -/
theorem Inv.serverStep (h : Inv opts l posted begun)
    (hs : Udpgw.Step opts.codec.toAddressCodec opts.udpMtu opts.idleMs l.server l'.server)
    (hclient : l'.client = l.client) (hsessions : l'.sessions = l.sessions)
    (hup : UpInv opts.codec (l'.up posted)) (hdown : DownInv opts.codec (l'.down begun'))
    (hbegun : ∀ item ∈ begun', item ∈ begun ∨ l.server.Pending item)
    (houtgoing : (∀ item, l'.server.writer ≠ .writing item) → l'.outgoing = [])
    (hlogged : Logged opts l') : Inv opts l' posted begun' where
  up := hup
  down := hdown
  posted := hsessions ▸ h.posted
  begun item hitem := by
    obtain ⟨hopened, hreceived⟩ := Udpgw.history_step hs
    rcases hbegun item hitem with hitem | hp
    · exact ⟨(h.begun item hitem).1.mono hopened hreceived, (h.begun item hitem).2⟩
    · exact ⟨(h.server.origin.genuine item hp).mono hopened hreceived, h.pending item hp⟩
  server := Udpgw.inv_step h.server hs
  pending := answer_step h.pending hs
  outgoing := houtgoing
  tenant := by
    rw [hclient, hsessions]
    exact h.tenant
  logged := hlogged
  delivering dst v payload hpc := (h.delivering dst v payload (hclient ▸ hpc)).step hs

/-! ## 6. A payload for the application -/

variable {v : SessionVars}

theorem respond_delivering {v' : SessionVars} {now : Nat} {response : UdpGwResponse}
    (h : v.respond now response = .delivering v' payload) :
    ∃ packet, response = .data packet ∧ packet.header.connId = v.sn ∧ v' = v ∧
      payload = packet.data := by
  rcases v.respond_cases now response with heq | heq | ⟨packet, hdata, hid, heq⟩ <;>
    rw [heq] at h <;> cases h
  exact ⟨packet, hdata, hid, rfl, rfl⟩

/-- **A session takes up a payload**: it is that of a datagram the server has received. -/
theorem Inv.delivers (h : Inv opts l posted begun) (hc : Lawful opts.codec) {dst : Address}
    {pc pc' : SessionPc} (hclient : l.client = .session dst pc) {now : Nat}
    (hs : SessionStep opts.client now dst pc pc') (hpc : pc' = .delivering v payload) :
    Delivered l.server v.sn payload := by
  cases hs with
  | @response w n response acc htry =>
    obtain ⟨packet, rfl, hid, rfl, rfl⟩ := respond_delivering hpc
    have hfound : Found opts.codec.toAddressCodec opts.client.udpMtu w.recvAcc
        (tryAcc opts.codec.toAddressCodec opts.client.udpMtu w.recvAcc) :=
      tryAcc_found hc.roundTrips.framed w.recvAcc
    rw [htry] at hfound
    cases hfound with
    | @frame frame _ p _ hacc hlen hreads hparse =>
      -- the frame is that of an item of the server
      have hheld : (l.down begun).held = some (frame ++ acc) := by
        rw [Link.down, hclient]
        exact congrArg some hacc
      obtain ⟨item, hitem, rfl⟩ := h.down.taken (not_reads_nil hc) hheld hreads
      obtain ⟨hgenuine, hanswer⟩ := h.begun item hitem
      obtain ⟨rfl, hflags⟩ := hanswer.flags_of_data hparse
      obtain ⟨g, source, -, -, hopened, hreceived⟩ := hgenuine.data hflags
      have hid : item.connId = w.sn := hid
      exact ⟨g, source, hid ▸ hopened, hreceived⟩
  | _ => cases hpc

/-! ## 7. Every step -/

variable {stream : UdpGwClientStream}

theorem ends_beginSession (h : UdpGwClient.beginSession stream = some v) :
    v.ends [] = stream.ends := by
  obtain ⟨reader, writer, hreader, hwriter, rfl⟩ := beginSession_some h
  rw [UdpGwClientStream.ends, hreader, hwriter]
  rfl

theorem holds_beginSession (h : UdpGwClient.beginSession stream = some v) :
    Holds stream.serialNumber (.selecting v) := by
  obtain ⟨reader, writer, -, -, rfl⟩ := beginSession_some h
  exact ⟨rfl, rfl, rfl⟩

theorem ends_beginPing {v : PingVars} (h : UdpGwClient.beginPing stream = some v) :
    v.ends [] = stream.ends := by
  obtain ⟨reader, writer, hreader, hwriter, rfl⟩ := beginPing_some h
  rw [UdpGwClientStream.ends, hreader, hwriter]
  rfl

namespace Inv

/-- The connection goes from one holder to the next one, as it is. -/
theorem handOver (h : Inv opts l posted begun) (hc : Lawful opts.codec) {client : Holder}
    {sessions : List Tenant} (hsessions : ∀ x ∈ l.sessions, x ∈ sessions)
    (hends : client.ends = l.client.ends)
    (htenant : ∀ dst pc, client = .session dst pc →
      ∃ serial earlier, sessions = ⟨serial, dst⟩ :: earlier ∧ Holds serial pc)
    (hquiet : ∀ dst v payload, client ≠ .session dst (.delivering v payload)) :
    Inv opts { l with client, sessions } posted begun := by
  refine h.client hc hsessions (fun p hp => .inl hp) ?_ ?_ htenant
    fun dst v payload hpc => absurd hpc (hquiet dst v payload)
  · rw [Link.up, Link.up, ← hends]
  · rw [Link.down, Link.down, ← hends]
    exact .refl

/-- What a step of the client keeps. -/
theorem session (h : Inv opts l posted begun) (hc : Lawful opts.codec) {dst : Address}
    {pc pc' : SessionPc} (hclient : l.client = .session dst pc) {now : Nat}
    (hs : SessionStep opts.client now dst pc pc') (harrived : pc'.ends.consumed <+: l.sent) :
    ∃ posted', Inv opts { l with client := .session dst pc' } posted' begun := by
  obtain ⟨serial, earlier, hsessions, hholds⟩ := h.tenant dst pc hclient
  obtain ⟨posted', hposted, hup⟩ := up_session hc hholds hs posted l.taken
  have hmem : ⟨serial, dst⟩ ∈ l.sessions := hsessions ▸ List.mem_cons_self
  refine ⟨posted', h.client hc (fun x hx => hx) (fun p hp => ?_) ?_ ?_ ?_ ?_⟩
  · exact (hposted p hp).imp_right fun hsaid hflags => ⟨_, hmem, hsaid hflags⟩
  · rw [Link.up, hclient]
    exact hup
  · rw [Link.down, hclient]
    exact down_session hc hholds hs begun l.left harrived
  · intro dst' pc'' heq
    cases heq
    exact ⟨serial, earlier, hsessions, holds_step hholds hs⟩
  · intro dst' v payload heq
    cases heq
    exact h.delivers hc hclient hs rfl

/-- The heartbeat begins its keep-alive frame. -/
theorem ping (h : Inv opts l posted begun) (hc : Lawful opts.codec) {stream : UdpGwClientStream}
    {v : PingVars} (hclient : l.client = .pooled stream)
    (hv : UdpGwClient.beginPing stream = some v) (serial : UInt16) :
    Inv opts
      { l with
        client := .heartbeat (.pinging v ((buildKeepalivePacket serial).writeToBuf
          opts.codec.toAddressCodec)) }
      (posted ++ [buildKeepalivePacket serial]) begun := by
  have hends : l.client.ends = v.ends [] := by
    rw [hclient]
    exact (ends_beginPing hv).symm
  refine h.client hc (fun x hx => hx) (fun p hp => ?_) ?_ ?_
    (fun dst pc hpc => nomatch hpc) fun dst v payload hpc => nomatch hpc
  · rcases List.mem_append.mp hp with hp | hp
    · exact .inl hp
    · obtain rfl := List.mem_singleton.mp hp
      exact .inr nofun
  · rw [Link.up, hends]
    exact .single (.begin rfl (codes_bare hc (by decide) serial))
  · rw [Link.down, hends]
    exact .refl

theorem heartbeat (h : Inv opts l posted begun) (hc : Lawful opts.codec) {pc pc' : PingPc}
    (hclient : l.client = .heartbeat pc) {now : Nat} (hs : PingStep opts.client now pc pc')
    (harrived : pc'.ends.consumed <+: l.sent) :
    Inv opts { l with client := .heartbeat pc' } posted begun := by
  refine h.client hc (fun x hx => hx) (fun p hp => .inl hp) ?_ ?_
    (fun dst pc hpc => nomatch hpc) fun dst v payload hpc => nomatch hpc
  · rw [Link.up, hclient]
    exact up_ping hs posted l.taken
  · rw [Link.down, hclient]
    exact down_ping hc hs begun l.left harrived

/-- The server reads a packet: it is one of the client. -/
theorem packet (h : Inv opts l posted begun) (hc : Lawful opts.codec)
    (hidle : l.server.request = .idle) {pieces : List (Piece UInt8)} {packet : Packet}
    (hread : retrieveFromAsyncStream opts.codec pieces = .ok (packet, []))
    (harrived : l.taken ++ joined pieces <+: l.client.ends.written) :
    Inv opts
      { l with
        server := { l.server with request := dispatch opts.udpMtu packet }
        taken := l.taken ++ joined pieces
        requests := (dispatch opts.udpMtu packet).asked.toList ++ l.requests } posted begun := by
  have hreads := reads_joined hc.roundTrips.framed hc.agrees hread
  obtain ⟨p, hp, hplain⟩ := h.up.taken_value (not_reads_nil hc) rfl harrived hreads
  exact h.serverStep (.request (.packet hidle packet)) rfl rfl
    (h.up.steps (not_reads_nil hc) (Channel.steps_value rfl harrived hreads)) h.down
    (fun item hitem => .inl hitem) h.outgoing (h.logged.packet hplain (h.posted p hp) _)

/-- A step of the server that leaves its writer alone. -/
theorem background (h : Inv opts l posted begun) {s' : Server}
    {resolved : List (DataRequest × SocketAddr)}
    (hs : Udpgw.Step opts.codec.toAddressCodec opts.udpMtu opts.idleMs l.server s')
    (hwriter : s'.writer = l.server.writer)
    (hlogged : Logged opts { l with server := s', resolved }) :
    Inv opts { l with server := s', resolved } posted begun := by
  refine h.serverStep hs rfl rfl h.up ?_ (fun item hitem => .inl hitem) ?_ hlogged
  · show DownInv opts.codec ⟨begun, l.sent, if s'.writer = .failed then none else some l.outgoing,
      l.client.ends.consumed, l.client.ends.held⟩
    rw [hwriter]
    exact h.down
  · show (∀ item, s'.writer ≠ .writing item) → l.outgoing = []
    rw [hwriter]
    exact h.outgoing

end Inv

/-- **A step of the writer on the channel to the client.** -/
theorem down_writer (h : Inv opts l posted begun) (hc : Lawful opts.codec) {s' : Server}
    (hs : WriterStep l.server s') (hwhole : s'.writer = .idle → l.outgoing = []) :
    ∃ begun', (∀ item ∈ begun', item ∈ begun ∨ l.server.Pending item) ∧
      DownSteps opts.codec (l.down begun)
        (Link.down { l with
          server := s'
          outgoing := s'.writer.frame opts.codec.toAddressCodec } begun') := by
  have hold : ∀ item ∈ begun, item ∈ begun ∨ l.server.Pending item := fun _ hitem => .inl hitem
  -- between two frames nothing is left
  have hleft : l.server.writer ≠ .failed → l.outgoing = [] → l.left = some [] := by
    intro hopen hnil
    rw [Link.left, if_neg hopen, hnil]
  cases hs with
  | recv hpc | lock hpc =>
    have hnil := h.outgoing (by rw [hpc]; nofun)
    refine ⟨begun, hold, ?_⟩
    rw [Link.down, hleft (by rw [hpc]; nofun) hnil]
    exact .refl
  | stale hpc | write hpc =>
    refine ⟨begun, hold, ?_⟩
    rw [Link.down, hleft (by rw [hpc]; nofun) (hwhole rfl)]
    exact .refl
  | @current item hpc hcurrent =>
    have hnil := h.outgoing (by rw [hpc]; nofun)
    have hp : l.server.Pending item := .writer (by rw [hpc]; rfl)
    refine ⟨begun ++ [item], by grind, ?_⟩
    rw [Link.down, hleft (by rw [hpc]; nofun) hnil]
    exact .single (.begin rfl ((h.pending item hp).codes hc))
  | @fail item hpc => exact ⟨begun, hold, .single .stopWriting⟩

namespace Inv

theorem writer (h : Inv opts l posted begun) (hc : Lawful opts.codec) {s' : Server}
    (hs : WriterStep l.server s') (hwhole : s'.writer = .idle → l.outgoing = []) :
    ∃ begun', Inv opts
      { l with
        server := s'
        outgoing := s'.writer.frame opts.codec.toAddressCodec } posted begun' := by
  obtain ⟨begun', hbegun, hdown⟩ := down_writer h hc hs hwhole
  refine ⟨begun', h.serverStep (.writer hs) rfl rfl h.up
    (h.down.steps (not_reads_nil hc) hdown) hbegun (fun hwriting => ?_) ?_⟩
  · show s'.writer.frame opts.codec.toAddressCodec = []
    cases hpc : s'.writer with
    | writing item => exact absurd hpc (hwriting item)
    | _ => rfl
  · cases hs <;> exact h.logged.congr rfl rfl (fun x hx => hx) rfl rfl

/-- More of the frame at hand is written. -/
theorem emit (h : Inv opts l posted begun) (hc : Lawful opts.codec) {item : OutboundItem}
    {part rest : List UInt8} (hpc : l.server.writer = .writing item)
    (houtgoing : l.outgoing = part ++ rest) :
    Inv opts { l with sent := l.sent ++ part, outgoing := rest } posted begun := by
  have hleft : ∀ outgoing : List UInt8,
      (if l.server.writer = .failed then none else some outgoing) = some outgoing := fun _ =>
    if_neg (by rw [hpc]; nofun)
  have hwrite : DownSteps opts.codec (l.down begun)
      (Link.down { l with sent := l.sent ++ part, outgoing := rest } begun) := by
    unfold Link.down Link.left
    rw [hleft, hleft, houtgoing]
    exact .single (.write rfl)
  exact ⟨h.up, h.down.steps (not_reads_nil hc) hwrite, h.posted, h.begun, h.server, h.pending,
    fun hwriting => absurd hpc (hwriting item), h.tenant,
    h.logged.congr rfl rfl (fun x hx => hx) rfl rfl, h.delivering⟩

/-- **What a step of the connection keeps.** -/
theorem step (h : Inv opts l posted begun) (hc : Lawful opts.codec) (hs : Step opts l l') :
    ∃ posted' begun', Inv opts l' posted' begun' := by
  cases hs with
  | @begin stream v hclient hopen serial dst hv =>
    refine ⟨posted, begun, h.handOver hc (fun x hx => List.mem_cons_of_mem _ hx) ?_ ?_
      fun dst v payload => nofun⟩
    · have hends := ends_beginSession hv
      rw [hclient]
      exact hends
    · intro dst' pc heq
      cases heq
      exact ⟨serial, l.sessions, rfl, holds_beginSession hv⟩
  | session hclient now hstep harrived =>
    obtain ⟨posted', hinv⟩ := h.session hc hclient hstep harrived
    exact ⟨posted', begun, hinv⟩
  | store hclient | pingStore hclient =>
    refine ⟨posted, begun, h.handOver hc (fun x hx => hx) ?_
      (fun dst pc hpc => nomatch hpc) fun dst v payload hpc => nomatch hpc⟩
    rw [hclient]
    rfl
  | ping hclient hv => exact ⟨_, begun, h.ping hc hclient hv _⟩
  | heartbeat hclient now hstep harrived =>
    exact ⟨posted, begun, h.heartbeat hc hclient hstep harrived⟩
  | packet hidle hread harrived => exact ⟨posted, begun, h.packet hc hidle hread harrived⟩
  | request hstep hbusy hresolves =>
    have hlogged := h.logged.request hstep hbusy hresolves
    exact ⟨posted, begun, h.background (.request hstep) (by cases hstep <;> rfl) hlogged⟩
  | relay hr hstep =>
    have he := Udpgw.relayEffect hstep
    exact ⟨posted, begun, h.background (.relay hr hstep) he.writer
      (h.logged.congr he.request he.opened (fun x hx => hx) rfl rfl)⟩
  | writer hstep hwhole =>
    obtain ⟨begun', hinv⟩ := h.writer hc hstep hwhole
    exact ⟨posted, begun', hinv⟩
  | emit hpc houtgoing => exact ⟨posted, begun, h.emit hc hpc houtgoing⟩
  | tick n =>
    exact ⟨posted, begun, h.background (.tick n) rfl
      (h.logged.congr rfl rfl (fun x hx => hx) rfl rfl)⟩
  | otherClient =>
    exact ⟨posted, begun, h.background .otherClient rfl
      (h.logged.congr rfl rfl (fun x hx => hx) rfl rfl)⟩

theorem start (opts : Options) (nextGeneration now : Nat) (serial : UInt16) (dst : Address)
    {v : SessionVars} (hv : UdpGwClient.beginSession (.new [] serial now) = some v) :
    Inv opts (.start nextGeneration serial dst v) [] [] := by
  obtain ⟨reader, writer, hreader, hwriter, rfl⟩ := beginSession_some hv
  cases hreader
  cases hwriter
  exact {
    up := ⟨nofun, ⟨[], rfl, fun left hl => Option.some.inj hl⟩, List.prefix_rfl,
      fun held hh => ⟨[], [], rfl, Option.some.inj hh⟩⟩
    down := ⟨nofun, ⟨[], rfl, fun left hl => Option.some.inj hl⟩, List.prefix_rfl,
      fun held hh => ⟨[], [], rfl, Option.some.inj hh⟩⟩
    posted := nofun
    begun := nofun
    server := Udpgw.inv_new nextGeneration
    pending := fun item hp => absurd hp Udpgw.not_pending_new
    outgoing := fun _ => rfl
    tenant := fun dst' pc heq => by
      cases heq
      exact ⟨serial, [], rfl, rfl, rfl, rfl⟩
    logged := ⟨nofun, nofun, nofun, nofun, nofun⟩
    delivering := nofun }

theorem reachable (hc : Lawful opts.codec) (h : Reachable opts l) :
    ∃ posted begun, Inv opts l posted begun := by
  induction h with
  | start nextGeneration now serial dst hv =>
    exact ⟨[], [], Inv.start opts nextGeneration now serial dst hv⟩
  | step _ hs ih =>
    obtain ⟨posted, begun, hinv⟩ := ih
    exact hinv.step hc hs

end Inv

/-- A socket address is resolved to itself. -/
def Options.ResolvesLiterals (opts : Options) : Prop :=
  ∀ addr source, opts.resolves (.socketAddress addr) source → source = addr

/-- **The origin of a payload.** Whatever sessions have used the connection before, and however
    late their frames arrive: a payload that a session with number `sn` hands to its application
    was received by the server from the address to which it has resolved the address of a DATA
    request with `conn_id` `sn` on this connection. If no earlier session had this number, that is
    the address of the session's own destination. -/
theorem payload_origin (hc : Lawful opts.codec) (hliteral : opts.ResolvesLiterals)
    (h : Reachable opts l) {dst : Address} {v : SessionVars} {payload : List UInt8}
    (hpc : l.client = .session dst (.delivering v payload)) :
    ∃ g source reqAddr earlier, ⟨v.sn, reqAddr⟩ ∈ l.requests ∧
      (⟨v.sn, reqAddr⟩, source) ∈ l.resolved ∧ opts.resolves reqAddr source ∧
      ⟨g, source, payload⟩ ∈ l.server.received ∧ l.sessions = ⟨v.sn, dst⟩ :: earlier ∧
      ((∀ x ∈ earlier, x.serial ≠ v.sn) → reqAddr = dst.plain ∧
        ∀ addr, dst.plain = .socketAddress addr → source = addr) := by
  obtain ⟨posted, begun, hinv⟩ := Inv.reachable hc h
  obtain ⟨serial, earlier, hsessions, hholds⟩ := hinv.tenant _ _ hpc
  obtain rfl : v.sn = serial := hholds.1
  obtain ⟨g, source, hopened, hreceived⟩ := hinv.delivering _ _ _ hpc
  obtain ⟨reqAddr, hresolved⟩ := hinv.logged.opened _ hopened
  obtain ⟨hrequest, hresolves⟩ := hinv.logged.resolved _ hresolved
  refine ⟨g, source, reqAddr, earlier, hrequest, hresolved, hresolves, hreceived, hsessions,
    fun hfirst => ?_⟩
  have hown : reqAddr = dst.plain := by
    obtain ⟨x, hx, heq⟩ := hinv.logged.requests _ hrequest
    obtain ⟨hserial, haddr⟩ := DataRequest.mk.inj heq
    rw [hsessions] at hx
    rcases List.mem_cons.mp hx with rfl | hx
    · exact haddr
    · exact absurd hserial.symm (hfirst x hx)
  refine ⟨hown, fun addr haddr => hliteral addr source ?_⟩
  rw [← haddr, ← hown]
  exact hresolves

end Invariant

/-! ## 8. A sample run -/

section Sample

/-- A client and a server for socket addresses. -/
def sampleOptions : Options where
  client := UdpGwClient.sampleConfig
  udpMtu := 1500
  idleMs := 30000
  resolves addr source := addr = .socketAddress source

theorem sampleOptions_resolvesLiterals : sampleOptions.ResolvesLiterals := by
  intro addr source h
  cases h
  rfl

/-- A frame that arrives in one piece. -/
theorem retrieve_piece {codec : AsyncAddressCodec} (ha : codec.Agrees) {frame : List UInt8}
    {p : Packet} (hreads : Reads (retrieveFromStream codec.toAddressCodec) frame p)
    (hne : frame ≠ []) : retrieveFromAsyncStream codec [⟨frame, hne⟩] = .ok (p, []) := by
  have hread : retrieveFromStream codec.toAddressCodec (joined [⟨frame, hne⟩]) = .ok (p, []) :=
    hreads []
  obtain ⟨pieces, hpieces, hrest⟩ := (agrees_retrieve ha).complete hread
  cases pieces with
  | nil => exact hpieces
  | cons piece pieces => exact absurd (List.append_eq_nil_iff.mp hrest).1 piece.ne_nil

/-- The session of the sample asks for a reply and is about to hand it on. -/
theorem sample_delivering :
    ∃ l v, Reachable sampleOptions l ∧ v.sn = 8 ∧
      l.client = .session (.socketAddress Udpgw.sampleDst) (.delivering v [104, 105]) ∧
      l.sessions = [⟨8, .socketAddress Udpgw.sampleDst⟩] := by
  have hc := UdpGwClient.sampleConfig_lawful
  -- what client and server compute on the way
  have hsend : sendUdpgwPacket sampleOptions.client [63] (.socketAddress Udpgw.sampleDst) 8 =
      .ok Udpgw.sampleRequest := rfl
  have hrequest : buildPacketFromAddress socks5Address 8 (.socketAddress Udpgw.sampleDst) [63] =
      .ok Udpgw.sampleRequest := rfl
  have hreply : buildPacketFromAddress socks5Address 8 (.socketAddress Udpgw.sampleDst)
      [104, 105] = .ok Udpgw.sampleItem.packet := rfl
  have hread := retrieve_piece hc.agrees (codes_built hc hrequest) (by decide)
  have harrived : [] ++ joined [⟨Udpgw.sampleRequest.writeToBuf socks5Address, by decide⟩] <+:
      [] ++ Udpgw.sampleRequest.writeToBuf socks5Address :=
    ⟨[], by rw [joined_cons, joined_nil, List.append_nil, List.append_nil]⟩
  have hframe : Udpgw.sampleItem.packet.writeToBuf socks5Address =
      Udpgw.sampleItem.packet.writeToBuf socks5Address ++ [] := (List.append_nil _).symm
  have hfound : tryAcc socks5Address 1500
      (Udpgw.sampleItem.packet.writeToBuf socks5Address ++ []) =
        some (.ok (_, .data Udpgw.sampleItem.packet), []) :=
    tryAcc_of_reads hc.roundTrips.framed (codes_built hc hreply) rfl
  rw [List.append_nil] at hfound
  -- the request
  have h : Reachable sampleOptions _ := .start 0 0 8 (.socketAddress Udpgw.sampleDst) rfl
  have h := h.step (.session rfl 0 (.appData hsend) List.nil_prefix)
  have h := h.step (.session rfl 0
    (.write (Udpgw.sampleRequest.writeToBuf socks5Address) []) List.nil_prefix)
  have h := h.step (.session rfl 0 .sent List.nil_prefix)
  -- the server opens a session for it
  have h := h.step (.packet rfl hread harrived)
  have h := h.step (.request
    (.miss (r := ⟨8, .socketAddress Udpgw.sampleDst⟩) rfl nofun) nofun nofun)
  have h := h.step (.request (.lockReplace rfl rfl) nofun nofun)
  have h := h.step (.request (.insert rfl) nofun nofun)
  have h := h.step (.request (.switched rfl) nofun nofun)
  have h := h.step (.request (.resolve rfl Udpgw.sampleDst) nofun fun x hx => by cases hx; rfl)
  have h := h.step (.request (.lockOpen rfl rfl) nofun nofun)
  have h := h.step (.request (.bind rfl) nofun nofun)
  have h := h.step (.request (.sent rfl) nofun nofun)
  have h := h.step (.request (.spawn rfl) nofun nofun)
  -- and answers
  have h := h.step (.relay (g := 0) rfl (.receive rfl [104, 105]))
  have h := h.step (.relay (g := 0) rfl (.relay rfl rfl rfl))
  have h := h.step (.relay (g := 0) rfl (.queue rfl (by decide)))
  have h := h.step (.writer (.recv rfl rfl) nofun)
  have h := h.step (.writer (.lock rfl rfl) nofun)
  have h := h.step (.writer (.current rfl rfl) nofun)
  have h := h.step (.emit rfl hframe)
  -- the session reads the answer
  have h := h.step (.session rfl 0
    (.read ⟨Udpgw.sampleItem.packet.writeToBuf socks5Address, by decide, by decide⟩ rfl)
    List.prefix_rfl)
  have h := h.step (.session rfl 0 (.response hfound) List.prefix_rfl)
  exact ⟨_, _, h, rfl, rfl, rfl⟩

theorem sample_payload_origin :
    ∃ l v g, Reachable sampleOptions l ∧
      l.client = .session (.socketAddress Udpgw.sampleDst) (.delivering v [104, 105]) ∧
      ⟨g, Udpgw.sampleDst, [104, 105]⟩ ∈ l.server.received := by
  obtain ⟨l, v, h, hsn, hpc, hsessions⟩ := sample_delivering
  obtain ⟨g, source, reqAddr, earlier, -, -, -, hreceived, hlog, hown⟩ :=
    payload_origin UdpGwClient.sampleConfig_lawful sampleOptions_resolvesLiterals h hpc
  -- there was no session before
  obtain rfl : earlier = [] := (List.cons.inj (hlog.symm.trans hsessions)).2
  obtain rfl := (hown nofun).2 Udpgw.sampleDst rfl
  exact ⟨l, v, g, h, hpc, hreceived⟩

end Sample

end UdpgwLink

end Tun2Proxy
