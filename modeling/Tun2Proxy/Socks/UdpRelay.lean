/-
  File:      Tun2Proxy/Socks/UdpRelay.lean
  Subject:   Datagrams of a UDP association (`handle_udp_associate_session`, src/lib.rs).

  After the handshake a session has two sockets, and its loop takes datagrams from both: those of
  the TUN get a SOCKS5 header and go to the relay, those of the relay lose it and go to the TUN.
  Sockets and TUN do not fail here, so a session ends when the TUN closes, or with an error of its
  own. `RelayEvent`s come in any order.

  A datagram of the relay that is no SOCKS5 packet is dropped. Behind the header, only sessions to
  port 53 look further, and there a payload that is no DNS message ends the session.
-/
import Tun2Proxy.Dns.Relay
import Tun2Proxy.Net.Address

namespace Tun2Proxy

open BigEndian Decoder

/-! ## 1. The session -/

inductive ProxyType where
  | http
  | socks4
  | socks5
  | none
  deriving DecidableEq, Repr

def ProxyType.isSocks : ProxyType → Bool
  | .socks4 => true
  | .socks5 => true
  | _ => false

/-- `UdpHeader` of socks5_impl: two reserved bytes, the number of the fragment and an address. -/
structure UdpHeader where
  frag : UInt8
  address : Address

def UdpHeader.len (codec : AddressCodec) (header : UdpHeader) : Nat := 3 + codec.len header.address

def UdpHeader.retrieveFromStream (codec : AddressCodec) : Decoder UInt8 Error UdpHeader := do
  let _ ← readExact 2
  let frag ← readField 1
  let address ← codec.retrieveFromStream
  pure ⟨UInt8.ofNat frag, address⟩

def UdpHeader.writeToStream (codec : AddressCodec) (header : UdpHeader) : List UInt8 :=
  [0, 0, header.frag] ++ codec.writeToBuf header.address

def DNS_PORT : UInt16 := 53

/-- What the loop reads of its session. -/
structure UdpSession where
  proxyType : ProxyType
  info : SessionInfo
  domainName : Option Str
  ipv6Enabled : Bool

inductive RelayEvent where
  | fromTun (data : List UInt8)
  | tunClosed
  | fromRelay (data : List UInt8)

/-- What went out, first datagram first. -/
structure RelayLog where
  toRelay : List (List UInt8)
  toTun : List (List UInt8)

namespace UdpSession

variable {Record Signature Rest : Type} (codec : AddressCodec)
  (dns : DnsLibrary Record Signature Rest) (self : UdpSession)

/-- The branch for a datagram of the TUN. -/
def wrap (data : List UInt8) : List UInt8 :=
  if self.proxyType.isSocks then
    let address :=
      match self.domainName with
      | some domainName => .domainAddress domainName self.info.dst.port
      | Option.none => .socketAddress self.info.dst
    UdpHeader.writeToStream codec ⟨0, address⟩ ++ data
  else data

/-- The payload of a session to port 53 is read and written again. -/
def rewriteDns (data : List UInt8) : Except Error (List UInt8) :=
  match dns.fromVec data with
  | .error e => .error (.string e)
  | .ok message =>
    let message := if self.ipv6Enabled then message else removeIpv6Entries dns message
    match dns.toVec message with
    | .error e => .error (.string s!"DnsProtoError {e}")
    | .ok packet => .ok packet

/-- The branch for a datagram of the relay: what the TUN gets, or nothing. -/
def unwrap (data : List UInt8) : Except Error (Option (List UInt8)) :=
  if self.proxyType.isSocks then
    if data.length < 4 ∨ data.take 3 ≠ [0, 0, 0] then .ok Option.none
    else
      match UdpHeader.retrieveFromStream codec data with
      | .error _ => .ok Option.none
      | .ok (header, _) =>
        let data := data.drop (header.len codec)
        if self.info.dst.port = DNS_PORT then
          match self.rewriteDns dns data with
          | .error e => .error e
          | .ok packet => .ok (some packet)
        else .ok (some data)
  else .ok (some data)

/-- The loop, on the datagrams as they come; without a result it waits for the next. -/
def relay : List RelayEvent → RelayLog → RelayLog × Option (Except Error Unit)
  | [], log => (log, Option.none)
  | .fromTun data :: events, log =>
    relay events { log with toRelay := log.toRelay ++ [self.wrap codec data] }
  | .tunClosed :: _, log => (log, some (.ok ()))
  | .fromRelay data :: events, log =>
    match self.unwrap codec dns data with
    | .error e => (log, some (.error e))
    | .ok Option.none => relay events log
    | .ok (some packet) => relay events { log with toTun := log.toTun ++ [packet] }

/-! ## 2. What a datagram carries -/

/-- The payload of a SOCKS5 packet that is no fragment: what follows three zeros and an address. -/
def payload (data : List UInt8) : Option (List UInt8) :=
  if data.length < 4 ∨ data.take 3 ≠ [0, 0, 0] then Option.none
  else
    match codec.retrieveFromStream (data.drop 3) with
    | .ok (_, content) => some content
    | .error _ => Option.none

/-- What the TUN is to get for a payload: the payload, for DNS in an IPv4 network without its AAAA
    records. -/
def Carries (data packet : List UInt8) : Prop :=
  if self.info.dst.port = DNS_PORT ∧ self.ipv6Enabled = false then
    ∃ message, dns.fromVec data = .ok message ∧
      dns.toVec (removeIpv6Entries dns message) = .ok packet
  else packet = data

/-- A payload the session can pass on: for DNS what hickory writes for a message, and where AAAA
    records are filtered, any message it reads and can write without them. -/
def Passable (data : List UInt8) : Prop :=
  self.info.dst.port = DNS_PORT →
    if self.ipv6Enabled then ∃ message, dns.toVec message = .ok data
    else
      ∃ message packet, dns.fromVec data = .ok message ∧
        dns.toVec (removeIpv6Entries dns message) = .ok packet

/-- The datagrams of the relay until the TUN closes. -/
def received : List RelayEvent → List (List UInt8)
  | [] => []
  | .fromTun _ :: events => received events
  | .tunClosed :: _ => []
  | .fromRelay data :: events => data :: received events

/-- What is delivered for a row of datagrams: for each a packet that it carries, or nothing where
    it has no payload. -/
inductive Delivers : List (List UInt8) → List (List UInt8) → Prop
  | nil : Delivers [] []
  | drop {data : List UInt8} {datagrams packets : List (List UInt8)}
      (malformed : payload codec data = Option.none) (later : Delivers datagrams packets) :
      Delivers (data :: datagrams) packets
  | pass {data content packet : List UInt8} {datagrams packets : List (List UInt8)}
      (wellFormed : payload codec data = some content) (carried : self.Carries dns content packet)
      (later : Delivers datagrams packets) :
      Delivers (data :: datagrams) (packet :: packets)

/-- The loop returns no error, and what it has added to the log is delivered for the datagrams of
    the relay. -/
def Survives (events : List RelayEvent) (log : RelayLog) : Prop :=
  (∀ e, (self.relay codec dns events log).2 ≠ some (.error e)) ∧
    ∃ packets, Delivers codec dns self (received events) packets ∧
      (self.relay codec dns events log).1.toTun = log.toTun ++ packets

variable {codec dns self}

/-- The header is read by its bytes: three of its own and those of the address. -/
theorem retrieveHeader_of_zero (rest : List UInt8) :
    UdpHeader.retrieveFromStream codec ([0, 0, 0] ++ rest) =
      match codec.retrieveFromStream rest with
      | .ok (address, data) => .ok (⟨0, address⟩, data)
      | .error e => .error e := by
  have hreserved : readExact 2 ([0, 0, 0] ++ rest) = .ok ([0, 0], [0] ++ rest) :=
    take_ok.mpr ⟨rfl, rfl⟩
  have hfrag : readField 1 ([0] ++ rest) = .ok (0, rest) :=
    readField_ok.mpr ⟨by decide, rfl⟩
  unfold UdpHeader.retrieveFromStream
  rw [bind_of_ok hreserved, bind_of_ok hfrag]
  cases haddress : codec.retrieveFromStream rest with
  | ok found =>
    rw [bind_of_ok haddress]
    rfl
  | error e => rw [bind_error haddress]

variable {data : List UInt8}

theorem split_of_shape (h : ¬ (data.length < 4 ∨ data.take 3 ≠ [0, 0, 0])) :
    data = [0, 0, 0] ++ data.drop 3 := by
  obtain ⟨-, hzero⟩ := not_or.mp h
  rw [← not_not.mp hzero]
  exact (List.take_append_drop 3 data).symm

/-- A datagram without a payload is dropped. -/
theorem unwrap_malformed (hsocks : self.proxyType.isSocks = true)
    (h : payload codec data = Option.none) : self.unwrap codec dns data = .ok Option.none := by
  unfold unwrap
  rw [if_pos hsocks]
  unfold payload at h
  split
  · rfl
  · rename_i hshape
    rw [if_neg hshape] at h
    have hheader := @retrieveHeader_of_zero codec (data.drop 3)
    rw [← split_of_shape hshape] at hheader
    split at h
    · cases h
    · rename_i e herror
      rw [hheader, herror]

variable {content : List UInt8}

/-- The payload that is passed on is the one behind the header. -/
theorem unwrap_wellFormed (hframed : codec.Framed) (hsocks : self.proxyType.isSocks = true)
    (h : payload codec data = some content) :
    self.unwrap codec dns data =
      if self.info.dst.port = DNS_PORT then (self.rewriteDns dns content).map some
      else .ok (some content) := by
  unfold payload at h
  split at h
  · cases h
  · rename_i hshape
    have hheader := @retrieveHeader_of_zero codec (data.drop 3)
    rw [← split_of_shape hshape] at hheader
    split at h
    · rename_i address behind hread
      cases h
      obtain ⟨used, hsplit, hused, -⟩ := hframed hread
      have hdrop : data.drop (3 + codec.len address) = content := by
        rw [← List.drop_drop, hsplit, ← hused]
        exact List.drop_left
      unfold unwrap
      rw [if_pos hsocks, if_neg hshape, hheader, hread]
      simp only [UdpHeader.len, hdrop]
      split
      · cases self.rewriteDns dns content with
        | ok packet => rfl
        | error e => rfl
      · rfl
    · cases h

theorem unwrap_ne_none (hframed : codec.Framed) (hsocks : self.proxyType.isSocks = true)
    (h : payload codec data = some content) : self.unwrap codec dns data ≠ .ok Option.none := by
  rw [unwrap_wellFormed hframed hsocks h]
  split
  · cases self.rewriteDns dns content <;> simp [Except.map]
  · simp

theorem rewriteDns_ok {packet : List UInt8} : self.rewriteDns dns data = .ok packet ↔
    ∃ message, dns.fromVec data = .ok message ∧
      dns.toVec (if self.ipv6Enabled then message else removeIpv6Entries dns message) =
        .ok packet := by
  unfold rewriteDns
  cases dns.fromVec data with
  | error e => simp
  | ok message =>
    simp only [Except.ok.injEq, exists_eq_left']
    cases dns.toVec (if self.ipv6Enabled then message else removeIpv6Entries dns message) <;> simp

/-- Exactly the payloads that can be passed on are delivered as what they carry. -/
theorem unwrap_carries (hframed : codec.Framed) (hdns : dns.RoundTrips)
    (hsocks : self.proxyType.isSocks = true) (h : payload codec data = some content) :
    (∃ packet, self.unwrap codec dns data = .ok (some packet) ∧
      self.Carries dns content packet) ↔ self.Passable dns content := by
  rw [unwrap_wellFormed hframed hsocks h]
  unfold Passable Carries
  by_cases hport : self.info.dst.port = DNS_PORT
  · have hmap : ∀ packet, (self.rewriteDns dns content).map some = .ok (some packet) ↔
        self.rewriteDns dns content = .ok packet := by
      intro packet
      cases self.rewriteDns dns content <;> simp [Except.map]
    simp only [hport, hmap, rewriteDns_ok, forall_const, if_true, true_and]
    cases hv6 : self.ipv6Enabled with
    | true =>
      simp only [if_true, Bool.true_eq_false, if_false, exists_eq_right]
      exact exists_congr fun message => ⟨And.right, fun hwrite => ⟨hdns _ _ hwrite, hwrite⟩⟩
    | false =>
      simp only [if_true, Bool.false_eq_true, if_false]
      constructor
      · rintro ⟨packet, ⟨message, hread, hwrite⟩, -⟩
        exact ⟨message, packet, hread, hwrite⟩
      · rintro ⟨message, packet, hread, hwrite⟩
        exact ⟨packet, ⟨message, hread, hwrite⟩, message, hread, hwrite⟩
  · simp [hport]

/-! ## 3. The whole run -/

theorem relay_toTun (events : List RelayEvent) (log : RelayLog) :
    ∃ sent, (self.relay codec dns events log).1.toTun = log.toTun ++ sent := by
  induction events generalizing log with
  | nil => exact ⟨[], (List.append_nil _).symm⟩
  | cons event events ih =>
    cases event with
    | fromTun data => exact ih _
    | tunClosed => exact ⟨[], (List.append_nil _).symm⟩
    | fromRelay data =>
      unfold relay
      split
      · exact ⟨[], (List.append_nil _).symm⟩
      · exact ih log
      · rename_i packet _
        obtain ⟨sent, hsent⟩ := ih { log with toTun := log.toTun ++ [packet] }
        exact ⟨packet :: sent, by rw [hsent, List.append_assoc]; rfl⟩

/-- A datagram with a payload: it has to deliver what it carries, and the rest has to survive. -/
theorem survives_payload (hframed : codec.Framed) (hsocks : self.proxyType.isSocks = true)
    (h : payload codec data = some content) (events : List RelayEvent) (log : RelayLog) :
    self.Survives codec dns (.fromRelay data :: events) log ↔
      ∃ packet, (self.unwrap codec dns data = .ok (some packet) ∧
        self.Carries dns content packet) ∧
        self.Survives codec dns events { log with toTun := log.toTun ++ [packet] } := by
  have hrelay : self.relay codec dns (.fromRelay data :: events) log =
      match self.unwrap codec dns data with
      | .error e => (log, some (.error e))
      | .ok Option.none => self.relay codec dns events log
      | .ok (some packet) =>
        self.relay codec dns events { log with toTun := log.toTun ++ [packet] } := rfl
  unfold Survives
  rw [hrelay]
  constructor
  · rintro ⟨hno, packets, hdelivers, hlog⟩
    cases hdelivers with
    | drop malformed _ => cases h.symm.trans malformed
    | @pass _ _ packet _ packets wellFormed carried later =>
      cases h.symm.trans wellFormed
      cases hunwrap : self.unwrap codec dns data with
      | error e =>
        rw [hunwrap] at hno
        exact absurd rfl (hno e)
      | ok found =>
        rw [hunwrap] at hno hlog
        cases found with
        | none => exact absurd hunwrap (unwrap_ne_none hframed hsocks h)
        | some sent =>
          obtain ⟨more, hmore⟩ := @relay_toTun _ _ _ codec dns self events
            { log with toTun := log.toTun ++ [sent] }
          dsimp only at hno hlog hmore
          have hsame := hmore.symm.trans hlog
          rw [List.append_assoc, List.append_cancel_left_eq] at hsame
          obtain ⟨rfl, rfl⟩ := List.cons.inj hsame
          exact ⟨_, ⟨rfl, carried⟩, hno, _, later, hmore⟩
  · rintro ⟨packet, ⟨hunwrap, hcarries⟩, hno, packets, hdelivers, hlog⟩
    rw [hunwrap]
    refine ⟨hno, packet :: packets, .pass h hcarries hdelivers, ?_⟩
    rw [hlog, List.append_assoc]
    rfl

theorem survives_malformed (hsocks : self.proxyType.isSocks = true)
    (h : payload codec data = Option.none) (events : List RelayEvent) (log : RelayLog) :
    self.Survives codec dns (.fromRelay data :: events) log ↔
      self.Survives codec dns events log := by
  have hdrop : self.unwrap codec dns data = .ok Option.none := unwrap_malformed hsocks h
  unfold Survives
  rw [relay, hdrop]
  refine and_congr_right fun _ => exists_congr fun packets => and_congr_left fun _ => ?_
  constructor
  · intro hdelivers
    cases hdelivers with
    | drop _ later => exact later
    | pass wellFormed _ _ => cases h.symm.trans wellFormed
  · exact .drop h

/-- **No datagram of the relay ends the association, or is delivered as something else, iff the
    payloads of DNS sessions can be passed on**: then each datagram is dropped or delivers what it
    carries, in order, and the loop ends only when the TUN closes. -/
theorem association_survives (codec : AddressCodec) (hframed : codec.Framed)
    (dns : DnsLibrary Record Signature Rest) (hdns : dns.RoundTrips) (self : UdpSession)
    (hsocks : self.proxyType.isSocks = true) (events : List RelayEvent) (log : RelayLog) :
    self.Survives codec dns events log ↔
      ∀ data ∈ received events, ∀ content, payload codec data = some content →
        self.Passable dns content := by
  have hend : ∀ log : RelayLog, ∃ packets, Delivers codec dns self [] packets ∧
      log.toTun = log.toTun ++ packets := fun log => ⟨[], .nil, (List.append_nil _).symm⟩
  induction events generalizing log with
  | nil => exact ⟨fun _ => nofun, fun _ => ⟨nofun, hend log⟩⟩
  | cons event events ih =>
    cases event with
    | fromTun data => exact ih _
    | tunClosed => exact ⟨fun _ => nofun, fun _ => ⟨nofun, hend log⟩⟩
    | fromRelay data =>
      rw [received, List.forall_mem_cons]
      cases hpayload : payload codec data with
      | none =>
        have hrest := (survives_malformed hsocks hpayload events log).trans (ih log)
        exact hrest.trans (and_iff_right nofun).symm
      | some content =>
        simp only [survives_payload hframed hsocks hpayload, ih, exists_and_right,
          unwrap_carries hframed hdns hsocks hpayload, Option.some.injEq, forall_eq']

end UdpSession

/-! ## 4. A session to a DNS server -/

def dnsSession (ipv6Enabled : Bool) : UdpSession where
  proxyType := .socks5
  info := ⟨.v4 0x0A000002#32 40000, .v4 0x08080808#32 53⟩
  domainName := none
  ipv6Enabled

/-- A SOCKS5 packet from 8.8.8.8:53. -/
def fromResolver (content : List UInt8) : List UInt8 := [0, 0, 0, 1, 8, 8, 8, 8, 0, 53] ++ content

/-- A fragment, a packet of an unknown kind, and an answer with an A and an AAAA record. -/
def sampleRelayEvents : List RelayEvent :=
  [.fromRelay [0, 0, 1, 1, 8, 8, 8, 8, 0, 53], .fromRelay [0, 0, 0, 9],
    .fromRelay (fromResolver (sampleResponseBytes 160 1 1 1 ++ sampleABytes ++ sampleAaaaBytes))]

theorem sample_association_survives :
    (dnsSession false).Survives socks5Address wireNames.toDnsLibrary sampleRelayEvents ⟨[], []⟩ ∧
      ((dnsSession false).relay socks5Address wireNames.toDnsLibrary sampleRelayEvents
        ⟨[], []⟩).1.toTun = [sampleResponseBytes 128 1 1 0 ++ sampleABytes] := by
  refine ⟨(UdpSession.association_survives socks5Address socks5Address_roundTrips.framed
    wireNames.toDnsLibrary wireNames_roundTrips (dnsSession false) rfl sampleRelayEvents
    ⟨[], []⟩).mpr ?_, by decide +kernel⟩
  intro data hdata content hcontent _
  rcases List.mem_cons.mp hdata with rfl | hdata
  · cases hcontent
  rcases List.mem_cons.mp hdata with rfl | hdata
  · cases hcontent
  · cases List.mem_singleton.mp hdata
    cases hcontent
    exact ⟨sampleResponse 1 [sampleA] [sampleAaaa], sampleResponseBytes 128 1 1 0 ++ sampleABytes,
      by decide +kernel, by decide +kernel⟩

/-- A resolver's packet with three bytes of payload, which is no DNS message, ends the association
    with an error, and the answer behind it is not delivered. -/
theorem short_payload_ends_association :
    UdpSession.payload socks5Address (fromResolver [1, 2, 3]) = some [1, 2, 3] ∧
      (dnsSession false).relay socks5Address wireNames.toDnsLibrary
        [.fromRelay (fromResolver [1, 2, 3]),
          .fromRelay (fromResolver (sampleResponseBytes 160 1 1 0 ++ sampleABytes))] ⟨[], []⟩ =
        (⟨[], []⟩, some (.error (.string "unexpected end of input reached"))) :=
  ⟨rfl, rfl⟩

end Tun2Proxy
