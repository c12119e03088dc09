/-
  File:      Tun2Proxy/Udpgw/Packet.lean
  Subject:   The udpgw packet and its wire format (src/udpgw.rs).

  A frame is a 16-bit length, the flags, the connection id, an address when the DATA flag is set,
  and the payload up to the length. `write_to_buf` writes a packet, `try_from` reads one off the
  front of a byte string, `retrieve_from_stream` reads one from a stream.

  The main lemma is `tryFrom_ok`: `try_from` accepts exactly the encodings of the well-formed
  packets, with anything after them. Both directions of the round trip come from it.
-/
import Tun2Proxy.Net.Address

namespace Tun2Proxy

open BigEndian Decoder

/-! ## 1. Packets -/

def UDPGW_LENGTH_FIELD_SIZE : Nat := 2

def u16Max : Nat := 2 ^ 16 - 1

structure UdpFlag where
  bits : UInt8
  deriving DecidableEq, Repr

namespace UdpFlag

def KEEPALIVE : UdpFlag := ⟨0x01⟩
def DATA : UdpFlag := ⟨0x02⟩
def CLOSE : UdpFlag := ⟨0x04⟩
def ERR : UdpFlag := ⟨0x20⟩

instance : AndOp UdpFlag := ⟨fun a b => ⟨a.bits &&& b.bits⟩⟩

end UdpFlag

structure UdpgwHeader where
  flags : UdpFlag
  connId : UInt16
  deriving DecidableEq, Repr

namespace UdpgwHeader

def staticLen : Nat := 1 + 2

def len (_ : UdpgwHeader) : Nat := staticLen

/-- `Vec::from(&UdpgwHeader)`. -/
def writeToBuf (self : UdpgwHeader) : List UInt8 := self.flags.bits :: bytes 2 self.connId.toNat

def tryFrom : List UInt8 → Except Error UdpgwHeader
  | flags :: hi :: lo :: _ => .ok ⟨⟨flags⟩, UInt16.ofNat (value [hi, lo])⟩
  | _ => .error (.ofKind .invalidData)

def retrieveFromStream : Decoder UInt8 Error UdpgwHeader := do
  let buf ← readExact staticLen
  tryFrom buf

end UdpgwHeader

structure Packet where
  header : UdpgwHeader
  address : Option Address
  data : List UInt8
  deriving DecidableEq, Repr

namespace Packet

def buildKeepalivePacket (connId : UInt16) : Packet := ⟨⟨.KEEPALIVE, connId⟩, none, []⟩

def buildClosePacket (connId : UInt16) : Packet := ⟨⟨.CLOSE, connId⟩, none, []⟩

def buildErrorPacket (connId : UInt16) : Packet := ⟨⟨.ERR, connId⟩, none, []⟩

def buildIpPacket (connId : UInt16) (remoteAddr : SocketAddr) (data : List UInt8) : Packet :=
  ⟨⟨.DATA, connId⟩, some (.socketAddress remoteAddr), data⟩

section Codec

variable (codec : AddressCodec)

/-- `read_len`: how many bytes the header and the address take. -/
def readLen (header : UdpgwHeader) (address : Option Address) : Nat :=
  header.len + (address.map codec.len).getD 0

def len (self : Packet) : Nat :=
  UDPGW_LENGTH_FIELD_SIZE + self.header.len + (self.address.map codec.len).getD 0 +
    self.data.length

/-- `write_to_buf`; the length is written `as u16`. -/
def writeToBuf (self : Packet) : List UInt8 :=
  bytes 2 (self.len codec - UDPGW_LENGTH_FIELD_SIZE) ++ (self.header.writeToBuf ++
    ((self.address.map codec.writeToBuf).getD [] ++ self.data))

/-- The check of both builders: the frame must fit its length field. -/
def checkFrameLength (packet : Packet) : Except Error Packet :=
  if u16Max < packet.len codec - UDPGW_LENGTH_FIELD_SIZE then
    .error (.io .invalidInput "udpgw packet exceeds maximum frame length")
  else .ok packet

def buildDomainPacket (connId port : UInt16) (domain : Str) (data : List UInt8) :
    Except Error Packet :=
  if 255 < domain.len then .error (.io .invalidInput "domain name exceeds 255 characters")
  else checkFrameLength codec ⟨⟨.DATA, connId⟩, some (.domainAddress domain port), data⟩

def buildPacketFromAddress (connId : UInt16) (remoteAddr : Address) (data : List UInt8) :
    Except Error Packet := do
  let packet ← match remoteAddr with
    | .socketAddress addr => pure (buildIpPacket connId addr data)
    | .domainAddress domain port => buildDomainPacket codec connId port domain data
  checkFrameLength codec packet

/-- The part all readers share: the header, and the address if the DATA flag is set. -/
def retrieveHead : Decoder UInt8 Error (UdpgwHeader × Option Address) := do
  let header ← UdpgwHeader.retrieveFromStream
  if header.flags &&& .DATA = .DATA then
    let address ← codec.retrieveFromStream
    pure (header, some address)
  else pure (header, none)

/-- `Packet::try_from(&[u8])`. -/
def tryFrom (input : List UInt8) : Except Error Packet :=
  if input.length < UDPGW_LENGTH_FIELD_SIZE then .error (.io .invalidData "frame too short")
  else
    let length := value (input.take UDPGW_LENGTH_FIELD_SIZE)
    let total := length + UDPGW_LENGTH_FIELD_SIZE
    if input.length < total then .error (.io .invalidData "incomplete frame")
    else
      match retrieveHead codec ((input.take total).drop UDPGW_LENGTH_FIELD_SIZE) with
      | .error e => .error e
      | .ok ((header, address), iter) =>
        if length < readLen codec header address then
          .error (.io .invalidData "length field smaller than header and address length")
        else .ok ⟨header, address, iter⟩

/-- `Packet::retrieve_from_stream`, after the length field. -/
def retrieveBody (length : Nat) : Decoder UInt8 Error Packet := do
  let (header, address) ← retrieveHead codec
  if length < readLen codec header address then throw (.ofKind .invalidData)
  let data ← readExact (length - readLen codec header address)
  pure ⟨header, address, data⟩

/-- `Packet::retrieve_from_stream`. -/
def retrieveFromStream : Decoder UInt8 Error Packet := do
  let length ← readField UDPGW_LENGTH_FIELD_SIZE
  retrieveBody codec length

end Codec

end Packet

/-! ## 2. What the readers accept -/

theorem UdpgwHeader.length_writeToBuf (header : UdpgwHeader) :
    header.writeToBuf.length = header.len := by
  simp [writeToBuf, len, staticLen]

theorem UdpgwHeader.retrieveFromStream_ok {header : UdpgwHeader} {input rest : List UInt8} :
    retrieveFromStream input = .ok (header, rest) ↔ input = header.writeToBuf ++ rest := by
  unfold retrieveFromStream
  rw [bind_ok]
  constructor
  · rintro ⟨buf, afterBuf, htake, h⟩
    obtain ⟨rfl, hlen⟩ := take_ok.mp htake
    obtain ⟨flags, hi, lo, rfl⟩ := List.length_eq_three.mp hlen
    cases h
    have hlt : value [hi, lo] < 256 ^ 2 := value_lt [hi, lo]
    have hport : bytes 2 (value [hi, lo]) = [hi, lo] := bytes_value [hi, lo]
    simp only [writeToBuf, UInt16.toNat_ofNat_of_lt' hlt, hport]
  · rintro rfl
    refine ⟨header.writeToBuf, rest, take_ok.mpr ⟨rfl, header.length_writeToBuf⟩, ?_⟩
    obtain ⟨⟨flags⟩, connId⟩ := header
    show Except.ok (UdpgwHeader.mk ⟨flags⟩ (UInt16.ofNat (value (bytes 2 connId.toNat))), rest) = _
    rw [value_bytes_of_lt connId.toNat_lt, UInt16.ofNat_toNat]

namespace Packet

section Codec

variable {codec : AddressCodec}

/-- The bytes of the header and the address. -/
def writeHead (codec : AddressCodec) (header : UdpgwHeader) (address : Option Address) :
    List UInt8 :=
  header.writeToBuf ++ (address.map codec.writeToBuf).getD []

/-- There is an address exactly when the DATA flag is set, and the format can hold it. -/
def HeadOk (header : UdpgwHeader) : Option Address → Prop
  | some address => header.flags &&& .DATA = .DATA ∧ address.Encodable
  | none => header.flags &&& .DATA ≠ .DATA

theorem length_writeHead (hc : codec.RoundTrips) (header : UdpgwHeader)
    (address : Option Address) :
    (writeHead codec header address).length = readLen codec header address := by
  unfold writeHead readLen
  rw [List.length_append, header.length_writeToBuf]
  cases address with
  | none => rfl
  | some addr => exact congrArg _ (hc.length addr)

variable {input rest : List UInt8}

theorem retrieveHead_ok (hc : codec.RoundTrips) {header : UdpgwHeader} {address : Option Address} :
    retrieveHead codec input = .ok ((header, address), rest) ↔
      HeadOk header address ∧ input = writeHead codec header address ++ rest := by
  unfold retrieveHead
  rw [bind_ok]
  constructor
  · rintro ⟨h, afterHeader, hheader, hrest⟩
    obtain rfl := UdpgwHeader.retrieveFromStream_ok.mp hheader
    by_cases hflag : h.flags &&& .DATA = .DATA
    · rw [if_pos hflag] at hrest
      obtain ⟨addr, afterAddr, haddr, hpure⟩ := bind_ok.mp hrest
      obtain ⟨rfl, he⟩ := hc.writes _ _ _ haddr
      cases hpure
      exact ⟨⟨hflag, he⟩, (List.append_assoc ..).symm⟩
    · rw [if_neg hflag] at hrest
      cases hrest
      exact ⟨hflag, by simp [writeHead]⟩
  · rintro ⟨hok, rfl⟩
    refine ⟨header, _, UdpgwHeader.retrieveFromStream_ok.mpr (List.append_assoc ..), ?_⟩
    cases address with
    | none =>
      rw [if_neg hok]
      rfl
    | some addr =>
      rw [if_pos hok.1]
      exact bind_ok.mpr ⟨addr, rest, hc.reads addr hok.2 rest, rfl⟩

/-- A packet the format can hold. -/
structure WellFormed (codec : AddressCodec) (p : Packet) : Prop where
  head : HeadOk p.header p.address
  fits : p.len codec - UDPGW_LENGTH_FIELD_SIZE ≤ u16Max

/-- What follows the length field. -/
def body (codec : AddressCodec) (p : Packet) : List UInt8 :=
  writeHead codec p.header p.address ++ p.data

theorem writeToBuf_eq (p : Packet) :
    p.writeToBuf codec = bytes 2 (p.len codec - UDPGW_LENGTH_FIELD_SIZE) ++ p.body codec := by
  simp only [writeToBuf, body, writeHead, List.append_assoc]

theorem length_body (hc : codec.RoundTrips) (p : Packet) :
    (p.body codec).length = p.len codec - UDPGW_LENGTH_FIELD_SIZE := by
  unfold body
  rw [List.length_append, length_writeHead hc]
  unfold len readLen
  omega

variable {p : Packet}

/-- The length field of a packet the format can hold is the number of bytes after it. -/
theorem writeToBuf_length_field (hc : codec.RoundTrips) (h : p.WellFormed codec) :
    p.writeToBuf codec = bytes 2 (p.body codec).length ++ p.body codec ∧
      value (bytes 2 (p.body codec).length) = (p.body codec).length := by
  rw [length_body hc]
  refine ⟨writeToBuf_eq p, value_bytes_of_lt ?_⟩
  have hfits := h.fits
  unfold u16Max at hfits
  omega

/-- An input that holds a whole frame: the length field, as many bytes, and what follows. -/
theorem exists_frame (htwo : UDPGW_LENGTH_FIELD_SIZE ≤ input.length)
    (htotal : value (input.take UDPGW_LENGTH_FIELD_SIZE) + UDPGW_LENGTH_FIELD_SIZE ≤ input.length) :
    ∃ field frame rest, input = field ++ (frame ++ rest) ∧
      field.length = UDPGW_LENGTH_FIELD_SIZE ∧ frame.length = value field := by
  refine ⟨input.take UDPGW_LENGTH_FIELD_SIZE,
    (input.drop UDPGW_LENGTH_FIELD_SIZE).take (value (input.take UDPGW_LENGTH_FIELD_SIZE)),
    (input.drop UDPGW_LENGTH_FIELD_SIZE).drop (value (input.take UDPGW_LENGTH_FIELD_SIZE)),
    ?_, List.length_take_of_le htwo, List.length_take_of_le ?_⟩
  · rw [List.take_append_drop, List.take_append_drop]
  · rw [List.length_drop]
    omega

variable {field frame : List UInt8}

theorem take_total (hfield : field.length = UDPGW_LENGTH_FIELD_SIZE) {n : Nat}
    (hframe : frame.length = n) :
    (field ++ (frame ++ rest)).take (n + UDPGW_LENGTH_FIELD_SIZE) = field ++ frame := by
  rw [← List.append_assoc]
  exact List.take_left' (by rw [List.length_append, hfield, hframe, Nat.add_comm])

/-- The frame of such an input. -/
theorem take_total_drop (hfield : field.length = UDPGW_LENGTH_FIELD_SIZE) {n : Nat}
    (hframe : frame.length = n) :
    ((field ++ (frame ++ rest)).take (n + UDPGW_LENGTH_FIELD_SIZE)).drop
      UDPGW_LENGTH_FIELD_SIZE = frame := by
  rw [take_total hfield hframe]
  exact List.drop_left' hfield

/-- `try_from` on an input that holds a whole frame reads the frame. -/
theorem tryFrom_frame (hfield : field.length = UDPGW_LENGTH_FIELD_SIZE)
    (hframe : frame.length = value field) :
    tryFrom codec (field ++ (frame ++ rest)) =
      match retrieveHead codec frame with
      | .error e => .error e
      | .ok ((header, address), iter) =>
        if frame.length < readLen codec header address then
          .error (.io .invalidData "length field smaller than header and address length")
        else .ok ⟨header, address, iter⟩ := by
  have hlen : (field ++ (frame ++ rest)).length =
      UDPGW_LENGTH_FIELD_SIZE + (frame.length + rest.length) := by
    rw [List.length_append, List.length_append, hfield]
  have htake : (field ++ (frame ++ rest)).take UDPGW_LENGTH_FIELD_SIZE = field :=
    List.take_left' hfield
  unfold tryFrom
  rw [if_neg (by omega)]
  simp only [htake, ← hframe]
  rw [if_neg (by omega), take_total_drop hfield rfl]

/-- What `try_from` accepts starts with a whole frame, and the frame with a header and an
    address. -/
theorem exists_frame_of_tryFrom (h : tryFrom codec input = .ok p) :
    ∃ field frame rest, input = field ++ (frame ++ rest) ∧
      field.length = UDPGW_LENGTH_FIELD_SIZE ∧ frame.length = value field ∧
      retrieveHead codec frame = .ok ((p.header, p.address), p.data) := by
  have htwo : UDPGW_LENGTH_FIELD_SIZE ≤ input.length := by
    by_contra hlt
    rw [tryFrom, if_pos (Nat.not_le.mp hlt)] at h
    cases h
  have htotal : value (input.take UDPGW_LENGTH_FIELD_SIZE) + UDPGW_LENGTH_FIELD_SIZE ≤
      input.length := by
    by_contra hlt
    rw [tryFrom, if_neg (Nat.not_lt.mpr htwo)] at h
    simp only [if_pos (Nat.not_le.mp hlt)] at h
    cases h
  obtain ⟨field, frame, rest, rfl, hfield, hframe⟩ := exists_frame htwo htotal
  refine ⟨field, frame, rest, rfl, hfield, hframe, ?_⟩
  rw [tryFrom_frame hfield hframe] at h
  cases hhead : retrieveHead codec frame with
  | error e => rw [hhead] at h; cases h
  | ok r =>
    obtain ⟨⟨header, address⟩, iter⟩ := r
    simp only [hhead] at h
    split at h
    · cases h
    · cases h
      rfl

/-- **`try_from` accepts exactly the encodings of the well-formed packets**, followed by
    anything. -/
theorem tryFrom_ok (hc : codec.RoundTrips) :
    tryFrom codec input = .ok p ↔
      p.WellFormed codec ∧ ∃ rest, input = p.writeToBuf codec ++ rest := by
  constructor
  · intro h
    obtain ⟨field, frame, rest, rfl, hfield, hframe, hhead⟩ := exists_frame_of_tryFrom h
    obtain ⟨hok, rfl⟩ := (retrieveHead_ok hc).mp hhead
    have hbody := length_body hc p
    have hlt := value_lt field
    rw [hfield, ← hframe] at hlt
    refine ⟨⟨hok, ?_⟩, rest, ?_⟩
    · rw [← hbody]
      exact Nat.le_of_lt_succ hlt
    · have hback : bytes 2 (body codec p).length = field := by
        have hvalue := bytes_value field
        rwa [hfield, ← hframe] at hvalue
      rw [writeToBuf_eq, ← hbody, hback, List.append_assoc field]
      rfl
  · rintro ⟨hwf, rest, rfl⟩
    obtain ⟨hwrite, hvalue⟩ := writeToBuf_length_field hc hwf
    have hframe : tryFrom codec (bytes 2 (p.body codec).length ++ (p.body codec ++ rest)) = _ :=
      tryFrom_frame (length_bytes _ _) hvalue.symm
    rw [hwrite, List.append_assoc, hframe]
    have hhead : retrieveHead codec (p.body codec) = .ok ((p.header, p.address), p.data) :=
      (retrieveHead_ok hc).mpr ⟨hwf.head, rfl⟩
    have hlen : ¬ (p.body codec).length < readLen codec p.header p.address := by
      unfold body
      rw [List.length_append, length_writeHead hc]
      omega
    rw [hhead]
    simp only [if_neg hlen]

/-! ## 3. The round trips -/

/-- An address without IPv6 flow information and scope id. -/
def PlainAddress : Address → Prop
  | .socketAddress (.v6 _ _ flowinfo scopeId) => flowinfo = 0 ∧ scopeId = 0
  | _ => True

/-- The length of a domain, zero for a socket address. -/
def domainLen : Address → Nat
  | .socketAddress _ => 0
  | .domainAddress domain _ => domain.len

theorem checkFrameLength_ok {q : Packet} :
    checkFrameLength codec p = .ok q ↔
      q = p ∧ p.len codec - UDPGW_LENGTH_FIELD_SIZE ≤ u16Max := by
  unfold checkFrameLength
  by_cases h : u16Max < p.len codec - UDPGW_LENGTH_FIELD_SIZE
  · rw [if_pos h]
    exact ⟨nofun, fun e => absurd h (Nat.not_lt.mpr e.2)⟩
  · rw [if_neg h]
    exact ⟨fun e => ⟨(Except.ok.inj e).symm, Nat.not_lt.mp h⟩, fun e => by rw [e.1]⟩

/-- `build_packet_from_address` builds one packet, or fails. -/
theorem buildPacketFromAddress_ok {connId : UInt16} {addr : Address} {data : List UInt8} :
    buildPacketFromAddress codec connId addr data = .ok p ↔
      p = ⟨⟨.DATA, connId⟩, some addr, data⟩ ∧ domainLen addr ≤ 255 ∧
        UdpgwHeader.staticLen + codec.len addr + data.length ≤ u16Max := by
  have hlen : len codec ⟨⟨.DATA, connId⟩, some addr, data⟩ - UDPGW_LENGTH_FIELD_SIZE =
      UdpgwHeader.staticLen + codec.len addr + data.length := by
    simp only [len, UdpgwHeader.len, Option.map_some, Option.getD_some]
    omega
  unfold buildPacketFromAddress
  cases addr with
  | socketAddress addr =>
    show checkFrameLength codec (buildIpPacket connId addr data) = .ok p ↔ _
    rw [checkFrameLength_ok, buildIpPacket, hlen]
    simp [domainLen]
  | domainAddress domain port =>
    show (buildDomainPacket codec connId port domain data).bind (checkFrameLength codec) = .ok p ↔
      _
    unfold buildDomainPacket domainLen
    by_cases hdomain : 255 < domain.len
    · rw [if_pos hdomain]
      simp [Except.bind, Nat.not_le.mpr hdomain]
    · -- the frame is checked twice, with the same answer
      rw [if_neg hdomain]
      cases hcheck : checkFrameLength codec
          ⟨⟨.DATA, connId⟩, some (.domainAddress domain port), data⟩ with
      | ok q =>
        obtain ⟨rfl, hfits⟩ := checkFrameLength_ok.mp hcheck
        show checkFrameLength codec _ = .ok p ↔ _
        rw [checkFrameLength_ok, hlen]
        simp [Nat.not_lt.mp hdomain]
      | error e =>
        refine ⟨nofun, fun ⟨_, _, hfits⟩ => ?_⟩
        cases hcheck.symm.trans (checkFrameLength_ok.mpr ⟨rfl, hlen ▸ hfits⟩)

/-- The packets the program sends. -/
inductive Built (codec : AddressCodec) : Packet → Prop
  | data {connId : UInt16} {addr : Address} {data : List UInt8} {p : Packet}
      (hplain : PlainAddress addr) (h : buildPacketFromAddress codec connId addr data = .ok p) :
      Built codec p
  | keepalive (connId : UInt16) : Built codec (buildKeepalivePacket connId)
  | close (connId : UInt16) : Built codec (buildClosePacket connId)
  | error (connId : UInt16) : Built codec (buildErrorPacket connId)

/-- A packet without address and payload, whose DATA flag is not set. -/
theorem wellFormed_bare {flags : UdpFlag} (h : flags &&& .DATA ≠ .DATA) (connId : UInt16) :
    WellFormed codec ⟨⟨flags, connId⟩, none, []⟩ := by
  refine ⟨h, ?_⟩
  show 2 + 3 + 0 + 0 - 2 ≤ u16Max
  decide

theorem Built.wellFormed (h : Built codec p) : p.WellFormed codec := by
  cases h with
  | keepalive connId => exact wellFormed_bare (by decide) connId
  | close connId => exact wellFormed_bare (by decide) connId
  | error connId => exact wellFormed_bare (by decide) connId
  | @data connId addr data _ hplain h =>
    obtain ⟨rfl, hdomain, hfits⟩ := buildPacketFromAddress_ok.mp h
    refine ⟨⟨show UdpFlag.DATA &&& UdpFlag.DATA = UdpFlag.DATA by decide, ?_⟩, ?_⟩
    · rcases addr with (_ | _) | _
      · trivial
      · exact hplain
      · exact hdomain
    · simp only [len, UdpgwHeader.len, Option.map_some, Option.getD_some]
      omega

/-- **The udpgw codec is a bijection.** A packet for an address is built exactly when the domain
    and the frame fit their length fields; what is built is read back, whatever follows, and its
    length field is the number of bytes after it; and what is read is what was written. -/
theorem packet_codec_bijective (hc : codec.RoundTrips) :
    (∀ connId addr data, (∃ p, buildPacketFromAddress codec connId addr data = .ok p) ↔
      domainLen addr ≤ 255 ∧ UdpgwHeader.staticLen + codec.len addr + data.length ≤ u16Max) ∧
    (∀ p, Built codec p →
      (∀ rest, tryFrom codec (p.writeToBuf codec ++ rest) = .ok p) ∧
      ∃ field body, p.writeToBuf codec = field ++ body ∧ field.length = UDPGW_LENGTH_FIELD_SIZE ∧
        value field = body.length) ∧
    ∀ input p, tryFrom codec input = .ok p →
      p.writeToBuf codec = input.take
        (value (input.take UDPGW_LENGTH_FIELD_SIZE) + UDPGW_LENGTH_FIELD_SIZE) := by
  refine ⟨fun connId addr data => ?_, fun p hp => ⟨fun rest => ?_, ?_⟩, fun input p h => ?_⟩
  · constructor
    · rintro ⟨p, hp⟩
      exact (buildPacketFromAddress_ok.mp hp).2
    · intro h
      exact ⟨_, buildPacketFromAddress_ok.mpr ⟨rfl, h⟩⟩
  · exact (tryFrom_ok hc).mpr ⟨hp.wellFormed, rest, rfl⟩
  · obtain ⟨hwrite, hvalue⟩ := writeToBuf_length_field hc hp.wellFormed
    exact ⟨_, _, hwrite, length_bytes _ _, hvalue⟩
  · obtain ⟨hwf, rest, rfl⟩ := (tryFrom_ok hc).mp h
    obtain ⟨hwrite, hvalue⟩ := writeToBuf_length_field hc hwf
    have hfield : (p.writeToBuf codec ++ rest).take UDPGW_LENGTH_FIELD_SIZE =
        bytes 2 (p.body codec).length := by
      rw [hwrite, List.append_assoc]
      exact List.take_left' (length_bytes _ _)
    rw [hfield, hvalue]
    refine (List.take_left' ?_).symm
    rw [hwrite, List.length_append, length_bytes, Nat.add_comm]
    rfl

end Codec

/-- A datagram from 203.0.113.9:51820, with the beginning of another frame after it. -/
theorem sample_packet_codec_bijective :
    ∃ p, buildPacketFromAddress socks5Address 8
        (.socketAddress (.v4 0xCB007109#32 51820)) [104, 105] = .ok p ∧
      p.writeToBuf socks5Address = [0, 12, 2, 0, 8, 1, 203, 0, 113, 9, 202, 108, 104, 105] ∧
      tryFrom socks5Address (p.writeToBuf socks5Address ++ [0, 3]) = .ok p := by
  obtain ⟨hbuild, hread, -⟩ := packet_codec_bijective socks5Address_roundTrips
  obtain ⟨p, hp⟩ := (hbuild 8 (.socketAddress (.v4 0xCB007109#32 51820)) [104, 105]).mpr
    ⟨by decide, by decide⟩
  have hplain : PlainAddress (.socketAddress (.v4 0xCB007109#32 51820)) := trivial
  refine ⟨p, hp, ?_, (hread p (.data hplain hp)).1 [0, 3]⟩
  rw [(buildPacketFromAddress_ok.mp hp).1]
  decide

end Packet

end Tun2Proxy
