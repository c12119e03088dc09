/-
  File:      Tun2Proxy/Udpgw/AsyncStream.lean
  Subject:   The three decoders of udpgw packets agree (src/udpgw.rs).

  `try_from` parses the address inside the frame. The decoders for streams parse it from the stream,
  which goes on behind the frame, and compare the lengths afterwards. An address that is parsed
  depends on the bytes it takes (`AddressCodec.Framed`), so one that would run past the end of the
  frame is refused by all of them (`tryFrom_framed`).

  An async reader delivers its bytes in pieces of any size, and `read_exact` reads until its buffer
  is full. Decoding an address from such a reader is the work of socks5_impl as well; it has to
  agree with decoding it from the bytes (`AsyncAddressCodec.Agrees`).
-/
import Tun2Proxy.Lib.Pieces
import Tun2Proxy.Udpgw.Reader

namespace Tun2Proxy

open BigEndian Decoder PieceDecoder Packet

/-! ## 1. Reading from an async stream -/

/-- `AsyncReadExt::read_exact` for a buffer of `n` bytes. -/
def asyncReadExact (n : Nat) : PieceDecoder UInt8 Error (List UInt8) :=
  gather (.ofKind .unexpectedEof) n

/-- A field of `w` bytes, read as a number. -/
def asyncReadField (w : Nat) : PieceDecoder UInt8 Error Nat := do
  let bytes ← asyncReadExact w
  pure (value bytes)

theorem agrees_readExact (n : Nat) : PieceDecoder.Agrees (asyncReadExact n) (readExact n) :=
  .take _ _ n

theorem agrees_readField (w : Nat) : PieceDecoder.Agrees (asyncReadField w) (readField w) :=
  (agrees_readExact w).bind fun _ => .pure _

/-- `StreamOperation` and `AsyncStreamOperation` of socks5_impl for `Address`. -/
structure AsyncAddressCodec extends AddressCodec where
  retrieveFromAsyncStream : PieceDecoder UInt8 Error Address

/-- An address is the same whether it is read from the bytes or as they arrive. -/
def AsyncAddressCodec.Agrees (codec : AsyncAddressCodec) : Prop :=
  PieceDecoder.Agrees codec.retrieveFromAsyncStream codec.retrieveFromStream

namespace UdpgwHeader

def retrieveFromAsyncStream : PieceDecoder UInt8 Error UdpgwHeader := do
  let buf ← asyncReadExact staticLen
  tryFrom buf

theorem agrees_retrieve : PieceDecoder.Agrees retrieveFromAsyncStream retrieveFromStream := by
  refine (agrees_readExact staticLen).bind fun buf => ?_
  cases tryFrom buf with
  | error e => exact .throw e e
  | ok header => exact .pure header

end UdpgwHeader

namespace Packet

/-- The header, and the address if the DATA flag is set. -/
def retrieveAsyncHead (codec : AsyncAddressCodec) :
    PieceDecoder UInt8 Error (UdpgwHeader × Option Address) := do
  let header ← UdpgwHeader.retrieveFromAsyncStream
  if header.flags &&& .DATA = .DATA then
    let address ← codec.retrieveFromAsyncStream
    pure (header, some address)
  else pure (header, none)

/-- `Packet::retrieve_from_async_stream`. -/
def retrieveFromAsyncStream (codec : AsyncAddressCodec) : PieceDecoder UInt8 Error Packet := do
  let length ← asyncReadField UDPGW_LENGTH_FIELD_SIZE
  let (header, address) ← retrieveAsyncHead codec
  if length < readLen codec.toAddressCodec header address then throw (.ofKind .invalidData)
  let data ← asyncReadExact (length - readLen codec.toAddressCodec header address)
  pure ⟨header, address, data⟩

section Codec

variable {codec : AsyncAddressCodec}

theorem agrees_retrieveHead (ha : codec.Agrees) :
    PieceDecoder.Agrees (retrieveAsyncHead codec) (retrieveHead codec.toAddressCodec) := by
  refine UdpgwHeader.agrees_retrieve.bind fun header => ?_
  split
  · exact ha.bind fun _ => .pure _
  · exact .pure _

/-- **Decoding as the bytes arrive is decoding the bytes.** -/
theorem agrees_retrieve (ha : codec.Agrees) :
    PieceDecoder.Agrees (retrieveFromAsyncStream codec)
      (retrieveFromStream codec.toAddressCodec) := by
  refine (agrees_readField _).bind fun length => ?_
  refine (agrees_retrieveHead ha).bind fun head => ?_
  obtain ⟨header, address⟩ := head
  by_cases hlen : length < readLen codec.toAddressCodec header address
  · simp only [if_pos hlen]
    exact .throw _ _
  · simp only [if_neg hlen]
    exact (agrees_readExact _).bind fun data => .pure _

end Codec

/-! ## 2. Reading from a slice -/

section Slice

variable {codec : AddressCodec}

/-- **`try_from` accepts the inputs that start with a frame which starts with a header and an
    address**: the same as `retrieve_from_stream`. -/
theorem tryFrom_framed (hc : codec.Framed) {input : List UInt8} {p : Packet} :
    tryFrom codec input = .ok p ↔
      ∃ field frame rest, input = field ++ (frame ++ rest) ∧
        field.length = UDPGW_LENGTH_FIELD_SIZE ∧ frame.length = value field ∧
        retrieveHead codec frame = .ok ((p.header, p.address), p.data) := by
  constructor
  · exact exists_frame_of_tryFrom
  · rintro ⟨field, frame, rest, rfl, hfield, hframe, hhead⟩
    have hlen := len_of_retrieveHead hc hhead
    rw [tryFrom_frame hfield hframe, hhead]
    simp only
    rw [if_neg (by omega)]

/-- A frame that is read is as long as its length field says. -/
theorem retrieveFromStream_rest (hc : codec.Framed) {input rest : List UInt8} {p : Packet}
    (h : retrieveFromStream codec input = .ok (p, rest)) :
    value (input.take UDPGW_LENGTH_FIELD_SIZE) + UDPGW_LENGTH_FIELD_SIZE ≤ input.length ∧
      rest = input.drop
        (value (input.take UDPGW_LENGTH_FIELD_SIZE) + UDPGW_LENGTH_FIELD_SIZE) := by
  obtain ⟨field, frame, rfl, hfield, hframe, -⟩ := (retrieveFromStream_ok hc).mp h
  rw [List.take_left' hfield, ← hframe, ← List.append_assoc]
  have hlen : (field ++ frame).length = frame.length + UDPGW_LENGTH_FIELD_SIZE := by
    rw [List.length_append, hfield, Nat.add_comm]
  refine ⟨?_, (List.drop_left' hlen).symm⟩
  rw [List.length_append, hlen]
  exact Nat.le_add_right _ _

/-- A frame stands for its packet, whatever follows. -/
theorem retrieveFromStream_local (hc : codec.Framed) : Local (retrieveFromStream codec) := by
  intro input p rest h
  obtain ⟨field, frame, rfl, hfield, hframe, hhead⟩ := (retrieveFromStream_ok hc).mp h
  refine ⟨field ++ frame, (List.append_assoc ..).symm, fun rest' => ?_⟩
  rw [List.append_assoc]
  exact (retrieveFromStream_ok hc).mpr ⟨field, frame, rfl, hfield, hframe, hhead⟩

/-- A frame has a length field and a header. -/
theorem length_of_reads (hc : codec.Framed) {frame : List UInt8} {p : Packet}
    (h : Reads (retrieveFromStream codec) frame p) : 5 ≤ frame.length := by
  have hread : retrieveFromStream codec frame = .ok (p, []) := by
    have := h []
    rwa [List.append_nil] at this
  obtain ⟨field, body, rfl, hfield, -, hhead⟩ := (retrieveFromStream_ok hc).mp hread
  have hlen := len_of_retrieveHead hc hhead
  simp only [List.append_nil, List.length_append, readLen, UdpgwHeader.len, UdpgwHeader.staticLen,
    UDPGW_LENGTH_FIELD_SIZE] at hlen hfield ⊢
  omega

/-- A packet the format can hold is read back from its frame. -/
theorem reads_writeToBuf (hc : codec.RoundTrips) {p : Packet} (h : p.WellFormed codec) :
    Reads (retrieveFromStream codec) (p.writeToBuf codec) p := by
  intro rest
  obtain ⟨hwrite, hvalue⟩ := writeToBuf_length_field hc h
  rw [hwrite, List.append_assoc]
  exact (retrieveFromStream_ok hc.framed).mpr ⟨_, _, rfl, length_bytes _ _, hvalue.symm,
    (retrieveHead_ok hc).mpr ⟨h.head, rfl⟩⟩

/-- A packet that was built for an address is read back with what of the address the format can
    hold. -/
theorem reads_built (hc : codec.RoundTrips) (hplain : codec.WritesPlain) {connId : UInt16}
    {addr : Address} {data : List UInt8} {p : Packet}
    (h : buildPacketFromAddress codec connId addr data = .ok p) :
    Reads (retrieveFromStream codec) (p.writeToBuf codec)
      ⟨⟨.DATA, connId⟩, some addr.plain, data⟩ := by
  obtain ⟨rfl, hdomain, hfits⟩ := buildPacketFromAddress_ok.mp h
  have hlen : codec.len addr.plain = codec.len addr := by
    rw [← hc.length, ← hc.length, hplain]
  have hwrite : writeToBuf codec ⟨⟨.DATA, connId⟩, some addr, data⟩ =
      writeToBuf codec ⟨⟨.DATA, connId⟩, some addr.plain, data⟩ := by
    simp only [writeToBuf, len, Option.map_some, Option.getD_some, hplain addr, hlen]
  rw [hwrite]
  refine reads_writeToBuf hc ⟨⟨?_, ?_⟩, ?_⟩
  · show UdpFlag.DATA &&& UdpFlag.DATA = UdpFlag.DATA
    decide
  · rcases addr with (_ | _) | _
    · trivial
    · exact ⟨rfl, rfl⟩
    · exact hdomain
  · simp only [len, UdpgwHeader.len, Option.map_some, Option.getD_some, hlen]
    omega

end Slice

/-- The pieces of a packet that was read are its frame. -/
theorem reads_joined {codec : AsyncAddressCodec} (hc : codec.toAddressCodec.Framed)
    (ha : codec.Agrees) {pieces : List (Piece UInt8)} {p : Packet}
    (h : retrieveFromAsyncStream codec pieces = .ok (p, [])) :
    Reads (retrieveFromStream codec.toAddressCodec) (joined pieces) p := by
  obtain ⟨frame, heq, hreads⟩ := retrieveFromStream_local hc ((agrees_retrieve ha).sound h)
  rw [joined_nil, List.append_nil] at heq
  exact heq ▸ hreads

/-- **The udpgw decoders agree.** For every input, in whatever pieces it arrives, all three decoders
    give the same packet or all fail, and those for streams consume the frame: its length field and
    as many bytes as it says. -/
theorem decoders_agree {codec : AsyncAddressCodec} (hc : codec.toAddressCodec.Framed)
    (ha : codec.Agrees) {input : List UInt8} {pieces : List (Piece UInt8)}
    (hpieces : joined pieces = input) (p : Packet) :
    (tryFrom codec.toAddressCodec input = .ok p ↔
      ∃ rest, retrieveFromStream codec.toAddressCodec input = .ok (p, rest)) ∧
    (tryFrom codec.toAddressCodec input = .ok p ↔
      ∃ pieces', retrieveFromAsyncStream codec pieces = .ok (p, pieces')) ∧
    (∀ rest, retrieveFromStream codec.toAddressCodec input = .ok (p, rest) →
      value (input.take UDPGW_LENGTH_FIELD_SIZE) + UDPGW_LENGTH_FIELD_SIZE ≤ input.length ∧
      rest = input.drop (value (input.take UDPGW_LENGTH_FIELD_SIZE) + UDPGW_LENGTH_FIELD_SIZE)) ∧
    (∀ pieces', retrieveFromAsyncStream codec pieces = .ok (p, pieces') →
      value (input.take UDPGW_LENGTH_FIELD_SIZE) + UDPGW_LENGTH_FIELD_SIZE ≤ input.length ∧
      joined pieces' =
        input.drop (value (input.take UDPGW_LENGTH_FIELD_SIZE) + UDPGW_LENGTH_FIELD_SIZE)) := by
  subst hpieces
  have hsync : tryFrom codec.toAddressCodec (joined pieces) = .ok p ↔
      ∃ rest, retrieveFromStream codec.toAddressCodec (joined pieces) = .ok (p, rest) := by
    rw [tryFrom_framed hc]
    constructor
    · rintro ⟨field, frame, rest, hframe⟩
      exact ⟨rest, (retrieveFromStream_ok hc).mpr ⟨field, frame, hframe⟩⟩
    · rintro ⟨rest, h⟩
      obtain ⟨field, frame, hframe⟩ := (retrieveFromStream_ok hc).mp h
      exact ⟨field, frame, rest, hframe⟩
  have hasync := agrees_retrieve ha
  refine ⟨hsync, hsync.trans ⟨?_, ?_⟩, fun rest h => retrieveFromStream_rest hc h,
    fun pieces' h => retrieveFromStream_rest hc (hasync.sound h)⟩
  · rintro ⟨rest, h⟩
    obtain ⟨pieces', h', -⟩ := hasync.complete h
    exact ⟨pieces', h'⟩
  · rintro ⟨pieces', h⟩
    exact ⟨joined pieces', hasync.sound h⟩

end Packet

/-! ## 3. The SOCKS5 format -/

namespace Socks5

def retrieveAsyncSocket (w : Nat) (addr : Nat → UInt16 → SocketAddr) :
    PieceDecoder UInt8 Error Address := do
  let ip ← asyncReadField w
  let port ← asyncReadField 2
  pure (.socketAddress (addr ip (UInt16.ofNat port)))

def retrieveAsyncDomain : PieceDecoder UInt8 Error Address := do
  let len ← asyncReadField 1
  let name ← asyncReadExact len
  let port ← asyncReadField 2
  match Str.fromUtf8 name with
  | some domain => pure (.domainAddress domain (UInt16.ofNat port))
  | none => throw (.io .invalidData "Invalid address encoding")

def retrieveFromAsyncStream : PieceDecoder UInt8 Error Address := do
  let atyp ← asyncReadField 1
  match atyp with
  | 1 => retrieveAsyncSocket 4 fun ip port => .v4 (BitVec.ofNat 32 ip) port
  | 3 => retrieveAsyncDomain
  | 4 => retrieveAsyncSocket 16 fun ip port => .v6 (BitVec.ofNat 128 ip) port 0 0
  | _ => throw (.io .invalidData "Unsupported address type")

theorem agrees_socket (w : Nat) (addr : Nat → UInt16 → SocketAddr) :
    PieceDecoder.Agrees (retrieveAsyncSocket w addr) (retrieveSocket w addr) :=
  (agrees_readField w).bind fun _ => (agrees_readField 2).bind fun _ => .pure _

theorem agrees_domain : PieceDecoder.Agrees retrieveAsyncDomain retrieveDomain := by
  refine (agrees_readField 1).bind fun len => (agrees_readExact len).bind fun name => ?_
  refine (agrees_readField 2).bind fun port => ?_
  cases Str.fromUtf8 name with
  | none => exact .throw _ _
  | some domain => exact .pure _

end Socks5

/-- The SOCKS5 format, read from either kind of stream. -/
def socks5AsyncAddress : AsyncAddressCodec :=
  { socks5Address with retrieveFromAsyncStream := Socks5.retrieveFromAsyncStream }

theorem socks5AsyncAddress_agrees : socks5AsyncAddress.Agrees := by
  refine (agrees_readField 1).bind fun atyp => ?_
  match atyp with
  | 1 => exact Socks5.agrees_socket 4 _
  | 3 => exact Socks5.agrees_domain
  | 4 => exact Socks5.agrees_socket 16 _
  | 0 => exact .throw _ _
  | 2 => exact .throw _ _
  | _ + 5 => exact .throw _ _

namespace Packet

/-- Two frames, the second of which ends inside its address, in pieces of one and of six bytes. -/
def samplePieces : List (Piece UInt8) :=
  [⟨[0], nofun⟩, ⟨[3, 1, 0, 7, 0, 8], nofun⟩, ⟨[2, 0, 7, 1, 127, 0, 0, 1], nofun⟩]

theorem sample_decoders_agree :
    (tryFrom socks5Address (joined samplePieces) = .ok (buildKeepalivePacket 7) ↔
      ∃ rest, retrieveFromStream socks5Address (joined samplePieces) =
        .ok (buildKeepalivePacket 7, rest)) ∧
    (tryFrom socks5Address (joined samplePieces) = .ok (buildKeepalivePacket 7) ↔
      ∃ pieces', retrieveFromAsyncStream socks5AsyncAddress samplePieces =
        .ok (buildKeepalivePacket 7, pieces')) ∧
    tryFrom socks5Address (joined samplePieces) = .ok (buildKeepalivePacket 7) := by
  have hpieces : joined samplePieces = joined samplePieces := rfl
  obtain ⟨hsync, hasync, -⟩ := decoders_agree socks5Address_roundTrips.framed
    socks5AsyncAddress_agrees hpieces (buildKeepalivePacket 7)
  exact ⟨hsync, hasync, by decide +kernel⟩

end Packet

end Tun2Proxy
