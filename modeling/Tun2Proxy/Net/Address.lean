/-
  File:      Tun2Proxy/Net/Address.lean
  Subject:   The target addresses of socks5_impl and their wire format.

  `Address` is a socket address or a domain with a port. Its encoder and decoder belong to
  socks5_impl, so they are a parameter (`AddressCodec`), and the two properties the code relies
  on are named: the decoder's successes depend on the `len` bytes it consumes (`Framed`), and
  encoder and decoder undo each other (`RoundTrips`). `socks5Address` is the SOCKS5 format, which
  has both.
-/
import Tun2Proxy.Lib.Decoder
import Tun2Proxy.Net.SocketAddr

namespace Tun2Proxy

open BigEndian Decoder

inductive Address where
  | socketAddress (addr : SocketAddr)
  | domainAddress (domain : Str) (port : UInt16)
  deriving DecidableEq, Repr

/-- What the wire format can hold: no flow information or scope, a domain of at most 255 bytes. -/
def Address.Encodable : Address → Prop
  | .socketAddress (.v4 _ _) => True
  | .socketAddress (.v6 _ _ flowinfo scopeId) => flowinfo = 0 ∧ scopeId = 0
  | .domainAddress domain _ => domain.len ≤ 255

/-- `Read::read_exact` for a buffer of `n` bytes. -/
def readExact (n : Nat) : Decoder UInt8 Error (List UInt8) :=
  Decoder.take (.ofKind .unexpectedEof) n

/-- `StreamOperation` of socks5_impl for `Address`. -/
structure AddressCodec where
  len : Address → Nat
  writeToBuf : Address → List UInt8
  retrieveFromStream : Decoder UInt8 Error Address

/-- The decoder consumes exactly `len` bytes and depends only on them. -/
def AddressCodec.Framed (codec : AddressCodec) : Prop :=
  ∀ ⦃input : List UInt8⦄ ⦃addr : Address⦄ ⦃rest : List UInt8⦄,
    codec.retrieveFromStream input = .ok (addr, rest) →
    ∃ used, input = used ++ rest ∧ used.length = codec.len addr ∧
      Reads codec.retrieveFromStream used addr

/-- The address without what the wire format cannot hold. -/
def Address.plain : Address → Address
  | .socketAddress (.v6 ip port _ _) => .socketAddress (.v6 ip port 0 0)
  | addr => addr

/-- The encoder leaves out flow information and scope. -/
def AddressCodec.WritesPlain (codec : AddressCodec) : Prop :=
  ∀ addr, codec.writeToBuf addr.plain = codec.writeToBuf addr

/-- Encoder and decoder undo each other, and an encoding has `len` bytes. -/
structure AddressCodec.RoundTrips (codec : AddressCodec) : Prop where
  length : ∀ addr, (codec.writeToBuf addr).length = codec.len addr
  reads : ∀ addr, addr.Encodable → Reads codec.retrieveFromStream (codec.writeToBuf addr) addr
  writes : ∀ input addr rest, codec.retrieveFromStream input = .ok (addr, rest) →
    input = codec.writeToBuf addr ++ rest ∧ addr.Encodable

theorem AddressCodec.RoundTrips.framed {codec : AddressCodec} (h : codec.RoundTrips) :
    codec.Framed := by
  intro input addr rest hd
  obtain ⟨rfl, he⟩ := h.writes _ _ _ hd
  exact ⟨_, rfl, h.length addr, h.reads addr he⟩

/-! ## 1. Fixed-width fields -/

/-- A field of `w` bytes, read as a number. -/
def readField (w : Nat) : Decoder UInt8 Error Nat := do
  let bytes ← readExact w
  pure (value bytes)

theorem readField_ok {w n : Nat} {input rest : List UInt8} :
    readField w input = .ok (n, rest) ↔ n < 256 ^ w ∧ input = bytes w n ++ rest := by
  unfold readField readExact
  rw [bind_ok]
  constructor
  · rintro ⟨field, mid, htake, hpure⟩
    obtain ⟨rfl, rfl⟩ := take_ok.mp htake
    cases hpure
    exact ⟨value_lt field, by rw [bytes_value]⟩
  · rintro ⟨hlt, rfl⟩
    refine ⟨_, _, take_ok.mpr ⟨rfl, length_bytes w n⟩, ?_⟩
    show Except.ok (value (bytes w n), rest) = _
    rw [value_bytes_of_lt hlt]

/-! ## 2. The SOCKS5 format -/

namespace Socks5

def len : Address → Nat
  | .socketAddress (.v4 _ _) => 1 + 4 + 2
  | .socketAddress (.v6 _ _ _ _) => 1 + 16 + 2
  | .domainAddress domain _ => 1 + 1 + domain.len + 2

def writeToBuf : Address → List UInt8
  | .socketAddress (.v4 ip port) => bytes 1 1 ++ (bytes 4 ip.toNat ++ bytes 2 port.toNat)
  | .socketAddress (.v6 ip port _ _) => bytes 1 4 ++ (bytes 16 ip.toNat ++ bytes 2 port.toNat)
  | .domainAddress domain port =>
    bytes 1 3 ++ (bytes 1 domain.len ++ (domain.asBytes ++ bytes 2 port.toNat))

/-- An IP address of `w` bytes and a port. -/
def retrieveSocket (w : Nat) (addr : Nat → UInt16 → SocketAddr) : Decoder UInt8 Error Address := do
  let ip ← readField w
  let port ← readField 2
  pure (.socketAddress (addr ip (UInt16.ofNat port)))

def retrieveDomain : Decoder UInt8 Error Address := do
  let len ← readField 1
  let name ← readExact len
  let port ← readField 2
  match Str.fromUtf8 name with
  | some domain => pure (.domainAddress domain (UInt16.ofNat port))
  | none => throw (.io .invalidData "Invalid address encoding")

def retrieveFromStream : Decoder UInt8 Error Address := do
  let atyp ← readField 1
  match atyp with
  | 1 => retrieveSocket 4 fun ip port => .v4 (BitVec.ofNat 32 ip) port
  | 3 => retrieveDomain
  | 4 => retrieveSocket 16 fun ip port => .v6 (BitVec.ofNat 128 ip) port 0 0
  | _ => throw (.io .invalidData "Unsupported address type")

theorem retrieveSocket_ok {w : Nat} {mk : Nat → UInt16 → SocketAddr} {input rest : List UInt8}
    {addr : Address} :
    retrieveSocket w mk input = .ok (addr, rest) ↔
      ∃ ip port, ip < 256 ^ w ∧ addr = .socketAddress (mk ip port) ∧
        input = bytes w ip ++ (bytes 2 port.toNat ++ rest) := by
  unfold retrieveSocket
  rw [bind_ok]
  constructor
  · rintro ⟨ip, afterIp, hip, h⟩
    obtain ⟨hlt, rfl⟩ := readField_ok.mp hip
    obtain ⟨port, afterPort, hport, hpure⟩ := bind_ok.mp h
    obtain ⟨hfits, rfl⟩ := readField_ok.mp hport
    cases hpure
    refine ⟨ip, UInt16.ofNat port, hlt, rfl, ?_⟩
    rw [UInt16.toNat_ofNat_of_lt' hfits]
  · rintro ⟨ip, port, hlt, rfl, rfl⟩
    refine ⟨ip, _, readField_ok.mpr ⟨hlt, rfl⟩, bind_ok.mpr ⟨port.toNat, _,
      readField_ok.mpr ⟨port.toNat_lt, rfl⟩, ?_⟩⟩
    rw [UInt16.ofNat_toNat]
    rfl

theorem retrieveDomain_ok {input rest : List UInt8} {addr : Address} :
    retrieveDomain input = .ok (addr, rest) ↔
      ∃ domain port, domain.len ≤ 255 ∧ addr = .domainAddress domain port ∧
        input = bytes 1 domain.len ++ (domain.asBytes ++ (bytes 2 port.toNat ++ rest)) := by
  unfold retrieveDomain
  rw [bind_ok]
  constructor
  · rintro ⟨len, afterLen, hlen, h⟩
    obtain ⟨hlt, rfl⟩ := readField_ok.mp hlen
    obtain ⟨name, afterName, hname, h'⟩ := bind_ok.mp h
    obtain ⟨rfl, rfl⟩ := take_ok.mp hname
    obtain ⟨port, afterPort, hport, hend⟩ := bind_ok.mp h'
    obtain ⟨hfits, rfl⟩ := readField_ok.mp hport
    cases hutf : Str.fromUtf8 name with
    | none => rw [hutf] at hend; cases hend
    | some domain =>
      rw [hutf] at hend
      cases hend
      have hbytes := Str.asBytes_of_fromUtf8 hutf
      refine ⟨domain, UInt16.ofNat port, ?_, rfl, ?_⟩
      · unfold Str.len
        rw [hbytes]
        omega
      · unfold Str.len
        rw [hbytes, UInt16.toNat_ofNat_of_lt' hfits]
  · rintro ⟨domain, port, hlen, rfl, rfl⟩
    refine ⟨domain.len, _, readField_ok.mpr ⟨by omega, rfl⟩, bind_ok.mpr ⟨domain.asBytes, _,
      take_ok.mpr ⟨rfl, rfl⟩, bind_ok.mpr ⟨port.toNat, _,
        readField_ok.mpr ⟨port.toNat_lt, rfl⟩, ?_⟩⟩⟩
    rw [Str.fromUtf8_asBytes, UInt16.ofNat_toNat]
    rfl

/-- **The decoder reads exactly the encodings** of the addresses the format can hold. -/
theorem retrieveFromStream_ok {input rest : List UInt8} {addr : Address} :
    retrieveFromStream input = .ok (addr, rest) ↔
      addr.Encodable ∧ input = writeToBuf addr ++ rest := by
  unfold retrieveFromStream
  rw [bind_ok]
  constructor
  · rintro ⟨atyp, mid, hatyp, h⟩
    obtain ⟨-, rfl⟩ := readField_ok.mp hatyp
    split at h
    · obtain ⟨ip, port, hlt, rfl, rfl⟩ := retrieveSocket_ok.mp h
      refine ⟨trivial, ?_⟩
      simp only [writeToBuf, List.append_assoc]
      rw [BitVec.toNat_ofNat, Nat.mod_eq_of_lt (lt_of_lt_of_eq hlt (by norm_num))]
    · obtain ⟨domain, port, hlen, rfl, rfl⟩ := retrieveDomain_ok.mp h
      exact ⟨hlen, by simp only [writeToBuf, List.append_assoc]⟩
    · obtain ⟨ip, port, hlt, rfl, rfl⟩ := retrieveSocket_ok.mp h
      refine ⟨⟨rfl, rfl⟩, ?_⟩
      simp only [writeToBuf, List.append_assoc]
      rw [BitVec.toNat_ofNat, Nat.mod_eq_of_lt (lt_of_lt_of_eq hlt (by norm_num))]
    · cases h
  · rintro ⟨he, rfl⟩
    rcases addr with (⟨ip, port⟩ | ⟨ip, port, flowinfo, scopeId⟩) | ⟨domain, port⟩
    · refine ⟨1, _, readField_ok.mpr ⟨by decide, List.append_assoc ..⟩,
        retrieveSocket_ok.mpr ⟨ip.toNat, port, ip.isLt, ?_, List.append_assoc ..⟩⟩
      rw [BitVec.ofNat_toNat, BitVec.setWidth_eq]
    · obtain ⟨rfl, rfl⟩ := he
      refine ⟨4, _, readField_ok.mpr ⟨by decide, List.append_assoc ..⟩,
        retrieveSocket_ok.mpr ⟨ip.toNat, port, ip.isLt, ?_, List.append_assoc ..⟩⟩
      rw [BitVec.ofNat_toNat, BitVec.setWidth_eq]
    · exact ⟨3, _, readField_ok.mpr ⟨by decide, List.append_assoc ..⟩,
        retrieveDomain_ok.mpr ⟨domain, port, he, rfl, by simp only [List.append_assoc]⟩⟩

theorem length_writeToBuf (addr : Address) : (writeToBuf addr).length = len addr := by
  rcases addr with (_ | _) | _
  · simp [writeToBuf, len]
  · simp [writeToBuf, len]
  · simp [writeToBuf, len, Str.len]
    omega

end Socks5

def socks5Address : AddressCodec where
  len := Socks5.len
  writeToBuf := Socks5.writeToBuf
  retrieveFromStream := Socks5.retrieveFromStream

theorem socks5Address_roundTrips : socks5Address.RoundTrips where
  length := Socks5.length_writeToBuf
  reads _ he _ := Socks5.retrieveFromStream_ok.mpr ⟨he, rfl⟩
  writes _ _ _ h := (Socks5.retrieveFromStream_ok.mp h).symm

theorem socks5Address_writesPlain : socks5Address.WritesPlain := by
  rintro ((_ | _) | _) <;> rfl

end Tun2Proxy
