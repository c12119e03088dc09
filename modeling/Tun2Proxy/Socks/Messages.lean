/-
  File:      Tun2Proxy/Socks/Messages.lean
  Subject:   The SOCKS messages of socks5_impl.

  Encoding and decoding the messages is socks5_impl's work, so it is a parameter of the
  development (`Socks5Impl`), and what the handshake needs of the decoders is named: a message
  takes up `len` bytes and depends on them alone (`Framed`), an unfinished one is reported as
  `UnexpectedEof` (`Incremental`), and the first message to the server has bytes (`SaysHello`).
  `rfc1928` is the format of the protocol, which has all three.
-/
import Tun2Proxy.Net.Address

namespace Tun2Proxy

open BigEndian Decoder

/-! ## 1. Messages -/

inductive Version where
  | V4
  | V5
  deriving DecidableEq, Repr

def Version.toU8 : Version → UInt8
  | .V4 => 4
  | .V5 => 5

inductive Command where
  | Connect
  | Bind
  | UdpAssociate
  deriving DecidableEq, Repr

def Command.toU8 : Command → UInt8
  | .Connect => 1
  | .Bind => 2
  | .UdpAssociate => 3

/-- An authentication method is its code. -/
structure AuthMethod where
  code : UInt8
  deriving DecidableEq, Repr

def AuthMethod.NoAuth : AuthMethod := ⟨0⟩

def AuthMethod.UserPass : AuthMethod := ⟨2⟩

structure UserKey where
  username : Str
  password : Str
  deriving DecidableEq, Repr

/-- `password_method::Status`. -/
inductive Status where
  | Succeeded
  | Failed
  deriving DecidableEq, Repr

inductive Reply where
  | Succeeded
  | GeneralFailure
  | ConnectionNotAllowed
  | NetworkUnreachable
  | HostUnreachable
  | ConnectionRefused
  | TtlExpired
  | CommandNotSupported
  | AddressTypeNotSupported
  deriving DecidableEq, Repr

/-- `protocol::Response`. -/
structure Response where
  reply : Reply
  address : Address
  deriving DecidableEq, Repr

/-! ## 2. The library -/

/-- `StreamOperation` for a message that is received. -/
structure Received (α : Type) where
  len : α → Nat
  retrieveFromStream : Decoder UInt8 Error α

/-- What the handshake uses of socks5_impl. A message is written to a buffer in memory, which does
    not fail. -/
structure Socks5Impl where
  handshakeRequest : List AuthMethod → List UInt8
  handshakeResponse : Received AuthMethod
  passwordRequest : Str → Str → List UInt8
  passwordResponse : Received Status
  request : Command → Address → List UInt8
  response : Received Response
  /-- `SocketAddr::try_from(&Address)`. -/
  socketAddrTryFrom : Address → Except Error SocketAddr
  debugStatus : Status → String
  displayReply : Reply → String

/-- `std::io::Error::kind`; an error of the crate is wrapped as `Other`. -/
def Error.kind : Error → ErrorKind
  | .io kind _ => kind
  | _ => .other

/-- An error of the crate as `std::io::Error`. -/
def Error.intoIo : Error → Error
  | .io kind text => .io kind text
  | .string text => .io .other text
  | .tryFromSlice => .io .other "TryFromSliceError TryFromSliceError(())"

/-- `crate::Error::from(text).into()`. -/
def Error.other (text : String) : Error := (Error.string text).intoIo

/-- More bytes may help. -/
def NeedsMore (e : Error) : Prop := e.kind = .unexpectedEof

namespace Socks5Impl

/-- Every message takes up `len` bytes and depends on them alone. -/
structure Framed (impl : Socks5Impl) : Prop where
  handshakeResponse :
    Decoder.Framed impl.handshakeResponse.retrieveFromStream impl.handshakeResponse.len
  passwordResponse :
    Decoder.Framed impl.passwordResponse.retrieveFromStream impl.passwordResponse.len
  response : Decoder.Framed impl.response.retrieveFromStream impl.response.len

/-- An unfinished message is reported as such. -/
structure Incremental (impl : Socks5Impl) : Prop where
  handshakeResponse : Decoder.Incremental NeedsMore impl.handshakeResponse.retrieveFromStream
  passwordResponse : Decoder.Incremental NeedsMore impl.passwordResponse.retrieveFromStream
  response : Decoder.Incremental NeedsMore impl.response.retrieveFromStream

/-- The first message is not empty. -/
def SaysHello (impl : Socks5Impl) : Prop := ∀ methods, impl.handshakeRequest methods ≠ []

end Socks5Impl

/-! ## 3. Fields -/

theorem local_readField (w : Nat) : Local (readField w) :=
  (Local.take _ w).bind fun _ => .pure _

theorem incremental_readExact (n : Nat) : Decoder.Incremental NeedsMore (readExact n) :=
  .take (show NeedsMore (.ofKind .unexpectedEof) from rfl) n

theorem incremental_readField (w : Nat) : Decoder.Incremental NeedsMore (readField w) :=
  .bind (.take _ w) (incremental_readExact w) fun _ => .pure _

namespace Socks5

theorem incremental_retrieveFromStream :
    Decoder.Incremental NeedsMore Socks5.retrieveFromStream := by
  have hsocket : ∀ w mk, Decoder.Incremental NeedsMore (retrieveSocket w mk) := fun w mk =>
    .bind (local_readField w) (incremental_readField w) fun _ =>
      .bind (local_readField 2) (incremental_readField 2) fun _ => .pure _
  have hdomain : Decoder.Incremental NeedsMore retrieveDomain := by
    refine .bind (local_readField 1) (incremental_readField 1) fun len =>
      .bind (.take _ len) (incremental_readExact len) fun name =>
        .bind (local_readField 2) (incremental_readField 2) fun port => ?_
    split
    · exact .pure _
    · exact .throw _
  refine .bind (local_readField 1) (incremental_readField 1) fun atyp => ?_
  split
  · exact hsocket ..
  · exact hdomain
  · exact hsocket ..
  · exact .throw _

/-! ## 4. The format of RFC 1928 and RFC 1929 -/

/-- A message of a version byte and a code, which not every byte need be. -/
def retrieveCode {α : Type} (version : Nat) (ofCode : Nat → Option α) : Decoder UInt8 Error α := do
  let ver ← readField 1
  let code ← readField 1
  if ver = version then
    match ofCode code with
    | some a => pure a
    | none => throw (.io .invalidData "Invalid code")
  else throw (.io .invalidData "Unsupported version")

theorem retrieveCode_ok {α : Type} {version : Nat} {ofCode : Nat → Option α}
    (input : List UInt8) (a : α) (rest : List UInt8) :
    retrieveCode version ofCode input = .ok (a, rest) ↔
      ∃ used, (∃ code, version < 256 ∧ code < 256 ∧ ofCode code = some a ∧
        used = bytes 1 version ++ bytes 1 code) ∧ input = used ++ rest := by
  unfold retrieveCode
  rw [bind_ok]
  constructor
  · rintro ⟨ver, mid, hver, h⟩
    obtain ⟨hverlt, rfl⟩ := readField_ok.mp hver
    obtain ⟨code, mid', hcode, hend⟩ := bind_ok.mp h
    obtain ⟨hcodelt, rfl⟩ := readField_ok.mp hcode
    split at hend
    · next heq =>
        subst heq
        cases hof : ofCode code with
        | none => rw [hof] at hend; cases hend
        | some b =>
          rw [hof] at hend
          cases hend
          exact ⟨_, ⟨code, hverlt, hcodelt, hof, rfl⟩, (List.append_assoc ..).symm⟩
    · cases hend
  · rintro ⟨used, ⟨code, hverlt, hcodelt, hof, rfl⟩, rfl⟩
    refine ⟨version, _, readField_ok.mpr ⟨hverlt, List.append_assoc ..⟩,
      bind_ok.mpr ⟨code, rest, readField_ok.mpr ⟨hcodelt, rfl⟩, ?_⟩⟩
    rw [if_pos rfl, hof]
    rfl

theorem framed_retrieveCode {α : Type} (version : Nat) (ofCode : Nat → Option α) :
    Decoder.Framed (retrieveCode version ofCode) fun _ => 2 := by
  refine framed_of_words _ retrieveCode_ok ?_
  rintro used a ⟨code, -, -, -, rfl⟩
  simp

theorem incremental_retrieveCode {α : Type} (version : Nat) (ofCode : Nat → Option α) :
    Decoder.Incremental NeedsMore (retrieveCode version ofCode) := by
  refine .bind (local_readField 1) (incremental_readField 1) fun ver =>
    .bind (local_readField 1) (incremental_readField 1) fun code => ?_
  split
  · split
    · exact .pure _
    · exact .throw _
  · exact .throw _

def methodOfCode (code : Nat) : Option AuthMethod := some ⟨UInt8.ofNat code⟩

def statusOfCode : Nat → Option Status
  | 0 => some .Succeeded
  | 0xff => some .Failed
  | _ => none

def replyOfCode : Nat → Option Reply
  | 0 => some .Succeeded
  | 1 => some .GeneralFailure
  | 2 => some .ConnectionNotAllowed
  | 3 => some .NetworkUnreachable
  | 4 => some .HostUnreachable
  | 5 => some .ConnectionRefused
  | 6 => some .TtlExpired
  | 7 => some .CommandNotSupported
  | 8 => some .AddressTypeNotSupported
  | _ => none

/-- The reply, a reserved byte, and the bound address. -/
def retrieveResponse : Decoder UInt8 Error Response := do
  let reply ← retrieveCode 5 replyOfCode
  let _ ← readField 1
  let address ← Socks5.retrieveFromStream
  pure ⟨reply, address⟩

theorem retrieveResponse_ok (input : List UInt8) (r : Response) (rest : List UInt8) :
    retrieveResponse input = .ok (r, rest) ↔
      ∃ used, (∃ code reserved, code < 256 ∧ reserved < 256 ∧ replyOfCode code = some r.reply ∧
        r.address.Encodable ∧ used = (bytes 1 5 ++ bytes 1 code) ++
          (bytes 1 reserved ++ writeToBuf r.address)) ∧ input = used ++ rest := by
  unfold retrieveResponse
  rw [bind_ok]
  constructor
  · rintro ⟨reply, mid, hreply, h⟩
    obtain ⟨_, ⟨code, _, hcode, hof, rfl⟩, rfl⟩ := (retrieveCode_ok ..).mp hreply
    obtain ⟨reserved, mid', hres, h'⟩ := bind_ok.mp h
    obtain ⟨hreslt, rfl⟩ := readField_ok.mp hres
    obtain ⟨address, mid'', haddr, hend⟩ := bind_ok.mp h'
    obtain ⟨he, rfl⟩ := retrieveFromStream_ok.mp haddr
    cases hend
    exact ⟨_, ⟨code, reserved, hcode, hreslt, hof, he, rfl⟩, by simp only [List.append_assoc]⟩
  · rintro ⟨used, ⟨code, reserved, hcode, hreslt, hof, he, rfl⟩, rfl⟩
    refine ⟨r.reply, _, (retrieveCode_ok ..).mpr ⟨_, ⟨code, by decide, hcode, hof, rfl⟩,
      List.append_assoc ..⟩, bind_ok.mpr ⟨reserved, _, readField_ok.mpr
        ⟨hreslt, List.append_assoc ..⟩, bind_ok.mpr ⟨r.address, rest,
          retrieveFromStream_ok.mpr ⟨he, rfl⟩, rfl⟩⟩⟩

/-- A domain may be the text of an address, with or without a port. -/
def socketAddrTryFrom : Address → Except Error SocketAddr
  | .socketAddress addr => .ok addr
  | .domainAddress domain port =>
    match readIpv4 domain, readIpv6 domain, readSocketAddr domain with
    | some ip, _, _ => .ok (.v4 ip port)
    | none, some ip, _ => .ok (.v6 ip port 0 0)
    | none, none, some addr => .ok addr
    | none, none, none =>
      let domain := String.ofList domain
      .error (.io .unsupported s!"domain address {domain} is not supported")

end Socks5

/-- The library, by the book. The texts of its errors are its own. -/
def rfc1928 : Socks5Impl where
  handshakeRequest methods := 5 :: UInt8.ofNat methods.length :: methods.map (·.code)
  handshakeResponse := ⟨fun _ => 2, Socks5.retrieveCode 5 Socks5.methodOfCode⟩
  passwordRequest username password :=
    1 :: UInt8.ofNat username.len :: (username.asBytes ++
      UInt8.ofNat password.len :: password.asBytes)
  passwordResponse := ⟨fun _ => 2, Socks5.retrieveCode 1 Socks5.statusOfCode⟩
  request command address := 5 :: command.toU8 :: 0 :: Socks5.writeToBuf address
  response := ⟨fun r => 3 + Socks5.len r.address, Socks5.retrieveResponse⟩
  socketAddrTryFrom := Socks5.socketAddrTryFrom
  debugStatus status := match status with
    | .Succeeded => "Succeeded"
    | .Failed => "Failed"
  displayReply _ := "reply"

theorem rfc1928_saysHello : rfc1928.SaysHello := nofun

theorem rfc1928_framed : rfc1928.Framed where
  handshakeResponse := Socks5.framed_retrieveCode 5 Socks5.methodOfCode
  passwordResponse := Socks5.framed_retrieveCode 1 Socks5.statusOfCode
  response := by
    refine framed_of_words _ Socks5.retrieveResponse_ok ?_
    rintro used r ⟨code, reserved, -, -, -, -, rfl⟩
    simp [rfc1928, Socks5.length_writeToBuf]
    omega

theorem rfc1928_incremental : rfc1928.Incremental where
  handshakeResponse := Socks5.incremental_retrieveCode 5 Socks5.methodOfCode
  passwordResponse := Socks5.incremental_retrieveCode 1 Socks5.statusOfCode
  response := by
    have hcode : Local (Socks5.retrieveCode 5 Socks5.replyOfCode) := fun input a rest h =>
      let ⟨used, hused, _, hread⟩ := Socks5.framed_retrieveCode 5 Socks5.replyOfCode h
      ⟨used, hused, hread⟩
    have haddr : Local Socks5.retrieveFromStream := fun input a rest h =>
      let ⟨used, hused, _, hread⟩ := socks5Address_roundTrips.framed h
      ⟨used, hused, hread⟩
    exact .bind hcode (Socks5.incremental_retrieveCode ..) fun _ =>
      .bind (local_readField 1) (incremental_readField 1) fun _ =>
        .bind haddr Socks5.incremental_retrieveFromStream fun _ => .pure _

end Tun2Proxy
