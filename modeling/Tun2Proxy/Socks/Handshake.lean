/-
  File:      Tun2Proxy/Socks/Handshake.lean
  Subject:   The SOCKS4 and SOCKS5 handler (src/socks.rs).

  `SocksProxyImpl` is a state machine over four byte queues: what came in from the server and from
  the client, and what is to go out to them. Every push appends to a queue and runs
  `state_change`, which parses a copy of the server queue, takes off what it has understood, and
  goes on in the new state.

  `state_change` on a state that was just set is the handler of that state, so the handlers stand
  here in the order in which they call each other, last state first.
-/
import Tun2Proxy.Proxy.Handler
import Tun2Proxy.Socks.Messages

namespace Tun2Proxy

open BigEndian

/-! ## 1. The state -/

inductive SocksState where
  | clientHello
  | serverHello
  | sendAuthData
  | receiveAuthResponse
  | sendRequest
  | receiveResponse
  | established
  deriving DecidableEq, Repr

/-- The fields of `SocksProxyImpl` that never change. -/
structure SocksConfig where
  serverAddr : SocketAddr
  info : SessionInfo
  domainName : Option Str
  version : Version
  credentials : Option UserKey
  command : Command
  deriving DecidableEq, Repr

structure SocksProxyImpl extends SocksConfig where
  state : SocksState
  clientInbuf : List UInt8
  serverInbuf : List UInt8
  clientOutbuf : List UInt8
  serverOutbuf : List UInt8
  udpAssociate : Option SocketAddr
  deriving DecidableEq, Repr

/-! ## 2. What the client says -/

namespace SocksConfig

/-- The user id of a SOCKS4 request: the name, and the password after a colon. -/
def userId (credentials : UserKey) : List UInt8 :=
  credentials.username.asBytes ++
    if credentials.password.isEmpty then [] else 58 :: credentials.password.asBytes

/-- The bytes `send_client_hello_socks4` queues. -/
def clientHelloSocks4 (self : SocksConfig) : Except Error (List UInt8) :=
  match self.info.dst with
  | .v4 ip port =>
    let (ipVec, nameVec) :=
      match self.domainName with
      | some host => ([0, 0, 0, UInt8.ofNat host.len], host.asBytes ++ [0])
      | none => (bytes 4 ip.toNat, [])
    let user := (self.credentials.map userId).getD []
    .ok ([self.version.toU8, Command.Connect.toU8] ++ bytes 2 port.toNat ++ ipVec ++ user ++
      [0] ++ nameVec)
  | .v6 ip port flowinfo scopeId =>
    let addr := String.ofList (SocketAddr.v6 ip port flowinfo scopeId).display
    .error (.string s!"SOCKS4 does not support IPv6: {addr}")

/-- The methods `send_client_hello_socks5` offers. -/
def methods (self : SocksConfig) : List AuthMethod :=
  [.NoAuth, ⟨4⟩, ⟨100⟩] ++ if self.credentials.isSome then [.UserPass] else []

/-- `SESSION_INFO_MARKER`. -/
def sessionInfoMarker : Str := ['+', 'i', 'n', 'f', 'o']

def proto : Command → Str
  | .Connect => ['t', 'c', 'p']
  | .UdpAssociate => ['u', 'd', 'p']
  | .Bind => ['u', 'n', 'k', 'n', 'o', 'w', 'n']

/-- The user name of `send_auth_data`: a name that ends in the marker carries the session. -/
def username (self : SocksConfig) (credentials : UserKey) : Str :=
  if sessionInfoMarker.isSuffixOf credentials.username then
    let baseUsername :=
      credentials.username.take (credentials.username.length - sessionInfoMarker.length)
    baseUsername ++ ['|'] ++ proto self.command ++ ['|'] ++ self.info.src.ip.display ++ ['|'] ++
      displayDec self.info.src.port.toNat
  else credentials.username

/-- The address `send_request_socks5` asks for. -/
def requestAddress (self : SocksConfig) : Address :=
  if self.command = .UdpAssociate then .socketAddress (.v4 0 0)
  else
    match self.domainName with
    | some domainName => .domainAddress domainName self.info.dst.port
    | none => .socketAddress self.info.dst

section Messages

variable (impl : Socks5Impl) (self : SocksConfig)

def clientHelloSocks5 : List UInt8 := impl.handshakeRequest self.methods

/-- The bytes `send_client_hello` queues. -/
def clientHello : Except Error (List UInt8) :=
  match self.version with
  | .V4 => self.clientHelloSocks4
  | .V5 => .ok (self.clientHelloSocks5 impl)

/-- The bytes `send_auth_data` queues. -/
def authData : List UInt8 :=
  let credentials := self.credentials.getD ⟨[], []⟩
  impl.passwordRequest (self.username credentials) credentials.password

/-- The bytes `send_request_socks5` queues. -/
def requestSocks5 : List UInt8 := impl.request self.command self.requestAddress

end Messages

end SocksConfig

/-! ## 3. The states -/

namespace SocksProxyImpl

variable (impl : Socks5Impl)

def new (config : SocksConfig) : Except Error SocksProxyImpl :=
  match config.clientHello impl with
  | .error e => .error e
  | .ok hello =>
    .ok { config with
      state := .serverHello
      clientInbuf := []
      serverInbuf := []
      clientOutbuf := []
      serverOutbuf := hello
      udpAssociate := none }

def relayTraffic (self : SocksProxyImpl) : SocksProxyImpl :=
  { self with
    clientOutbuf := self.clientOutbuf ++ self.serverInbuf
    serverOutbuf := self.serverOutbuf ++ self.clientInbuf
    serverInbuf := []
    clientInbuf := [] }

/-- A message at the front of the server queue; `none` when it is not all there yet. -/
def retrieve {α : Type} (message : Received α) (self : SocksProxyImpl) : Except Error (Option α) :=
  match message.retrieveFromStream self.serverInbuf with
  | .ok (response, _) => .ok (some response)
  | .error e => if e.kind = .unexpectedEof then .ok none else .error e

/-- `server_inbuf.drain(0..n)`. -/
def drain (self : SocksProxyImpl) (n : Nat) : SocksProxyImpl :=
  { self with serverInbuf := self.serverInbuf.drop n }

def receiveConnectionStatus (self : SocksProxyImpl) : Except Error SocksProxyImpl :=
  match self.retrieve impl.response with
  | .error e => .error e
  | .ok none => .ok self
  | .ok (some response) =>
    let self := self.drain (impl.response.len response)
    if response.reply ≠ .Succeeded then
      let reply := impl.displayReply response.reply
      .error (.other s!"SOCKS connection failed: {reply}")
    else if self.command = .UdpAssociate then
      match impl.socketAddrTryFrom response.address with
      | .error e => .error e
      | .ok addr =>
        .ok { self with udpAssociate := some addr, state := .established }.relayTraffic
    else .ok { self with state := .established }.relayTraffic

def sendRequestSocks5 (self : SocksProxyImpl) : SocksProxyImpl :=
  { self with
    serverOutbuf := self.serverOutbuf ++ self.requestSocks5 impl
    state := .receiveResponse }

def receiveAuthData (self : SocksProxyImpl) : Except Error SocksProxyImpl :=
  match self.retrieve impl.passwordResponse with
  | .error e => .error e
  | .ok none => .ok self
  | .ok (some status) =>
    let self := self.drain (impl.passwordResponse.len status)
    if status ≠ .Succeeded then
      let status := impl.debugStatus status
      .error (.other s!"SOCKS authentication failed: {status}")
    else .ok ({ self with state := .sendRequest }.sendRequestSocks5 impl)

def sendAuthData (self : SocksProxyImpl) : SocksProxyImpl :=
  { self with
    serverOutbuf := self.serverOutbuf ++ self.authData impl
    state := .receiveAuthResponse }

/-- Whether `receive_server_hello_socks5` turns the method down. -/
def unsupported (self : SocksProxyImpl) (method : AuthMethod) : Bool :=
  method ≠ .NoAuth && self.credentials.isNone ||
    (method ≠ .NoAuth && method ≠ .UserPass) && self.credentials.isSome

def receiveServerHelloSocks5 (self : SocksProxyImpl) : Except Error SocksProxyImpl :=
  match self.retrieve impl.handshakeResponse with
  | .error e => .error e
  | .ok none => .ok self
  | .ok (some method) =>
    let self := self.drain (impl.handshakeResponse.len method)
    if self.unsupported method then
      .error (.other "SOCKS5 server requires an unsupported authentication method.")
    else if method = .UserPass then .ok ({ self with state := .sendAuthData }.sendAuthData impl)
    else .ok ({ self with state := .sendRequest }.sendRequestSocks5 impl)

def receiveServerHelloSocks4 (self : SocksProxyImpl) : Except Error SocksProxyImpl :=
  if self.serverInbuf.length < 8 then .ok self
  else if self.serverInbuf[1]? ≠ some 0x5a then
    .error (.other "SOCKS4 server replied with an unexpected reply code.")
  else .ok { self.drain 8 with state := .established }.relayTraffic

def receiveServerHello (self : SocksProxyImpl) : Except Error SocksProxyImpl :=
  match self.version with
  | .V4 => self.receiveServerHelloSocks4
  | .V5 => self.receiveServerHelloSocks5 impl

def stateChange (self : SocksProxyImpl) : Except Error SocksProxyImpl :=
  match self.state with
  | .serverHello => self.receiveServerHello impl
  | .sendAuthData => .ok (self.sendAuthData impl)
  | .receiveAuthResponse => self.receiveAuthData impl
  | .sendRequest => .ok (self.sendRequestSocks5 impl)
  | .receiveResponse => self.receiveConnectionStatus impl
  | .established => .ok self.relayTraffic
  | .clientHello => .ok self

/-! ## 4. The interface -/

/-- What `push_data` does before `state_change`. -/
def receive (direction : IncomingDirection) (buffer : List UInt8) (self : SocksProxyImpl) :
    SocksProxyImpl :=
  match direction with
  | .fromServer => { self with serverInbuf := self.serverInbuf ++ buffer }
  | .fromClient => { self with clientInbuf := self.clientInbuf ++ buffer }

def pushData (direction : IncomingDirection) (buffer : List UInt8) (self : SocksProxyImpl) :
    Except Error SocksProxyImpl :=
  (self.receive direction buffer).stateChange impl

def peekData (dir : OutgoingDirection) (self : SocksProxyImpl) : List UInt8 :=
  match dir with
  | .toServer => self.serverOutbuf
  | .toClient => self.clientOutbuf

/-- `consume_data`, for a size that is in the queue. -/
def consumeData (dir : OutgoingDirection) (size : Nat) (self : SocksProxyImpl) : SocksProxyImpl :=
  match dir with
  | .toServer => { self with serverOutbuf := self.serverOutbuf.drop size }
  | .toClient => { self with clientOutbuf := self.clientOutbuf.drop size }

def connectionEstablished (self : SocksProxyImpl) : Bool := self.state = .established

def proxyHandler : ProxyHandler SocksProxyImpl where
  pushData := pushData impl
  consumeData := consumeData
  peekData := peekData
  connectionEstablished := connectionEstablished
  getUdpAssociate := udpAssociate

end SocksProxyImpl

/-- `SocksProxyManager::new_proxy_handler`. -/
def newSocksHandler (impl : Socks5Impl) (server : SocketAddr) (version : Version)
    (credentials : Option UserKey) (info : SessionInfo) (domainName : Option Str)
    (udpAssociate : Bool) : Except Error SocksProxyImpl :=
  let command := if udpAssociate then .UdpAssociate else .Connect
  (SocksProxyImpl.new impl ⟨server, info, domainName, version, credentials, command⟩).mapError
    Error.intoIo

end Tun2Proxy
