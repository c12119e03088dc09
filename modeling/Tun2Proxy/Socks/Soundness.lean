/-
  File:      Tun2Proxy/Socks/Soundness.lean
  Subject:   What a SOCKS handshake can come to, whatever the server sends.

  A run is any order of calls to a handler, with a record of what went in and out. `Handshake` is
  the protocol itself, without queues: in each state, what the server has said and what the
  client has. Every run follows it (`SocksInv`): the bytes pushed by the server are what it has
  said in the handshake, then what was queued to the client, then what is not yet read.
-/
import Mathlib.Logic.Relation
import Tun2Proxy.Socks.Handshake

namespace Tun2Proxy

open Decoder

/-! ## 1. Runs -/

/-- A handler, and what went in and out of it so far. -/
structure SocksRun where
  handler : SocksProxyImpl
  /-- Pushed by the server and by the client. -/
  fromServer : List UInt8
  fromClient : List UInt8
  /-- Consumed from the queues. -/
  toServer : List UInt8
  toClient : List UInt8

namespace SocksRun

def start (handler : SocksProxyImpl) : SocksRun := ⟨handler, [], [], [], []⟩

/-- All bytes that were ever queued to the server. -/
def queuedToServer (r : SocksRun) : List UInt8 := r.toServer ++ r.handler.serverOutbuf

/-- All bytes that were ever queued to the client. -/
def queuedToClient (r : SocksRun) : List UInt8 := r.toClient ++ r.handler.clientOutbuf

/-- The calls of a session. A call that returns an error is the last one, and only bytes that are
    in a queue are consumed. -/
inductive Step (impl : Socks5Impl) (r : SocksRun) : SocksRun → Prop
  | server (buffer : List UInt8) {handler : SocksProxyImpl}
      (h : r.handler.pushData impl .fromServer buffer = .ok handler) :
      Step impl r { r with handler, fromServer := r.fromServer ++ buffer }
  | client (buffer : List UInt8) {handler : SocksProxyImpl}
      (h : r.handler.pushData impl .fromClient buffer = .ok handler) :
      Step impl r { r with handler, fromClient := r.fromClient ++ buffer }
  | consumeToServer {size : Nat} (h : size ≤ r.handler.serverOutbuf.length) :
      Step impl r { r with
        handler := r.handler.consumeData .toServer size
        toServer := r.toServer ++ r.handler.serverOutbuf.take size }
  | consumeToClient {size : Nat} (h : size ≤ r.handler.clientOutbuf.length) :
      Step impl r { r with
        handler := r.handler.consumeData .toClient size
        toClient := r.toClient ++ r.handler.clientOutbuf.take size }

end SocksRun

/-! ## 2. The handshake -/

inductive ClientMessage where
  | hello
  | auth
  | request
  deriving DecidableEq, Repr

section Handshake

variable (impl : Socks5Impl) (c : SocksConfig)

/-- The bytes of a message; `hello` are those of the first one. -/
def ClientMessage.bytes (hello : List UInt8) : ClientMessage → List UInt8
  | .hello => hello
  | .auth => c.authData impl
  | .request => c.requestSocks5 impl

/-- The SOCKS5 server has selected a method and, if it was to, accepted the credentials. -/
inductive Negotiated : List UInt8 → List ClientMessage → Prop
  | noAuth {selection : List UInt8}
      (h : Reads impl.handshakeResponse.retrieveFromStream selection .NoAuth) :
      Negotiated selection [.hello]
  | userPass {selection status : List UInt8} (hc : c.credentials.isSome = true)
      (h : Reads impl.handshakeResponse.retrieveFromStream selection .UserPass)
      (hs : Reads impl.passwordResponse.retrieveFromStream status .Succeeded) :
      Negotiated (selection ++ status) [.hello, .auth]

/-- A complete accepting transcript, and what the client says in it. -/
inductive Accepting : List UInt8 → List ClientMessage → Prop
  | socks4 {reply : List UInt8} (hv : c.version = .V4) (hlen : reply.length = 8)
      (hcode : reply[1]? = some 0x5a) : Accepting reply [.hello]
  | socks5 {said reply : List UInt8} {sent : List ClientMessage} {addr : Address}
      (hv : c.version = .V5) (h : Negotiated impl c said sent)
      (hr : Reads impl.response.retrieveFromStream reply ⟨.Succeeded, addr⟩) :
      Accepting (said ++ reply) (sent ++ [.request])

/-- The states of a handshake: what the server has said in it, and what the client has. -/
inductive Handshake : SocksState → List UInt8 → List ClientMessage → Prop
  | hello : Handshake .serverHello [] [.hello]
  | selected {selection : List UInt8} (hv : c.version = .V5) (hc : c.credentials.isSome = true)
      (h : Reads impl.handshakeResponse.retrieveFromStream selection .UserPass) :
      Handshake .receiveAuthResponse selection [.hello, .auth]
  | requested {said : List UInt8} {sent : List ClientMessage} (hv : c.version = .V5)
      (h : Negotiated impl c said sent) : Handshake .receiveResponse said (sent ++ [.request])
  | accepted {said : List UInt8} {sent : List ClientMessage} (h : Accepting impl c said sent) :
      Handshake .established said sent

end Handshake

/-! ## 3. What a change of state can do -/

section Steps

variable {impl : Socks5Impl}

namespace SocksProxyImpl

variable {self self' : SocksProxyImpl}

/-- A message was found: it stands in front of the queue, and draining it leaves what follows. -/
theorem retrieve_some {α : Type} {message : Received α} {a : α}
    (hf : Framed message.retrieveFromStream message.len)
    (h : self.retrieve message = .ok (some a)) :
    ∃ used rest, self.serverInbuf = used ++ rest ∧ Reads message.retrieveFromStream used a ∧
      self.drain (message.len a) = { self with serverInbuf := rest } := by
  unfold retrieve at h
  split at h
  · next response rest hd =>
      cases h
      obtain ⟨used, hin, hlen, hread⟩ := hf hd
      refine ⟨used, rest, hin, hread, ?_⟩
      unfold drain
      rw [hin, ← hlen, List.drop_left]
  · split at h <;> cases h

/-- The outcomes of `state_change` in a state where the handler can rest. -/
inductive Advance (impl : Socks5Impl) (self : SocksProxyImpl) : SocksProxyImpl → Prop
  | waits (hs : self.state ≠ .established) : Advance impl self self
  | granted {reply rest : List UInt8} (hs : self.state = .serverHello) (hv : self.version = .V4)
      (hin : self.serverInbuf = reply ++ rest) (hlen : reply.length = 8)
      (hcode : reply[1]? = some 0x5a) :
      Advance impl self { self with serverInbuf := rest, state := .established }.relayTraffic
  | selected {selection rest : List UInt8} (hs : self.state = .serverHello)
      (hv : self.version = .V5) (hin : self.serverInbuf = selection ++ rest)
      (hc : self.credentials.isSome = true)
      (hr : Reads impl.handshakeResponse.retrieveFromStream selection .UserPass) :
      Advance impl self ({ self with serverInbuf := rest }.sendAuthData impl)
  | unchallenged {selection rest : List UInt8} (hs : self.state = .serverHello)
      (hv : self.version = .V5) (hin : self.serverInbuf = selection ++ rest)
      (hr : Reads impl.handshakeResponse.retrieveFromStream selection .NoAuth) :
      Advance impl self ({ self with serverInbuf := rest }.sendRequestSocks5 impl)
  | authenticated {status rest : List UInt8} (hs : self.state = .receiveAuthResponse)
      (hin : self.serverInbuf = status ++ rest)
      (hr : Reads impl.passwordResponse.retrieveFromStream status .Succeeded) :
      Advance impl self ({ self with serverInbuf := rest }.sendRequestSocks5 impl)
  | accepted {reply rest : List UInt8} {addr : Address} {udpAssociate : Option SocketAddr}
      (hs : self.state = .receiveResponse) (hin : self.serverInbuf = reply ++ rest)
      (hr : Reads impl.response.retrieveFromStream reply ⟨.Succeeded, addr⟩) :
      Advance impl self
        { self with serverInbuf := rest, udpAssociate, state := .established }.relayTraffic
  | relays (hs : self.state = .established) : Advance impl self self.relayTraffic

theorem advance_serverHelloSocks4 (hs : self.state = .serverHello) (hv : self.version = .V4)
    (h : self.receiveServerHelloSocks4 = .ok self') : Advance impl self self' := by
  unfold receiveServerHelloSocks4 at h
  split at h
  · cases h
    exact .waits (by rw [hs]; decide)
  · next hlen =>
      split at h
      · cases h
      · next hcode =>
          cases h
          refine .granted hs hv (List.take_append_drop 8 _).symm
            (List.length_take_of_le (Nat.not_lt.mp hlen)) ?_
          rw [List.getElem?_take_of_lt (by decide)]
          exact not_not.mp hcode

theorem advance_serverHelloSocks5 (hf : impl.Framed) (hs : self.state = .serverHello)
    (hv : self.version = .V5) (h : self.receiveServerHelloSocks5 impl = .ok self') :
    Advance impl self self' := by
  unfold receiveServerHelloSocks5 at h
  split at h
  · cases h
  · cases h
    exact .waits (by rw [hs]; decide)
  · next method hm =>
      obtain ⟨used, rest, hin, hread, hdrain⟩ := retrieve_some hf.handshakeResponse hm
      simp only [hdrain] at h
      split at h
      · cases h
      · next hsupported =>
          simp only [unsupported, Bool.or_eq_true, Bool.and_eq_true, decide_eq_true_eq, not_or,
            not_and] at hsupported
          split at h
          · next hmethod =>
              subst hmethod
              cases h
              refine .selected hs hv hin ?_ hread
              have hne : AuthMethod.UserPass ≠ AuthMethod.NoAuth := by decide
              exact Option.isSome_iff_ne_none.mpr (by simpa using hsupported.1 hne)
          · next hmethod =>
              cases h
              have hno : method = .NoAuth := by
                by_contra hno
                have h1 := hsupported.1 hno
                have h2 := hsupported.2 ⟨hno, hmethod⟩
                cases hc : self.credentials <;> simp [hc] at h1 h2
              subst hno
              exact .unchallenged hs hv hin hread

theorem advance_authData (hf : impl.Framed) (hs : self.state = .receiveAuthResponse)
    (h : self.receiveAuthData impl = .ok self') : Advance impl self self' := by
  unfold receiveAuthData at h
  split at h
  · cases h
  · cases h
    exact .waits (by rw [hs]; decide)
  · next status hm =>
      obtain ⟨used, rest, hin, hread, hdrain⟩ := retrieve_some hf.passwordResponse hm
      simp only [hdrain] at h
      split at h
      · cases h
      · next hstatus =>
          cases h
          cases not_not.mp hstatus
          exact .authenticated hs hin hread

theorem advance_connectionStatus (hf : impl.Framed) (hs : self.state = .receiveResponse)
    (h : self.receiveConnectionStatus impl = .ok self') : Advance impl self self' := by
  unfold receiveConnectionStatus at h
  split at h
  · cases h
  · cases h
    exact .waits (by rw [hs]; decide)
  · next response hm =>
      obtain ⟨used, rest, hin, hread, hdrain⟩ := retrieve_some hf.response hm
      simp only [hdrain] at h
      obtain ⟨reply, addr⟩ := response
      split at h
      · cases h
      · next hreply =>
          cases not_not.mp hreply
          split at h
          · split at h
            · cases h
            · cases h
              exact .accepted hs hin hread
          · cases h
            exact .accepted hs hin hread

/-- **Every change of state is one of the outcomes.** -/
theorem advance_stateChange (hf : impl.Framed) {c : SocksConfig} {said : List UInt8}
    {sent : List ClientMessage} (hh : Handshake impl c self.state said sent)
    (h : self.stateChange impl = .ok self') : Advance impl self self' := by
  unfold stateChange at h
  generalize hs : self.state = state at hh h
  cases hh with
  | hello =>
    simp only [receiveServerHello] at h
    cases hv : self.version with
    | V4 => rw [hv] at h; exact advance_serverHelloSocks4 hs hv h
    | V5 => rw [hv] at h; exact advance_serverHelloSocks5 hf hs hv h
  | selected hv hc hr => exact advance_authData hf hs h
  | requested hv hn => exact advance_connectionStatus hf hs h
  | accepted ha =>
    cases h
    exact .relays hs

end SocksProxyImpl

/-! ## 4. The invariant -/

open SocksProxyImpl

variable {c : SocksConfig} {hello : List UInt8} {r r' : SocksRun}

/-- Where a run stands: what the server has said in the handshake (`said`), what the client has
    (`sent`), and the client's own bytes that went on to the server (`relayed`). -/
structure Progress (impl : Socks5Impl) (c : SocksConfig) (hello : List UInt8) (r : SocksRun)
    (said : List UInt8) (sent : List ClientMessage) (relayed : List UInt8) : Prop where
  config : r.handler.toSocksConfig = c
  handshake : Handshake impl c r.handler.state said sent
  fromServer : r.fromServer = said ++ (r.queuedToClient ++ r.handler.serverInbuf)
  fromClient : r.fromClient = relayed ++ r.handler.clientInbuf
  queuedToServer : r.queuedToServer = sent.flatMap (·.bytes impl c hello) ++ relayed
  quiet : r.handler.state ≠ .established → r.queuedToClient = [] ∧ relayed = []

/-- An established handler keeps nothing back. -/
def Settled (r : SocksRun) : Prop :=
  r.handler.state = .established → r.handler.serverInbuf = [] ∧ r.handler.clientInbuf = []

structure SocksInv (impl : Socks5Impl) (c : SocksConfig) (hello : List UInt8) (r : SocksRun) :
    Prop where
  settled : Settled r
  progress : ∃ said sent relayed, Progress impl c hello r said sent relayed

variable {said relayed : List UInt8} {sent : List ClientMessage}

theorem inv_of_waiting (h : Progress impl c hello r said sent relayed)
    (hs : r.handler.state ≠ .established) : SocksInv impl c hello r :=
  ⟨fun e => absurd e hs, said, sent, relayed, h⟩

/-- Relaying moves what came in to what goes out. -/
theorem inv_relayTraffic (h : Progress impl c hello r said sent relayed)
    (hs : r.handler.state = .established) :
    SocksInv impl c hello { r with handler := r.handler.relayTraffic } := by
  refine ⟨fun _ => ⟨rfl, rfl⟩, said, sent, relayed ++ r.handler.clientInbuf, h.config, h.handshake,
    ?_, ?_, ?_, fun hne => absurd hs hne⟩
  · rw [h.fromServer]
    simp [SocksRun.queuedToClient, relayTraffic]
  · rw [h.fromClient]
    simp [relayTraffic]
  · have hq := h.queuedToServer
    unfold SocksRun.queuedToServer at hq ⊢
    simp only [relayTraffic]
    rw [← List.append_assoc, hq, List.append_assoc]

/-- What is still to be read, before anything was relayed. -/
theorem Progress.waiting (h : Progress impl c hello r said sent relayed)
    (hs : r.handler.state ≠ .established) :
    r.queuedToClient = [] ∧ relayed = [] ∧ r.fromServer = said ++ r.handler.serverInbuf ∧
      r.fromClient = r.handler.clientInbuf ∧
      r.queuedToServer = sent.flatMap (·.bytes impl c hello) := by
  obtain ⟨hc, rfl⟩ := h.quiet hs
  refine ⟨hc, rfl, ?_, ?_, ?_⟩
  · rw [h.fromServer, hc, List.nil_append]
  · rw [h.fromClient, List.nil_append]
  · rw [h.queuedToServer, List.append_nil]

/-- The handler takes a message off the server queue, queues one itself, and goes on. -/
theorem Progress.next {used rest : List UInt8} (h : Progress impl c hello r said sent relayed)
    (handler' : SocksProxyImpl) (more : List ClientMessage) (hs : r.handler.state ≠ .established)
    (hin : r.handler.serverInbuf = used ++ rest)
    (hconfig : handler'.toSocksConfig = r.handler.toSocksConfig)
    (hserverInbuf : handler'.serverInbuf = rest)
    (hclientInbuf : handler'.clientInbuf = r.handler.clientInbuf)
    (hclientOutbuf : handler'.clientOutbuf = r.handler.clientOutbuf)
    (hserverOutbuf : handler'.serverOutbuf =
      r.handler.serverOutbuf ++ more.flatMap (·.bytes impl c hello))
    (hh : Handshake impl c handler'.state (said ++ used) (sent ++ more)) :
    Progress impl c hello { r with handler := handler' } (said ++ used) (sent ++ more) [] := by
  obtain ⟨hq, -, hfs, hfc, hqs⟩ := h.waiting hs
  have hq' : SocksRun.queuedToClient { r with handler := handler' } = [] := by
    unfold SocksRun.queuedToClient at hq ⊢
    simp only [hclientOutbuf]
    exact hq
  refine ⟨hconfig.trans h.config, hh, ?_, ?_, ?_, fun _ => ⟨hq', rfl⟩⟩
  · rw [hq', List.nil_append, hserverInbuf, List.append_assoc, ← hin]
    exact hfs
  · rw [List.nil_append, hclientInbuf]
    exact hfc
  · unfold SocksRun.queuedToServer at hqs ⊢
    simp only [hserverOutbuf]
    rw [← List.append_assoc, hqs, List.flatMap_append, List.append_nil]

/-- A change of state keeps a run in step with the handshake. -/
theorem inv_advance {handler' : SocksProxyImpl} (h : Progress impl c hello r said sent relayed)
    (ha : Advance impl r.handler handler') :
    SocksInv impl c hello { r with handler := handler' } := by
  have hh := h.handshake
  cases ha with
  | waits hs => exact inv_of_waiting h hs
  | relays hs => exact inv_relayTraffic h hs
  | @granted reply rest hs hv hin hlen hcode =>
    rw [hs] at hh
    cases hh
    have hv : c.version = .V4 := h.config ▸ hv
    have hp := h.next { r.handler with serverInbuf := rest, state := .established } []
      (by rw [hs]; decide) hin rfl rfl rfl rfl (List.append_nil _).symm
      (.accepted (.socks4 hv hlen hcode))
    exact inv_relayTraffic hp rfl
  | @selected selection rest hs hv hin hc hr =>
    rw [hs] at hh
    cases hh
    have hv : c.version = .V5 := h.config ▸ hv
    have hc : c.credentials.isSome = true := h.config ▸ hc
    have hp := h.next ({ r.handler with serverInbuf := rest }.sendAuthData impl) [.auth]
      (by rw [hs]; decide) hin rfl rfl rfl rfl (by rw [← h.config, List.flatMap_singleton]; rfl)
      (.selected hv hc hr)
    exact inv_of_waiting hp nofun
  | @unchallenged selection rest hs hv hin hr =>
    rw [hs] at hh
    cases hh
    have hv : c.version = .V5 := h.config ▸ hv
    have hp := h.next ({ r.handler with serverInbuf := rest }.sendRequestSocks5 impl) [.request]
      (by rw [hs]; decide) hin rfl rfl rfl rfl (by rw [← h.config, List.flatMap_singleton]; rfl)
      (.requested hv (.noAuth hr))
    exact inv_of_waiting hp nofun
  | @authenticated status rest hs hin hr =>
    rw [hs] at hh
    cases hh with
    | selected hv hc hsel =>
      have hp := h.next ({ r.handler with serverInbuf := rest }.sendRequestSocks5 impl)
        [.request] (by rw [hs]; decide) hin rfl rfl rfl rfl
        (by rw [← h.config, List.flatMap_singleton]; rfl)
        (.requested hv (.userPass hc hsel hr))
      exact inv_of_waiting hp nofun
  | @accepted reply rest addr udpAssociate hs hin hr =>
    rw [hs] at hh
    generalize hsent : sent = sent' at hh
    cases hh with
    | requested hv hn =>
      subst hsent
      have hp := h.next
        { r.handler with serverInbuf := rest, udpAssociate, state := .established } []
        (by rw [hs]; decide) hin rfl rfl rfl rfl (List.append_nil _).symm
        (by rw [List.append_nil]; exact .accepted (.socks5 hv hn hr))
      exact inv_relayTraffic hp rfl

theorem inv_step (hf : impl.Framed) (h : SocksInv impl c hello r) (hs : r.Step impl r') :
    SocksInv impl c hello r' := by
  obtain ⟨hsettled, said, sent, relayed, hp⟩ := h
  cases hs with
  | @server buffer handler hpush =>
    -- the pushed bytes are at the end of the server queue when `state_change` runs
    have hp' : Progress impl c hello { r with
        handler := r.handler.receive .fromServer buffer
        fromServer := r.fromServer ++ buffer } said sent relayed :=
      ⟨hp.config, hp.handshake,
        by rw [hp.fromServer]; simp [SocksRun.queuedToClient, receive],
        hp.fromClient, hp.queuedToServer, hp.quiet⟩
    exact inv_advance hp' (advance_stateChange hf hp'.handshake hpush)
  | @client buffer handler hpush =>
    have hp' : Progress impl c hello { r with
        handler := r.handler.receive .fromClient buffer
        fromClient := r.fromClient ++ buffer } said sent relayed :=
      ⟨hp.config, hp.handshake, hp.fromServer, by rw [hp.fromClient]; simp [receive],
        hp.queuedToServer, hp.quiet⟩
    exact inv_advance hp' (advance_stateChange hf hp'.handshake hpush)
  | @consumeToServer size hsize =>
    refine ⟨hsettled, said, sent, relayed, hp.config, hp.handshake, hp.fromServer, hp.fromClient,
      ?_, hp.quiet⟩
    rw [← hp.queuedToServer]
    simp [SocksRun.queuedToServer, consumeData]
  | @consumeToClient size hsize =>
    have hq : SocksRun.queuedToClient { r with
        handler := r.handler.consumeData .toClient size
        toClient := r.toClient ++ r.handler.clientOutbuf.take size } = r.queuedToClient := by
      simp [SocksRun.queuedToClient, consumeData]
    exact ⟨hsettled, said, sent, relayed, hp.config, hp.handshake, hq ▸ hp.fromServer,
      hp.fromClient, hp.queuedToServer, hq ▸ hp.quiet⟩

theorem inv_start {handler : SocksProxyImpl} (hnew : SocksProxyImpl.new impl c = .ok handler) :
    SocksInv impl c handler.serverOutbuf (.start handler) := by
  unfold SocksProxyImpl.new at hnew
  split at hnew
  · cases hnew
  · cases hnew
    refine ⟨nofun, [], [.hello], [], rfl, .hello, rfl, rfl, ?_, fun _ => ⟨rfl, rfl⟩⟩
    simp [SocksRun.queuedToServer, SocksRun.start, ClientMessage.bytes]

theorem inv_run (hf : impl.Framed) (h : SocksInv impl c hello r)
    (hrun : Relation.ReflTransGen (SocksRun.Step impl) r r') : SocksInv impl c hello r' := by
  induction hrun with
  | refl => exact h
  | tail _ hs ih => exact inv_step hf ih hs

/-! ## 5. Soundness -/

variable {state : SocksState}

/-- The client's messages come in order, the first one always. -/
theorem Handshake.sent_eq (h : Handshake impl c state said sent) :
    .hello ∈ sent ∧ sent.Sublist [.hello, .auth, .request] := by
  cases h with
  | hello | selected => decide
  | requested hv hn => cases hn <;> decide
  | accepted ha =>
    cases ha with
    | socks4 => decide
    | socks5 hv hn hr => cases hn <;> decide

/-- Credentials were sent: the server had selected the method they are for. -/
theorem Handshake.of_auth (h : Handshake impl c state said sent) (hm : .auth ∈ sent) :
    c.version = .V5 ∧ c.credentials.isSome = true ∧ ∃ selection rest, said = selection ++ rest ∧
      Reads impl.handshakeResponse.retrieveFromStream selection .UserPass := by
  have of_negotiated : ∀ {said sent}, c.version = .V5 → Negotiated impl c said sent →
      ClientMessage.auth ∈ sent ++ [.request] → ∀ reply, c.version = .V5 ∧
        c.credentials.isSome = true ∧ ∃ selection rest, said ++ reply = selection ++ rest ∧
          Reads impl.handshakeResponse.retrieveFromStream selection .UserPass := by
    intro said sent hv hn hm reply
    cases hn with
    | noAuth => simp at hm
    | userPass hc hsel hs => exact ⟨hv, hc, _, _, List.append_assoc .., hsel⟩
  cases h with
  | hello => simp at hm
  | selected hv hc hsel => exact ⟨hv, hc, said, [], (List.append_nil _).symm, hsel⟩
  | requested hv hn => simpa using of_negotiated hv hn hm []
  | accepted ha =>
    cases ha with
    | socks4 => simp at hm
    | socks5 hv hn hr => exact of_negotiated hv hn hm _

/-- The request was sent: the server had selected a method and accepted the credentials. -/
theorem Handshake.of_request (h : Handshake impl c state said sent) (hm : .request ∈ sent) :
    c.version = .V5 ∧ ∃ negotiation rest before, said = negotiation ++ rest ∧
      Negotiated impl c negotiation before := by
  cases h with
  | hello | selected => simp at hm
  | requested hv hn => exact ⟨hv, said, [], _, (List.append_nil _).symm, hn⟩
  | accepted ha =>
    cases ha with
    | socks4 => simp at hm
    | socks5 hv hn hr => exact ⟨hv, _, _, _, rfl, hn⟩

/-- **Soundness of the handshake**, whatever the server and the client push, in whatever pieces.
    The client's messages go out in order, each once, and nothing else before the handler is
    established; it is established only after an accepting transcript, and from then on each side
    gets exactly the bytes of the other one. A SOCKS5 handler sends credentials only after the
    server selected `UserPass`, and its request only after the negotiation. -/
theorem handshake_sound (hf : impl.Framed) {handler : SocksProxyImpl}
    (hnew : SocksProxyImpl.new impl c = .ok handler)
    (hrun : Relation.ReflTransGen (SocksRun.Step impl) (.start handler) r) :
    ∃ sent : List ClientMessage,
      (.hello ∈ sent ∧ sent.Sublist [.hello, .auth, .request]) ∧
      (c.version = .V5 → handler.serverOutbuf = impl.handshakeRequest c.methods) ∧
      (r.handler.connectionEstablished = false → r.queuedToClient = [] ∧
        r.queuedToServer = sent.flatMap (·.bytes impl c handler.serverOutbuf)) ∧
      (r.handler.connectionEstablished = true → ∃ said, Accepting impl c said sent ∧
        r.fromServer = said ++ r.queuedToClient ∧
        r.queuedToServer = sent.flatMap (·.bytes impl c handler.serverOutbuf) ++ r.fromClient) ∧
      (.auth ∈ sent → c.version = .V5 ∧ c.credentials.isSome = true ∧
        ∃ selection rest, r.fromServer = selection ++ rest ∧
          Reads impl.handshakeResponse.retrieveFromStream selection .UserPass) ∧
      (.request ∈ sent → c.version = .V5 ∧ ∃ negotiation rest before,
        r.fromServer = negotiation ++ rest ∧ Negotiated impl c negotiation before) := by
  obtain ⟨hsettled, said, sent, relayed, hp⟩ := inv_run hf (inv_start hnew) hrun
  refine ⟨sent, hp.handshake.sent_eq, fun hv => ?_, fun he => ?_, fun he => ?_, fun hm => ?_,
    fun hm => ?_⟩
  · unfold SocksProxyImpl.new SocksConfig.clientHello at hnew
    rw [hv] at hnew
    cases hnew
    rfl
  · obtain ⟨hq, -, -, -, hqs⟩ := hp.waiting (of_decide_eq_false he)
    exact ⟨hq, hqs⟩
  · have hs : r.handler.state = .established := of_decide_eq_true he
    obtain ⟨hsin, hcin⟩ := hsettled hs
    have hh := hp.handshake
    have hfs := hp.fromServer
    have hfc := hp.fromClient
    rw [hs] at hh
    rw [hsin, List.append_nil] at hfs
    rw [hcin, List.append_nil] at hfc
    cases hh with
    | accepted ha => exact ⟨said, ha, hfs, hfc ▸ hp.queuedToServer⟩
  · obtain ⟨hv, hc, selection, rest, rfl, hsel⟩ := hp.handshake.of_auth hm
    exact ⟨hv, hc, selection, _, by rw [hp.fromServer, List.append_assoc], hsel⟩
  · obtain ⟨hv, negotiation, rest, before, rfl, hn⟩ := hp.handshake.of_request hm
    exact ⟨hv, negotiation, _, before, by rw [hp.fromServer, List.append_assoc], hn⟩

end Steps

/-- A session through a SOCKS server that asks for a password. -/
def sampleSocks (version : Version) : SocksConfig where
  serverAddr := .v4 0x7F000001#32 1080
  info := ⟨.v4 0x0A000002#32 40000, .v4 0xCB007109#32 22⟩
  domainName := none
  version
  credentials := some ⟨['m', 'e'], ['p', 'w']⟩
  command := .Connect

/-- A SOCKS4 handler sends credentials and request at once, before the server has said anything. -/
theorem socks4_hello_has_credentials :
    ∃ handler, SocksProxyImpl.new rfc1928 (sampleSocks .V4) = .ok handler ∧
      (SocksRun.start handler).fromServer = [] ∧
      (SocksRun.start handler).queuedToServer =
        [4, 1, 0, 22, 203, 0, 113, 9] ++ SocksConfig.userId ⟨['m', 'e'], ['p', 'w']⟩ ++ [0] :=
  ⟨_, rfl, rfl, rfl⟩

/-- The handshake with a password, in pieces, and a greeting right behind it. -/
theorem sample_handshake_run :
    ∃ handler r, SocksProxyImpl.new rfc1928 (sampleSocks .V5) = .ok handler ∧
      Relation.ReflTransGen (SocksRun.Step rfc1928) (.start handler) r ∧
      r.handler.connectionEstablished = true ∧ r.queuedToClient = [83, 83, 72] := by
  refine ⟨_, _, rfl, .tail (.tail (.tail (.tail (.tail .refl
    (.server [5] rfl)) (.client [104, 105] rfl))
    (.server [2] rfl)) (.server [1, 0] rfl))
    (.server [5, 0, 0, 1, 0, 0, 0, 0, 0, 0, 83, 83, 72] rfl), rfl, rfl⟩

theorem sample_handshake_sound :
    ∃ (r : SocksRun) (said : List UInt8) (sent : List ClientMessage),
      r.queuedToClient = [83, 83, 72] ∧
      Accepting rfc1928 (sampleSocks .V5) said sent ∧ r.fromServer = said ++ [83, 83, 72] := by
  obtain ⟨handler, r, hnew, hrun, he, hq⟩ := sample_handshake_run
  obtain ⟨sent, -, -, -, hest, -, -⟩ := handshake_sound rfc1928_framed hnew hrun
  obtain ⟨said, ha, hfs, -⟩ := hest he
  exact ⟨r, said, sent, hq, ha, hq ▸ hfs⟩

end Tun2Proxy
