/-
  File:      Tun2Proxy/Socks/Completeness.lean
  Subject:   A SOCKS handshake with a willing server comes to its end, in whatever pieces the
             replies arrive.

  A reply is answered as a whole: any proper part of it leaves the handler waiting (`Waits`), and
  all of it makes the handler send the next message (`Asks`) or ends the handshake (`Ends`). The
  replies of a server that goes along (`Willing`) are a chain of these (`Dialogue`), and along the
  chain the pieces do not matter, neither to a handler that is fed (`feed`) nor to the session
  that drives one (`handleTcpSession`).

  The server delivers a reply only after the message it answers, so no piece holds bytes of two
  replies; the last reply may share a piece with what follows it.
-/
import Tun2Proxy.Proxy.Session
import Tun2Proxy.Socks.Soundness

namespace Tun2Proxy

open Decoder

/-! ## 1. Fragments -/

/-- In pieces of a stream, the piece in which an initial part of the stream ends. -/
theorem exists_last_piece {α : Type} {pieces : List (List α)} {first rest : List α}
    (h : pieces.flatten = first ++ rest) (hne : first ≠ []) :
    ∃ before part tail after, pieces = before ++ (part ++ tail) :: after ∧
      first = before.flatten ++ part ∧ part ≠ [] ∧ rest = tail ++ after.flatten := by
  induction pieces generalizing first with
  | nil => exact absurd (List.append_eq_nil_iff.mp h.symm).1 hne
  | cons piece pieces ih =>
    rw [List.flatten_cons] at h
    rcases List.append_eq_append_iff.mp h with ⟨first', rfl, hp⟩ | ⟨tail, rfl, hrest⟩
    · -- the part goes on behind this piece
      by_cases hf : first' = []
      · subst hf
        rw [List.append_nil] at hne
        exact ⟨[], piece, [], pieces, by simp, by simp, hne, by simpa using hp.symm⟩
      · obtain ⟨before, part, tail, after, rfl, rfl, hpart, hrest⟩ := ih hp hf
        exact ⟨piece :: before, part, tail, after, rfl, by simp, hpart, hrest⟩
    · exact ⟨[], first, tail, pieces, rfl, rfl, hne, hrest⟩

/-- In pieces of which none is empty, the stream ends with the last one. -/
theorem exists_last_of_pieces {α : Type} {pieces : List (List α)}
    (hp : ∀ piece ∈ pieces, piece ≠ []) (hne : pieces.flatten ≠ []) :
    ∃ before last, pieces = before ++ [last] ∧ last ≠ [] := by
  rcases List.eq_nil_or_concat pieces with rfl | ⟨before, last, rfl⟩
  · exact absurd rfl hne
  · exact ⟨before, last, by simp, hp last (by simp)⟩

/-! ## 2. One reply -/

section Stages

variable {impl : Socks5Impl} {c : SocksConfig}

namespace SocksProxyImpl

variable {self : SocksProxyImpl}

/-- The handler with `bytes` in the server queue. -/
def holding (self : SocksProxyImpl) (bytes : List UInt8) : SocksProxyImpl :=
  { self with serverInbuf := bytes }

/-- The handler after it has queued `out` and gone on. -/
def asked (self : SocksProxyImpl) (out : List UInt8) (state : SocksState) : SocksProxyImpl :=
  { self with serverOutbuf := self.serverOutbuf ++ out, state }

theorem asked_asked (out out' : List UInt8) (state state' : SocksState) :
    (self.asked out state).asked out' state' = self.asked (out ++ out') state' := by
  unfold asked
  rw [List.append_assoc]

theorem holding_nil (h : self.serverInbuf = []) : self.holding [] = self := by
  unfold holding
  rw [← h]

theorem retrieve_of_part {α : Type} {message : Received α} {part rest : List UInt8} {a : α}
    (hi : Incremental NeedsMore message.retrieveFromStream)
    (h : Reads message.retrieveFromStream (part ++ rest) a) (hne : rest ≠ []) :
    (self.holding part).retrieve message = .ok none := by
  obtain ⟨e, he, hmore⟩ := hi h hne
  unfold retrieve holding
  simp only [he]
  exact if_pos hmore

theorem retrieve_of_reads {α : Type} {message : Received α} {used : List UInt8} {a : α}
    (h : Reads message.retrieveFromStream used a) (rest : List UInt8) :
    (self.holding (used ++ rest)).retrieve message = .ok (some a) := by
  unfold retrieve holding
  simp only [h rest]

theorem drain_holding {used rest : List UInt8} {n : Nat} (h : used.length = n) :
    (self.holding (used ++ rest)).drain n = self.holding rest := by
  unfold drain holding
  simp only [← h, List.drop_left]

end SocksProxyImpl

open SocksProxyImpl

/-- In this state, a proper initial part of the reply leaves the handler waiting. -/
def Waits (impl : Socks5Impl) (c : SocksConfig) (state : SocksState) (reply : List UInt8) : Prop :=
  ∀ ⦃self : SocksProxyImpl⦄ ⦃part rest : List UInt8⦄, self.toSocksConfig = c →
    self.state = state → reply = part ++ rest → rest ≠ [] →
    (self.holding part).stateChange impl = .ok (self.holding part)

/-- In this state, the reply makes the handler queue `out` and go on. -/
structure Asks (impl : Socks5Impl) (c : SocksConfig) (state : SocksState) (reply : List UInt8)
    (state' : SocksState) (out : List UInt8) : Prop where
  nonempty : reply ≠ []
  waits : Waits impl c state reply
  goesOn : ∀ (self : SocksProxyImpl) (rest : List UInt8), self.toSocksConfig = c →
    self.state = state →
    (self.holding (reply ++ rest)).stateChange impl = .ok ((self.holding rest).asked out state')

/-- In this state, the reply ends the handshake, and what follows it goes to the client. -/
structure Ends (impl : Socks5Impl) (c : SocksConfig) (state : SocksState) (reply : List UInt8) :
    Prop where
  nonempty : reply ≠ []
  waits : Waits impl c state reply
  establishes : ∃ udpAssociate : Option SocketAddr → Option SocketAddr,
    ∀ (self : SocksProxyImpl) (rest : List UInt8), self.toSocksConfig = c → self.state = state →
      (self.holding (reply ++ rest)).stateChange impl =
        .ok { self with
          serverInbuf := rest
          udpAssociate := udpAssociate self.udpAssociate
          state := .established }.relayTraffic

/-- A reply that says yes. A handler for UDP must be able to use the address in it. -/
structure Positive (impl : Socks5Impl) (c : SocksConfig) (reply : List UInt8) (addr : Address) :
    Prop where
  nonempty : reply ≠ []
  reads : Reads impl.response.retrieveFromStream reply ⟨.Succeeded, addr⟩
  usable : c.command = .UdpAssociate → ∃ a, impl.socketAddrTryFrom addr = .ok a

variable {reply : List UInt8}

theorem ends_response (hf : impl.Framed) (hi : impl.Incremental) {addr : Address}
    (h : Positive impl c reply addr) : Ends impl c .receiveResponse reply := by
  refine ⟨h.nonempty, fun self part rest hc hs he hne => ?_, ?_⟩
  · unfold stateChange receiveConnectionStatus
    rw [retrieve_of_part hi.response (he ▸ h.reads) hne]
    simp only [holding, hs]
  · by_cases hcommand : c.command = .UdpAssociate
    · obtain ⟨a, ha⟩ := h.usable hcommand
      refine ⟨fun _ => some a, fun self rest hc hs => ?_⟩
      have hcommand : (self.holding rest).command = .UdpAssociate := by rw [← hcommand, ← hc]; rfl
      unfold stateChange receiveConnectionStatus
      rw [retrieve_of_reads h.reads, show (self.holding (reply ++ rest)).state = _ from hs]
      simp only [drain_holding (hf.response.length h.reads)]
      rw [if_neg (not_not.mpr rfl), if_pos hcommand, ha]
      rfl
    · refine ⟨id, fun self rest hc hs => ?_⟩
      have hcommand : ¬ (self.holding rest).command = .UdpAssociate := by
        rw [← hc] at hcommand
        exact hcommand
      unfold stateChange receiveConnectionStatus
      rw [retrieve_of_reads h.reads, show (self.holding (reply ++ rest)).state = _ from hs]
      simp only [drain_holding (hf.response.length h.reads)]
      rw [if_neg (not_not.mpr rfl), if_neg hcommand]
      rfl

theorem asks_auth (hf : impl.Framed) (hi : impl.Incremental) (hne : reply ≠ [])
    (h : Reads impl.passwordResponse.retrieveFromStream reply .Succeeded) :
    Asks impl c .receiveAuthResponse reply .receiveResponse (c.requestSocks5 impl) := by
  refine ⟨hne, fun self part rest hc hs he hrest => ?_, fun self rest hc hs => ?_⟩
  · unfold stateChange receiveAuthData
    rw [retrieve_of_part hi.passwordResponse (he ▸ h) hrest]
    simp only [holding, hs]
  · unfold stateChange receiveAuthData
    rw [retrieve_of_reads h, show (self.holding (reply ++ rest)).state = _ from hs]
    simp only [drain_holding (hf.passwordResponse.length h)]
    rw [if_neg (not_not.mpr rfl), ← hc]
    rfl

/-- The first reply of a SOCKS5 server: an unfinished one leaves the handler waiting. -/
theorem waits_selection (hi : impl.Incremental) (hv : c.version = .V5) {method : AuthMethod}
    (h : Reads impl.handshakeResponse.retrieveFromStream reply method) :
    Waits impl c .serverHello reply := by
  intro self part rest hc hs he hrest
  have hv : (self.holding part).version = .V5 := by rw [← hv, ← hc]; rfl
  unfold stateChange receiveServerHello receiveServerHelloSocks5
  rw [retrieve_of_part hi.handshakeResponse (he ▸ h) hrest,
    show (self.holding part).state = _ from hs, hv]

/-- A whole one makes it send what the method asks for, if it supports the method. -/
theorem asks_selection (hf : impl.Framed) (hi : impl.Incremental) (hv : c.version = .V5)
    (hne : reply ≠ []) {method : AuthMethod}
    (h : Reads impl.handshakeResponse.retrieveFromStream reply method)
    (hsupported : ∀ self : SocksProxyImpl, self.toSocksConfig = c →
      self.unsupported method = false) :
    Asks impl c .serverHello reply
      (if method = .UserPass then .receiveAuthResponse else .receiveResponse)
      (if method = .UserPass then c.authData impl else c.requestSocks5 impl) := by
  refine ⟨hne, waits_selection hi hv h, fun self rest hc hs => ?_⟩
  have hv : (self.holding (reply ++ rest)).version = .V5 := by rw [← hv, ← hc]; rfl
  unfold stateChange receiveServerHello receiveServerHelloSocks5
  rw [retrieve_of_reads h, show (self.holding (reply ++ rest)).state = _ from hs, hv]
  simp only [drain_holding (hf.handshakeResponse.length h)]
  rw [hsupported (self.holding rest) hc, if_neg Bool.false_ne_true, ← hc]
  split <;> rfl

theorem supports_userPass (hcred : c.credentials.isSome = true) (self : SocksProxyImpl)
    (hc : self.toSocksConfig = c) : self.unsupported .UserPass = false := by
  obtain ⟨key, hkey⟩ := Option.isSome_iff_exists.mp hcred
  unfold unsupported
  rw [show self.credentials = some key by rw [← hkey, ← hc]]
  rfl

theorem ends_socks4 (hv : c.version = .V4) (hlen : reply.length = 8) (hcode : reply[1]? = some 0x5a)
    : Ends impl c .serverHello reply := by
  have hne : reply ≠ [] := by
    rintro rfl
    cases hlen
  refine ⟨hne, fun self part rest hc hs he hrest => ?_, id, fun self rest hc hs => ?_⟩
  · have hv : (self.holding part).version = .V4 := by rw [← hv, ← hc]; rfl
    have hshort : (self.holding part).serverInbuf.length < 8 := by
      have hpos := List.length_pos_of_ne_nil hrest
      have hsum := congrArg List.length he
      rw [List.length_append] at hsum
      show part.length < 8
      omega
    unfold stateChange receiveServerHello receiveServerHelloSocks4
    rw [show (self.holding part).state = _ from hs, hv]
    exact if_pos hshort
  · have hv : (self.holding (reply ++ rest)).version = .V4 := by rw [← hv, ← hc]; rfl
    have hlong : ¬ (self.holding (reply ++ rest)).serverInbuf.length < 8 := by
      show ¬ (reply ++ rest).length < 8
      rw [List.length_append]
      omega
    have hcode' : (self.holding (reply ++ rest)).serverInbuf[1]? = some 0x5a := by
      show (reply ++ rest)[1]? = some 0x5a
      rw [List.getElem?_append_left (by omega), hcode]
    unfold stateChange receiveServerHello receiveServerHelloSocks4
    rw [show (self.holding (reply ++ rest)).state = _ from hs, hv]
    show (if _ then _ else _) = _
    rw [if_neg hlong, if_neg (not_not.mpr hcode'), drain_holding hlen]
    rfl

/-! ## 3. A reply in pieces -/

variable {self : SocksProxyImpl} {state state' : SocksState} {reply out : List UInt8}

namespace SocksProxyImpl

/-- Pushing the pieces of what the server sends, up to the first error. -/
def feed (impl : Socks5Impl) : List (List UInt8) → SocksProxyImpl → Except Error SocksProxyImpl
  | [], self => .ok self
  | chunk :: chunks, self =>
    match self.pushData impl .fromServer chunk with
    | .error e => .error e
    | .ok self => feed impl chunks self

theorem feed_cons {chunk : List UInt8} {chunks : List (List UInt8)} {next : SocksProxyImpl}
    (h : self.pushData impl .fromServer chunk = .ok next) :
    feed impl (chunk :: chunks) self = feed impl chunks next := by
  rw [feed, h]

theorem feed_append {xs ys : List (List UInt8)} {next : SocksProxyImpl}
    (h : feed impl xs self = .ok next) : feed impl (xs ++ ys) self = feed impl ys next := by
  induction xs generalizing self with
  | nil =>
    cases h
    rfl
  | cons chunk chunks ih =>
    rw [List.cons_append]
    cases hp : self.pushData impl .fromServer chunk with
    | error e =>
      rw [feed, hp] at h
      cases h
    | ok mid =>
      rw [feed_cons hp] at h ⊢
      exact ih h

theorem push_waits (hw : Waits impl c state reply) (hc : self.toSocksConfig = c)
    (hs : self.state = state) {inbuf chunk rest : List UInt8}
    (hpart : reply = inbuf ++ chunk ++ rest) (hne : rest ≠ []) :
    (self.holding inbuf).pushData impl .fromServer chunk = .ok (self.holding (inbuf ++ chunk)) :=
  hw hc hs hpart hne

/-- While a reply is not all there, its pieces pile up in the server queue. -/
theorem feed_waits (hw : Waits impl c state reply) (hc : self.toSocksConfig = c)
    (hs : self.state = state) (chunks : List (List UInt8)) (inbuf : List UInt8) {rest : List UInt8}
    (hpart : reply = inbuf ++ chunks.flatten ++ rest) (hne : rest ≠ []) :
    feed impl chunks (self.holding inbuf) = .ok (self.holding (inbuf ++ chunks.flatten)) := by
  induction chunks generalizing inbuf with
  | nil =>
    rw [List.flatten_nil, List.append_nil]
    rfl
  | cons chunk chunks ih =>
    have hpart' : reply = inbuf ++ chunk ++ (chunks.flatten ++ rest) := by
      rw [hpart]
      simp
    rw [feed_cons (push_waits hw hc hs hpart' (by simp [hne])),
      ih _ (by rw [hpart', List.append_assoc _ chunks.flatten]), List.flatten_cons,
      List.append_assoc]

/-- A reply in pieces has the effect of the reply. -/
theorem feed_asks (h : Asks impl c state reply state' out) (hc : self.toSocksConfig = c)
    (hs : self.state = state) (hin : self.serverInbuf = []) {chunks : List (List UInt8)}
    (hne : ∀ chunk ∈ chunks, chunk ≠ []) (hreply : chunks.flatten = reply) :
    feed impl chunks self = .ok (self.asked out state') := by
  obtain ⟨before, last, rfl, hlast⟩ := exists_last_of_pieces hne (hreply ▸ h.nonempty)
  rw [List.flatten_append, List.flatten_singleton] at hreply
  have hwait := feed_waits h.waits hc hs before [] hreply.symm hlast
  rw [holding_nil hin, List.nil_append] at hwait
  have hgoesOn := h.goesOn self [] hc hs
  rw [List.append_nil, ← hreply, holding_nil hin] at hgoesOn
  have hpush : (self.holding before.flatten).pushData impl .fromServer last = _ := hgoesOn
  rw [feed_append hwait, feed_cons hpush]
  rfl

/-- Once established, the handler hands on what it is given. -/
theorem feed_established (hs : self.state = .established) (hs' : self.serverInbuf = [])
    (hc' : self.clientInbuf = []) (chunks : List (List UInt8)) :
    feed impl chunks self =
      .ok { self with clientOutbuf := self.clientOutbuf ++ chunks.flatten } := by
  induction chunks generalizing self with
  | nil =>
    rw [List.flatten_nil, List.append_nil]
    rfl
  | cons chunk chunks ih =>
    have hpush : self.pushData impl .fromServer chunk =
        .ok { self with clientOutbuf := self.clientOutbuf ++ chunk } := by
      unfold pushData receive stateChange
      simp only [hs, relayTraffic, hs', hc', List.nil_append, List.append_nil]
    rw [feed_cons hpush, ih (by exact hs) (by exact hs') (by exact hc'), List.flatten_cons,
      List.append_assoc]

/-- The last reply in pieces, the last of which may hold more: the handler is established, and all
    that follows the reply goes to the client. -/
theorem feed_ends (h : Ends impl c state reply) (hc : self.toSocksConfig = c)
    (hs : self.state = state) (hin : self.serverInbuf = []) {chunks : List (List UInt8)}
    {app : List UInt8} (hreply : chunks.flatten = reply ++ app) :
    ∃ udpAssociate, feed impl chunks self = .ok { self with
      clientInbuf := []
      clientOutbuf := self.clientOutbuf ++ app
      serverOutbuf := self.serverOutbuf ++ self.clientInbuf
      udpAssociate
      state := .established } := by
  obtain ⟨before, part, tail, after, rfl, hfirst, hpart, rfl⟩ := exists_last_piece hreply h.nonempty
  obtain ⟨udpAssociate, hest⟩ := h.establishes
  refine ⟨udpAssociate self.udpAssociate, ?_⟩
  have hwait := feed_waits h.waits hc hs before [] hfirst hpart
  rw [holding_nil hin, List.nil_append] at hwait
  have hestablishes := hest self tail hc hs
  rw [hfirst, List.append_assoc] at hestablishes
  have hpush : (self.holding before.flatten).pushData impl .fromServer (part ++ tail) = _ :=
    hestablishes
  rw [feed_append hwait, feed_cons hpush, feed_established rfl rfl rfl]
  simp [relayTraffic, hin]

end SocksProxyImpl

/-! ## 4. The replies of a willing server -/

/-- The replies of a server that goes along, and selects a method the handler supports: those before
    the last one, each with the message it makes the client send, and the last one. -/
inductive Willing (impl : Socks5Impl) (c : SocksConfig) :
    List (List UInt8 × ClientMessage) → List UInt8 → Prop
  | socks4 {reply : List UInt8} (hv : c.version = .V4) (hlen : reply.length = 8)
      (hcode : reply[1]? = some 0x5a) : Willing impl c [] reply
  | noAuth {selection reply : List UInt8} {addr : Address} (hv : c.version = .V5)
      (hne : selection ≠ [])
      (h : Reads impl.handshakeResponse.retrieveFromStream selection .NoAuth)
      (hr : Positive impl c reply addr) : Willing impl c [(selection, .request)] reply
  | userPass {selection status reply : List UInt8} {addr : Address} (hv : c.version = .V5)
      (hc : c.credentials.isSome = true) (hne : selection ≠ [])
      (h : Reads impl.handshakeResponse.retrieveFromStream selection .UserPass)
      (hne' : status ≠ [])
      (hs : Reads impl.passwordResponse.retrieveFromStream status .Succeeded)
      (hr : Positive impl c reply addr) :
      Willing impl c [(selection, .auth), (status, .request)] reply

/-- Replies as the handler takes them: from a state where it rests, one after the other. -/
inductive Dialogue (impl : Socks5Impl) (c : SocksConfig) (hello : List UInt8) :
    SocksState → List (List UInt8 × ClientMessage) → List UInt8 → Prop
  | ends {state : SocksState} {reply : List UInt8} (hs : state ≠ .established)
      (h : Ends impl c state reply) : Dialogue impl c hello state [] reply
  | asks {state state' : SocksState} {reply final : List UInt8} {message : ClientMessage}
      {early : List (List UInt8 × ClientMessage)} (hs : state ≠ .established)
      (h : Asks impl c state reply state' (message.bytes impl c hello))
      (rest : Dialogue impl c hello state' early final) :
      Dialogue impl c hello state ((reply, message) :: early) final

variable {early : List (List UInt8 × ClientMessage)} {final : List UInt8}

theorem Willing.dialogue (hf : impl.Framed) (hi : impl.Incremental) (hello : List UInt8)
    (h : Willing impl c early final) : Dialogue impl c hello .serverHello early final := by
  cases h with
  | socks4 hv hlen hcode => exact .ends (by decide) (ends_socks4 hv hlen hcode)
  | noAuth hv hne h hr =>
    exact .asks (by decide) (asks_selection hf hi hv hne h fun _ _ => rfl)
      (.ends (by decide) (ends_response hf hi hr))
  | userPass hv hc hne h hne' hs hr =>
    exact .asks (by decide) (asks_selection hf hi hv hne h (supports_userPass hc))
      (.asks (by decide) (asks_auth hf hi hne' hs) (.ends (by decide) (ends_response hf hi hr)))

/-- The bytes of the messages that the replies make the client send. -/
def answers (impl : Socks5Impl) (c : SocksConfig) (hello : List UInt8)
    (early : List (List UInt8 × ClientMessage)) : List UInt8 :=
  (early.map (·.2)).flatMap (·.bytes impl c hello)

/-- Pieces of the replies, none of them empty. -/
structure Pieces (fragments : List (List (List UInt8)))
    (early : List (List UInt8 × ClientMessage)) : Prop where
  flatten : fragments.map List.flatten = early.map (·.1)
  nonempty : ∀ chunks ∈ fragments, ∀ chunk ∈ chunks, chunk ≠ []

theorem Pieces.cons {fragments : List (List (List UInt8))} {message : ClientMessage}
    (h : Pieces fragments ((reply, message) :: early)) :
    ∃ chunks more, fragments = chunks :: more ∧ chunks.flatten = reply ∧
      (∀ chunk ∈ chunks, chunk ≠ []) ∧ Pieces more early := by
  cases fragments with
  | nil => exact absurd h.flatten (by simp)
  | cons chunks more =>
    obtain ⟨hc, hm⟩ := List.forall_mem_cons.mp h.nonempty
    obtain ⟨hreply, hmore⟩ := List.cons.inj h.flatten
    exact ⟨chunks, more, rfl, hreply, hc, hmore, hm⟩

theorem Pieces.nil {fragments : List (List (List UInt8))} (h : Pieces fragments []) :
    fragments = [] := List.map_eq_nil_iff.mp h.flatten

namespace SocksProxyImpl

/-- The replies before the last one, in pieces: the handler has said what it has to say, and waits
    for the last one. -/
theorem feed_early {hello final : List UInt8} {early : List (List UInt8 × ClientMessage)}
    (h : Dialogue impl c hello state early final) (hc : self.toSocksConfig = c)
    (hs : self.state = state) (hin : self.serverInbuf = []) {fragments : List (List (List UInt8))}
    (hp : Pieces fragments early) :
    ∃ last, last ≠ .established ∧ Ends impl c last final ∧
      feed impl fragments.flatten self = .ok (self.asked (answers impl c hello early) last) := by
  induction h generalizing self fragments with
  | @ends state _ hne h =>
    cases hp.nil
    refine ⟨state, hne, h, ?_⟩
    unfold asked answers
    rw [← hs, List.map_nil, List.flatMap_nil, List.append_nil]
    rfl
  | @asks _ state' _ _ message early hne h _ ih =>
    obtain ⟨chunks, more, rfl, hreply, hchunks, hp⟩ := hp.cons
    have hfeed := feed_asks h hc hs hin hchunks hreply
    obtain ⟨last, hlast, hends, hmore⟩ :=
      @ih (self.asked (message.bytes impl c hello) state') hc rfl hin more hp
    refine ⟨last, hlast, hends, ?_⟩
    rw [List.flatten_cons, feed_append hfeed, hmore, asked_asked]
    rfl

end SocksProxyImpl

/-! ## 5. The session -/

variable {x : Exchange SocksProxyImpl} {reads : List ReadResult} {written : List UInt8}

theorem answer_nothing (h : x.handler.serverOutbuf = []) :
    x.answer (proxyHandler impl) = .ok x := by
  unfold Exchange.answer
  rw [if_neg]
  show ¬ 0 < x.handler.serverOutbuf.length
  rw [h]
  decide

/-- What the handler has queued is written. -/
theorem flush_queued (h : x.server = ⟨[], written⟩) :
    x.flush (proxyHandler impl) = .ok { x with
      server := ⟨[], written ++ x.handler.serverOutbuf⟩
      handler := { x.handler with serverOutbuf := [] }
      tx := x.tx + x.handler.serverOutbuf.length } := by
  unfold Exchange.flush
  rw [h]
  simp only [Writer.writeAll_ok]
  simp [proxyHandler, consumeData, peekData]

theorem answer_queued (h : x.server = ⟨[], written⟩) :
    ∃ x', x.answer (proxyHandler impl) = .ok x' ∧
      x'.handler = { x.handler with serverOutbuf := [] } ∧
      x'.server = ⟨[], written ++ x.handler.serverOutbuf⟩ := by
  by_cases hout : x.handler.serverOutbuf = []
  · refine ⟨x, answer_nothing hout, ?_, ?_⟩
    · rw [← hout]
    · rw [hout, List.append_nil, h]
  · exact ⟨_, (if_pos (List.length_pos_of_ne_nil hout)).trans (flush_queued h), rfl, rfl⟩

/-- The session waits for a reply and has written all that was queued. -/
structure Idle (c : SocksConfig) (state : SocksState) (written : List UInt8)
    (x : Exchange SocksProxyImpl) : Prop where
  config : x.handler.toSocksConfig = c
  state : x.handler.state = state
  inbuf : x.handler.serverInbuf = []
  outbuf : x.handler.serverOutbuf = []
  server : x.server = ⟨[], written⟩

theorem Idle.next {y : Exchange SocksProxyImpl} {written' : List UInt8}
    (h : Idle c state written x) (hy : y.handler = { x.handler with state := state' })
    (hserver : y.server = ⟨[], written'⟩) : Idle c state' written' y :=
  ⟨hy ▸ h.config, hy ▸ rfl, hy ▸ h.inbuf, hy ▸ h.outbuf, hserver⟩

/-- Pieces of an unfinished reply keep the session reading. -/
theorem loop_waits (hw : Waits impl c state reply) (hc : self.toSocksConfig = c)
    (hs : self.state = state) (hstate : state ≠ .established) (hout : self.serverOutbuf = [])
    (chunks : List (List UInt8)) (hne : ∀ chunk ∈ chunks, chunk ≠ []) (inbuf : List UInt8)
    {rest : List UInt8} (hpart : reply = inbuf ++ chunks.flatten ++ rest) (hrest : rest ≠ [])
    (hx : x.handler = self.holding inbuf) (reads : List ReadResult) :
    ∃ x', proxyLoop (proxyHandler impl) true (chunks.map .ok ++ reads) x =
        proxyLoop (proxyHandler impl) true reads x' ∧
      x'.handler = self.holding (inbuf ++ chunks.flatten) ∧ x'.server = x.server := by
  induction chunks generalizing inbuf x with
  | nil =>
    refine ⟨x, rfl, ?_, rfl⟩
    rw [hx, List.flatten_nil, List.append_nil]
  | cons chunk chunks ih =>
    obtain ⟨hchunk, hne⟩ := List.forall_mem_cons.mp hne
    have hpart' : reply = inbuf ++ chunk ++ (chunks.flatten ++ rest) := by
      rw [hpart]
      simp
    have hpush : (proxyHandler impl).pushData .fromServer chunk x.handler =
        .ok (self.holding (inbuf ++ chunk)) := by
      rw [hx]
      exact push_waits hw hc hs hpart' (by simp [hrest])
    have hest : (proxyHandler impl).connectionEstablished x.handler = false :=
      decide_eq_false (hx ▸ hs ▸ hstate)
    obtain ⟨x', hloop, hhandler, hserver⟩ := @ih
      { x with handler := self.holding (inbuf ++ chunk), rx := x.rx + chunk.length }
      hne (inbuf ++ chunk) (by rw [hpart', List.append_assoc _ chunks.flatten]) rfl
    refine ⟨x', ?_, ?_, hserver⟩
    · rw [List.map_cons, List.cons_append,
        proxyLoop_push hest hchunk hpush (answer_nothing hout), hloop]
    · rw [hhandler, List.flatten_cons, List.append_assoc]

/-- A reply in pieces: the session writes the client's message and reads on. -/
theorem loop_asks (h : Asks impl c state reply state' out) (hx : Idle c state written x)
    (hstate : state ≠ .established) {chunks : List (List UInt8)}
    (hne : ∀ chunk ∈ chunks, chunk ≠ []) (hreply : chunks.flatten = reply) :
    ∃ x', proxyLoop (proxyHandler impl) true (chunks.map .ok ++ reads) x =
        proxyLoop (proxyHandler impl) true reads x' ∧
      x'.handler = { x.handler with state := state' } ∧ x'.server = ⟨[], written ++ out⟩ := by
  obtain ⟨before, last, rfl, hlast⟩ := exists_last_of_pieces hne (hreply ▸ h.nonempty)
  obtain ⟨hbefore, -⟩ := List.forall_mem_append.mp hne
  rw [List.flatten_append, List.flatten_singleton] at hreply
  obtain ⟨y, hloop, hy, hyserver⟩ := loop_waits h.waits hx.config hx.state hstate hx.outbuf before
    hbefore [] hreply.symm hlast (holding_nil hx.inbuf).symm (.ok last :: reads)
  rw [List.nil_append] at hy
  -- the last piece completes the reply
  have hgoesOn := h.goesOn x.handler [] hx.config hx.state
  rw [List.append_nil, ← hreply, holding_nil hx.inbuf] at hgoesOn
  have hpush : (proxyHandler impl).pushData .fromServer last y.handler =
      .ok (x.handler.asked out state') := by
    rw [hy]
    exact hgoesOn
  have hest : (proxyHandler impl).connectionEstablished y.handler = false :=
    decide_eq_false (hy ▸ hx.state ▸ hstate)
  obtain ⟨x', hanswer, hhandler, hserver'⟩ :=
    @answer_queued impl { y with
      handler := x.handler.asked out state'
      rx := y.rx + last.length } written (hyserver.trans hx.server)
  refine ⟨x', ?_, ?_, ?_⟩
  · rw [List.map_append, List.append_assoc]
    exact hloop.trans (proxyLoop_push hest hlast hpush hanswer)
  · rw [hhandler, asked, ← hx.outbuf]
  · rw [hserver', asked, hx.outbuf, List.nil_append]

/-- The last reply in pieces, the last of which may hold more: the session ends, and leaves the
    pieces behind it to its caller. -/
theorem loop_ends (h : Ends impl c state reply) (hx : Idle c state written x)
    (hstate : state ≠ .established) (hcin : x.handler.clientInbuf = [])
    {chunks : List (List UInt8)} (hne : ∀ chunk ∈ chunks, chunk ≠ []) {app : List UInt8}
    (hreply : chunks.flatten = reply ++ app) :
    ∃ (tail : List UInt8) (after : List (List UInt8)) (x' : Exchange SocksProxyImpl),
      proxyLoop (proxyHandler impl) true (chunks.map .ok ++ reads) x = .ok x' ∧
      app = tail ++ after.flatten ∧ (∀ chunk ∈ after, chunk ≠ []) ∧
      x'.reads = after.map .ok ++ reads ∧ x'.server = ⟨[], written⟩ ∧
      x'.handler.clientOutbuf = x.handler.clientOutbuf ++ tail := by
  obtain ⟨before, part, tail, after, rfl, hfirst, hpart, rfl⟩ := exists_last_piece hreply h.nonempty
  obtain ⟨hbefore, hne⟩ := List.forall_mem_append.mp hne
  obtain ⟨hlast, hafter⟩ := List.forall_mem_cons.mp hne
  obtain ⟨y, hloop, hy, hyserver⟩ := loop_waits h.waits hx.config hx.state hstate hx.outbuf before
    hbefore [] hfirst hpart (holding_nil hx.inbuf).symm
    (.ok (part ++ tail) :: (after.map .ok ++ reads))
  rw [List.nil_append] at hy
  obtain ⟨udpAssociate, hestablishes⟩ := h.establishes
  have hest := hestablishes x.handler tail hx.config hx.state
  rw [hfirst, List.append_assoc] at hest
  have hpush : (proxyHandler impl).pushData .fromServer (part ++ tail) y.handler =
      .ok { x.handler with
        serverInbuf := tail
        udpAssociate := udpAssociate x.handler.udpAssociate
        state := .established }.relayTraffic := by
    rw [hy]
    exact hest
  have hest : (proxyHandler impl).connectionEstablished y.handler = false :=
    decide_eq_false (hy ▸ hx.state ▸ hstate)
  obtain ⟨x', hanswer, hhandler, hserver'⟩ :=
    @answer_queued impl { y with
      handler := { x.handler with
        serverInbuf := tail
        udpAssociate := udpAssociate x.handler.udpAssociate
        state := .established }.relayTraffic
      rx := y.rx + (part ++ tail).length } written (hyserver.trans hx.server)
  refine ⟨tail, after, { x' with reads := after.map .ok ++ reads }, ?_, rfl, hafter, rfl, ?_, ?_⟩
  · rw [List.map_append, List.map_cons, List.append_assoc, List.cons_append]
    refine (hloop.trans (proxyLoop_push hest hlast hpush hanswer)).trans ?_
    refine proxyLoop_established true ?_
    rw [hhandler]
    rfl
  · show x'.server = _
    rw [hserver']
    simp [relayTraffic, hcin, hx.outbuf]
  · show x'.handler.clientOutbuf = _
    rw [hhandler]
    rfl

/-- The replies before the last one, in pieces: the session has written what the client has to
    say, and reads on. -/
theorem loop_early {hello : List UInt8} (h : Dialogue impl c hello state early final)
    (hx : Idle c state written x) {fragments : List (List (List UInt8))}
    (hp : Pieces fragments early) (reads : List ReadResult) :
    ∃ last x', last ≠ .established ∧ Ends impl c last final ∧
      proxyLoop (proxyHandler impl) true (fragments.flatten.map .ok ++ reads) x =
        proxyLoop (proxyHandler impl) true reads x' ∧
      x'.handler = { x.handler with state := last } ∧
      x'.server = ⟨[], written ++ answers impl c hello early⟩ := by
  induction h generalizing x fragments written with
  | @ends state _ hne h =>
    cases hp.nil
    refine ⟨state, x, hne, h, rfl, by rw [← hx.state], ?_⟩
    rw [hx.server, answers, List.map_nil, List.flatMap_nil, List.append_nil]
  | @asks _ _ _ _ message early hne h _ ih =>
    obtain ⟨chunks, more, rfl, hreply, hchunks, hp⟩ := hp.cons
    obtain ⟨y, hloop, hy, hyserver⟩ := @loop_asks _ _ _ _ _ _ _
      (more.flatten.map .ok ++ reads) _ h hx hne _ hchunks hreply
    obtain ⟨last, x', hlast, hends, hmore, hhandler, hserver'⟩ := ih (hx.next hy hyserver) hp
    refine ⟨last, x', hlast, hends, ?_, ?_, ?_⟩
    · rw [List.flatten_cons, List.map_append, List.append_assoc, hloop, hmore]
    · rw [hhandler, hy]
    · rw [hserver', answers, answers, List.map_cons, List.flatMap_cons, List.append_assoc]

variable {handler : SocksProxyImpl}

/-- What a new handler is. -/
theorem new_spec (h : SocksProxyImpl.new impl c = .ok handler) :
    handler.toSocksConfig = c ∧ handler.state = .serverHello ∧ handler.serverInbuf = [] ∧
      handler.clientInbuf = [] ∧ handler.clientOutbuf = [] := by
  unfold SocksProxyImpl.new at h
  split at h
  · cases h
  · cases h
    exact ⟨rfl, rfl, rfl, rfl, rfl⟩

theorem hello_ne_nil (hh : impl.SaysHello) (h : SocksProxyImpl.new impl c = .ok handler) :
    handler.serverOutbuf ≠ [] := by
  unfold SocksProxyImpl.new at h
  split at h
  · cases h
  · next hello hhello =>
      cases h
      show hello ≠ []
      unfold SocksConfig.clientHello at hhello
      split at hhello
      · unfold SocksConfig.clientHelloSocks4 at hhello
        split at hhello
        · cases hhello
          simp
        · cases hhello
      · cases hhello
        exact hh _

/-- The session of a new handler writes the first message, and starts to read. -/
theorem loop_launch (hstate : handler.state ≠ .established) (hne : handler.serverOutbuf ≠ [])
    (reads reads' : List ReadResult) :
    ∃ x, proxyLoop (proxyHandler impl) false reads ⟨handler, reads', ⟨[], []⟩, 0, 0⟩ =
        proxyLoop (proxyHandler impl) true reads x ∧
      x.handler = { handler with serverOutbuf := [] } ∧ x.server = ⟨[], handler.serverOutbuf⟩ := by
  have hlen : ¬ handler.serverOutbuf.length = 0 := fun e => hne (List.eq_nil_of_length_eq_zero e)
  have hest : (proxyHandler impl).connectionEstablished handler = false := decide_eq_false hstate
  have hflush := @flush_queued impl ⟨handler, reads', ⟨[], []⟩, 0, 0⟩ [] rfl
  exact ⟨_, proxyLoop_launch hest ((if_neg hlen).trans hflush) hest, rfl, rfl⟩

/-- The session takes the handshake of a willing server to its end, and hands over the bytes that
    came with it and the reads behind them. -/
theorem setUp_willing (hf : impl.Framed) (hi : impl.Incremental) (hh : impl.SaysHello)
    (hnew : SocksProxyImpl.new impl c = .ok handler) (hw : Willing impl c early final)
    {fragments : List (List (List UInt8))} (hp : Pieces fragments early) {last : List (List UInt8)}
    (hne : ∀ chunk ∈ last, chunk ≠ []) {app : List UInt8} (hlast : last.flatten = final ++ app)
    (later : List (List UInt8)) (setupTimeout : String) :
    ∃ (prefetched : List UInt8) (after : List (List UInt8)) (x : Exchange SocksProxyImpl),
      setUp (proxyHandler impl) handler
        (.ok ((fragments.flatten ++ last ++ later).map .ok, ⟨[], []⟩)) setupTimeout =
          .ok (prefetched, x) ∧
      app = prefetched ++ after.flatten ∧ (∀ chunk ∈ after, chunk ≠ []) ∧
      x.reads = (after ++ later).map .ok ∧
      x.server = ⟨[], handler.serverOutbuf ++ answers impl c handler.serverOutbuf early⟩ := by
  obtain ⟨hc, hs, hin, hcin, hcout⟩ := new_spec hnew
  have hstate : handler.state ≠ .established := by
    rw [hs]
    decide
  have hreads : ((fragments.flatten ++ last ++ later).map Except.ok : List ReadResult) =
      fragments.flatten.map .ok ++ (last.map .ok ++ later.map .ok) := by
    rw [List.map_append, List.map_append, List.append_assoc]
  rw [hreads]
  obtain ⟨x, hlaunch, hx, hxserver⟩ := @loop_launch impl handler hstate (hello_ne_nil hh hnew)
    (fragments.flatten.map .ok ++ (last.map .ok ++ later.map .ok))
    (fragments.flatten.map .ok ++ (last.map .ok ++ later.map .ok))
  have hidle : Idle c .serverHello handler.serverOutbuf x :=
    ⟨hx ▸ hc, hx ▸ hs, hx ▸ hin, hx ▸ rfl, hxserver⟩
  obtain ⟨state, y, hstate', hends, hearly, hy, hyserver⟩ :=
    loop_early (hw.dialogue hf hi handler.serverOutbuf) hidle hp (last.map .ok ++ later.map .ok)
  obtain ⟨tail, after, z, hend, rfl, hafter, hzreads, hzserver, hztail⟩ :=
    @loop_ends impl c _ _ y (later.map .ok) _ hends (hidle.next hy hyserver) hstate'
      (by rw [hy, hx]; exact hcin) last hne app hlast
  have hpeek : z.handler.clientOutbuf = tail := by
    rw [hztail, hy, hx, hcout, List.nil_append]
  refine ⟨tail, after, { z with handler := z.handler.consumeData .toClient tail.length }, ?_, rfl,
    hafter, hzreads.trans List.map_append.symm, hzserver⟩
  unfold setUp handleProxySession
  simp only [hlaunch.trans (hearly.trans hend)]
  rw [← hpeek]
  rfl

/-- **Completeness of the handshake** with a willing server, in whatever pieces its replies and the
    bytes behind them arrive. The handler waits while a byte of the last reply is missing, and is
    established with the last one; it has queued its messages in order, and to the client exactly
    the bytes behind the replies. A session driven by it writes these bytes to the TUN once, before
    all that the server sends later, and to the server the handshake and then the client's bytes. -/
theorem handshake_complete (hf : impl.Framed) (hi : impl.Incremental) (hh : impl.SaysHello)
    {handler : SocksProxyImpl} (hnew : SocksProxyImpl.new impl c = .ok handler)
    {early : List (List UInt8 × ClientMessage)} {final : List UInt8}
    (hw : Willing impl c early final) {fragments : List (List (List UInt8))}
    (hp : Pieces fragments early) {last : List (List UInt8)} (hne : ∀ chunk ∈ last, chunk ≠ [])
    {app : List UInt8} (hlast : last.flatten = final ++ app) :
    (∀ (part : List (List UInt8)) (missing : List UInt8), final = part.flatten ++ missing →
      missing ≠ [] → ∃ waiting, feed impl (fragments.flatten ++ part) handler = .ok waiting ∧
        waiting.connectionEstablished = false) ∧
    (∃ established, feed impl (fragments.flatten ++ last) handler = .ok established ∧
      established.connectionEstablished = true ∧
      established.serverOutbuf =
        handler.serverOutbuf ++ answers impl c handler.serverOutbuf early ∧
      established.clientOutbuf = app) ∧
    ∀ {Record Signature Rest : Type} (dns : DnsLibrary Record Signature Rest)
      (setupTimeout : String) (later client : List (List UInt8)),
      (∀ chunk ∈ later, chunk ≠ []) → (∀ chunk ∈ client, chunk ≠ []) →
      ∃ toServer toTun, handleTcpSession (proxyHandler impl) dns handler
          (.ok ((fragments.flatten ++ last ++ later).map .ok, ⟨[], []⟩)) setupTimeout false
          (client.map .ok) ⟨[], []⟩ = .ok (toServer, toTun) ∧
        toTun.writer.written = app ++ later.flatten ∧
        toServer.writer.written = handler.serverOutbuf ++
          answers impl c handler.serverOutbuf early ++ client.flatten := by
  obtain ⟨hc, hs, hin, hcin, hcout⟩ := new_spec hnew
  obtain ⟨state, hstate, hends, hearly⟩ :=
    feed_early (hw.dialogue hf hi handler.serverOutbuf) hc hs hin hp
  let waiting := handler.asked (answers impl c handler.serverOutbuf early) state
  have hc : waiting.toSocksConfig = c := hc
  refine ⟨fun part missing hpart hmissing => ?_, ?_, ?_⟩
  · have hwait : feed impl part (waiting.holding []) = .ok (waiting.holding part.flatten) :=
      feed_waits hends.waits hc rfl part [] hpart hmissing
    rw [show waiting.holding [] = waiting from holding_nil hin] at hwait
    exact ⟨_, (feed_append hearly).trans hwait, decide_eq_false hstate⟩
  · obtain ⟨udpAssociate, hend⟩ :=
      @feed_ends impl c waiting state final hends hc rfl hin last app hlast
    refine ⟨_, (feed_append hearly).trans hend, rfl, ?_, ?_⟩
    · show waiting.serverOutbuf ++ handler.clientInbuf = waiting.serverOutbuf
      rw [hcin, List.append_nil]
    · show handler.clientOutbuf ++ app = app
      rw [hcout, List.nil_append]
  · intro Record Signature Rest dns setupTimeout later client hlater hclient
    obtain ⟨prefetched, after, x, hsetup, rfl, hafter, hreads, hserver⟩ :=
      setUp_willing hf hi hh hnew hw hp hne hlast later setupTimeout
    refine ⟨_, _, by unfold handleTcpSession; rw [hsetup], ?_, ?_⟩
    · rw [hreads, tunPump_written dns prefetched
        (List.forall_mem_append.mpr ⟨hafter, hlater⟩) []]
      simp
    · rw [hserver, copyAndRecordTraffic_written hclient]

end Stages

/-- A session for UDP through a SOCKS5 server without a password. -/
def sampleUdp : SocksConfig :=
  { sampleSocks .V5 with credentials := none, command := .UdpAssociate }

/-- A library that reads no DNS message. -/
def noDns : DnsLibrary Unit Unit Unit where
  fromVec _ := .error "no message"
  toVec _ := .ok []
  isAaaa _ := false

theorem drainTcpMessages_short : drainTcpMessages noDns [0, 9, 72] = .ok ([], [0, 9, 72]) := by
  have hlen : BigEndian.value ([0, 9, 72].take DNS_TCP_PREFIX_SIZE) = 9 := by decide
  rw [drainTcpMessages, if_neg (by decide)]
  simp only [hlen]
  rw [if_neg (by decide), if_pos (by decide)]

/-- A server that says yes is not enough. A handler fails when the server selects a method it has
    offered and does not support, a handler for UDP fails on a reply with a domain for an address,
    and where DNS is filtered, bytes that came with the handshake are held back. -/
theorem positive_not_enough :
    (∃ handler, SocksProxyImpl.new rfc1928 (sampleSocks .V5) = .ok handler ∧
      ⟨4⟩ ∈ (sampleSocks .V5).methods ∧
      SocksProxyImpl.feed rfc1928 [[5, 4]] handler =
        .error (.io .other "SOCKS5 server requires an unsupported authentication method.")) ∧
    (∃ handler, SocksProxyImpl.new rfc1928 sampleUdp = .ok handler ∧
      rfc1928.response.retrieveFromStream [5, 0, 0, 3, 1, 97, 0, 53] =
        .ok (⟨.Succeeded, .domainAddress ['a'] 53⟩, []) ∧
      SocksProxyImpl.feed rfc1928 [[5, 0], [5, 0, 0, 3, 1, 97, 0, 53]] handler =
        .error (.io .unsupported "domain address a is not supported")) ∧
    ∃ handler toServer toTun, SocksProxyImpl.new rfc1928 (sampleSocks .V4) = .ok handler ∧
      handleTcpSession (SocksProxyImpl.proxyHandler rfc1928) noDns handler
        (.ok ([.ok [0, 0x5a, 0, 0, 0, 0, 0, 0, 0, 9, 72]], ⟨[], []⟩)) "60s" true [] ⟨[], []⟩ =
          .ok (toServer, toTun) ∧ toTun.writer.written = [] := by
  refine ⟨⟨_, rfl, by decide, rfl⟩, ⟨_, rfl, rfl, rfl⟩, _, _, _, rfl, rfl, ?_⟩
  show (tunPump noDns true [0, 9, 72] [] ⟨[], []⟩).writer.written = []
  unfold tunPump copyIpv4DnsResponses
  rw [drainTcpMessages_short]
  rfl

theorem sample_willing :
    Willing rfc1928 (sampleSocks .V5) [([5, 2], .auth), ([1, 0], .request)]
      [5, 0, 0, 1, 0, 0, 0, 0, 0, 0] := by
  have hsel : Reads rfc1928.handshakeResponse.retrieveFromStream [5, 2] .UserPass := by
    intro rest
    show Socks5.retrieveCode 5 Socks5.methodOfCode ([5, 2] ++ rest) = .ok (.UserPass, rest)
    rw [Socks5.retrieveCode_ok]
    exact ⟨[5, 2], ⟨2, by decide, by decide, rfl, by decide⟩, rfl⟩
  have hauth : Reads rfc1928.passwordResponse.retrieveFromStream [1, 0] .Succeeded := by
    intro rest
    show Socks5.retrieveCode 1 Socks5.statusOfCode ([1, 0] ++ rest) = .ok (.Succeeded, rest)
    rw [Socks5.retrieveCode_ok]
    exact ⟨[1, 0], ⟨0, by decide, by decide, rfl, by decide⟩, rfl⟩
  have hreply : Reads rfc1928.response.retrieveFromStream [5, 0, 0, 1, 0, 0, 0, 0, 0, 0]
      ⟨.Succeeded, .socketAddress (.v4 0 0)⟩ := by
    intro rest
    rw [show rfc1928.response.retrieveFromStream = Socks5.retrieveResponse from rfl,
      Socks5.retrieveResponse_ok]
    exact ⟨_, ⟨0, 0, by decide, by decide, rfl, trivial, rfl⟩, rfl⟩
  exact .userPass rfl rfl (by decide) hsel (by decide) hauth
    ⟨by decide, hreply, nofun⟩

/-- The handshake with a password, in pieces, and a greeting that starts in the last one of them. -/
theorem sample_handshake_complete :
    ∃ handler, SocksProxyImpl.new rfc1928 (sampleSocks .V5) = .ok handler ∧
      (∃ established, SocksProxyImpl.feed rfc1928
          [[5], [2], [1, 0], [5, 0, 0], [1, 0, 0, 0, 0, 0, 0, 83], [83, 72]] handler =
            .ok established ∧
        established.connectionEstablished = true ∧ established.clientOutbuf = [83, 83, 72]) ∧
      ∃ toServer toTun, handleTcpSession (SocksProxyImpl.proxyHandler rfc1928) noDns handler
          (.ok ([.ok [5], .ok [2], .ok [1, 0], .ok [5, 0, 0], .ok [1, 0, 0, 0, 0, 0, 0, 83],
            .ok [83, 72], .ok [33]], ⟨[], []⟩)) "60s" false [.ok [104, 105]] ⟨[], []⟩ =
              .ok (toServer, toTun) ∧
        toTun.writer.written = [83, 83, 72, 33] := by
  obtain ⟨handler, hnew⟩ : ∃ handler, SocksProxyImpl.new rfc1928 (sampleSocks .V5) = .ok handler :=
    ⟨_, rfl⟩
  have hpieces : Pieces [[[5], [2]], [[1, 0]]] [([5, 2], .auth), ([1, 0], .request)] :=
    ⟨rfl, by decide⟩
  have hlast : [[5, 0, 0], [1, 0, 0, 0, 0, 0, 0, 83], [83, 72]].flatten =
      [5, 0, 0, 1, 0, 0, 0, 0, 0, 0] ++ [(83 : UInt8), 83, 72] := rfl
  obtain ⟨-, ⟨established, hfeed, hest, -, hclient⟩, hsession⟩ :=
    handshake_complete rfc1928_framed rfc1928_incremental rfc1928_saysHello hnew sample_willing
      hpieces (by decide) hlast
  obtain ⟨toServer, toTun, htcp, htun, -⟩ :=
    hsession noDns "60s" [[33]] [[104, 105]] (by decide) (by decide)
  exact ⟨handler, hnew, ⟨established, hfeed, hest, hclient⟩, toServer, toTun, htcp, htun⟩

end Tun2Proxy
