/-
  File:      Tun2Proxy/Udpgw/CleanPool.lean
  Subject:   The connections in the pool of the udpgw client are clean.

  What is known of a connection depends on who has it. `Clean` is what the pool has to offer: what
  was read is a whole number of frames, what was written is too, and every session that was served
  has its CLOSE frame. A session is in the middle of frames (`Serving`): of the one it writes, and
  of the one that `recv_acc` begins with. It puts the connection back only where both have ended.

  All of this starts from the end of the handshake. `handle_proxy_session` may have read more, and
  what the handler has for its client is never asked for: these bytes are gone. So what was read is
  a whole number of frames if they are.
-/
import Tun2Proxy.Socks.Soundness
import Tun2Proxy.Udpgw.Client

namespace Tun2Proxy.UdpGwClient

open Packet PieceDecoder Decoder

/-! ## 1. What a connection is like -/

/-- A whole number of udpgw frames. -/
abbrev Frames (codec : AddressCodec) (bytes : List UInt8) : Prop :=
  Whole (retrieveFromStream codec) bytes

/-- What was read is a whole number of frames and `acc`, if what was read first is a whole number
    of frames. -/
def InStep (codec : AddressCodec) (reader : OwnedReadHalf) (acc : List UInt8) : Prop :=
  Frames codec reader.prefetched →
    ∃ whole, reader.consumed = whole ++ acc ∧ Frames codec whole

/-- The CLOSE frame of the session was written, behind the beginning of the session. -/
def Ended (codec : AddressCodec) (written : List UInt8) (x : Service) : Prop :=
  ∃ before after, written = before ++ ((buildClosePacket x.connId).writeToBuf codec ++ after) ∧
    Frames codec before ∧ x.start ≤ before.length

theorem Ended.append {codec : AddressCodec} {written : List UInt8} {x : Service}
    (h : Ended codec written x) (more : List UInt8) : Ended codec (written ++ more) x := by
  obtain ⟨before, after, rfl, hframes, hstart⟩ := h
  exact ⟨before, after ++ more, by simp only [List.append_assoc], hframes, hstart⟩

/-- **A connection between two sessions.** What was written of the frame at hand, and what is left
    of it, make `whole`. -/
structure Clean (codec : AddressCodec) (stream : UdpGwClientStream) (reader : OwnedReadHalf)
    (writer : OwnedWriteHalf) (whole : List UInt8) : Prop where
  opened : stream.closed = false
  read : InStep codec reader []
  frames : Frames codec whole
  served : ∀ x ∈ stream.served, Ended codec writer.written x

/-- A connection in the pool. -/
def CleanStream (codec : AddressCodec) (stream : UdpGwClientStream) : Prop :=
  ∃ reader writer, stream.reader = some reader ∧ stream.writer = some writer ∧
    Clean codec stream reader writer writer.written

/-- **A connection in a session.** -/
structure Serving (codec : AddressCodec) (v : SessionVars) (whole : List UInt8) : Prop where
  opened : v.stream.closed = false
  read : InStep codec v.reader v.recvAcc
  frames : Frames codec whole
  served : ∃ start earlier, v.stream.served = ⟨v.sn, start⟩ :: earlier ∧
    start ≤ v.writer.written.length ∧ ∀ x ∈ earlier, Ended codec v.writer.written x

/-- The last frame of a session, of which `rest` is left. -/
structure Closing (codec : AddressCodec) (v : SessionVars) (rest : List UInt8) : Prop where
  opened : v.stream.closed = false
  read : InStep codec v.reader []
  served : ∃ start earlier before, v.stream.served = ⟨v.sn, start⟩ :: earlier ∧
    (∀ x ∈ earlier, Ended codec v.writer.written x) ∧ Frames codec before ∧
    start ≤ before.length ∧
    v.writer.written ++ rest = before ++ (buildClosePacket v.sn).writeToBuf codec

def SessionPc.Ok (codec : AddressCodec) : SessionPc → Prop
  | .popping => True
  | .connecting => True
  | .selecting v => v.reusable = false ∧ Serving codec v v.writer.written
  | .sending v rest => v.reusable = false ∧ Serving codec v (v.writer.written ++ rest)
  | .delivering v _ => v.reusable = false ∧ Serving codec v v.writer.written
  | .leaving v => v.reusable = true → Serving codec v v.writer.written
  | .closing v rest => Closing codec v rest
  | .storing v => Clean codec v.stream v.reader v.writer v.writer.written

def PingPc.Ok (codec : AddressCodec) : PingPc → Prop
  | .pinging v rest => Clean codec v.stream v.reader v.writer (v.writer.written ++ rest)
  | .listening v => Clean codec v.stream v.reader v.writer v.writer.written
  | .storing v => Clean codec v.stream v.reader v.writer v.writer.written

def HeartbeatPc.Ok (codec : AddressCodec) : HeartbeatPc → Prop
  | .sleeping => True
  | .collecting streams => ∀ stream ∈ streams, CleanStream codec stream
  | .next streams => ∀ stream ∈ streams, CleanStream codec stream
  | .restoring stream streams => CleanStream codec stream ∧ ∀ x ∈ streams, CleanStream codec x
  | .busy pc streams => pc.Ok codec ∧ ∀ stream ∈ streams, CleanStream codec stream
  | .exited => True

/-- **The invariant of the client.** -/
structure Inv (cfg : Config) (s : State) : Prop where
  room : s.serverConnections.length ≤ cfg.maxConnections
  pool : ∀ stream ∈ s.serverConnections, CleanStream cfg.codec.toAddressCodec stream
  sessions : ∀ i session, s.sessions i = some session → session.pc.Ok cfg.codec.toAddressCodec
  heartbeat : s.heartbeat.Ok cfg.codec.toAddressCodec

/-- The laws of socks5_impl for addresses. -/
structure Lawful (codec : AsyncAddressCodec) : Prop where
  roundTrips : codec.toAddressCodec.RoundTrips
  writesPlain : codec.toAddressCodec.WritesPlain
  agrees : codec.Agrees

/-! ## 2. Frames -/

section Frames

variable {codec : AddressCodec}

/-- A few bytes are no frames. -/
theorem frames_length (hc : codec.Framed) {bytes : List UInt8} (h : Frames codec bytes) :
    bytes = [] ∨ 5 ≤ bytes.length := by
  cases h with
  | nil => exact .inl rfl
  | snoc _ hreads =>
    have hlen := length_of_reads hc hreads
    rw [List.length_append]
    exact .inr (by omega)

/-- The frame of a packet without address and payload. -/
theorem frames_bare (hc : codec.RoundTrips) {whole : List UInt8} (h : Frames codec whole)
    {flags : UdpFlag} (hflags : flags &&& .DATA ≠ .DATA) (connId : UInt16) :
    Frames codec (whole ++ writeToBuf codec ⟨⟨flags, connId⟩, none, []⟩) :=
  .snoc h (reads_writeToBuf hc (wellFormed_bare hflags connId))

theorem frames_sendUdpgwPacket {cfg : Config} (hc : Lawful cfg.codec) {whole data : List UInt8}
    (h : Frames cfg.codec.toAddressCodec whole) {dst : Address} {connId : UInt16} {p : Packet}
    (hp : sendUdpgwPacket cfg data dst connId = .ok p) :
    Frames cfg.codec.toAddressCodec (whole ++ p.writeToBuf cfg.codec.toAddressCodec) := by
  unfold sendUdpgwPacket at hp
  split at hp
  case isTrue => cases hp
  case isFalse => exact .snoc h (reads_built hc.roundTrips hc.writesPlain hp)

/-- The frame at the front of `recv_acc` is taken off. -/
theorem InStep.take (hc : codec.Framed) {reader : OwnedReadHalf} {acc acc' : List UInt8}
    {udpMtu : UInt16} {r : Nat × UdpGwResponse} (h : InStep codec reader acc)
    (htry : tryAcc codec udpMtu acc = some (.ok r, acc')) : InStep codec reader acc' := by
  intro hfirst
  obtain ⟨whole, hconsumed, hframes⟩ := h hfirst
  have hfound : Found codec udpMtu acc (tryAcc codec udpMtu acc) := tryAcc_found hc acc
  rw [htry] at hfound
  cases hfound with
  | @frame frame _ p response hacc hlen hreads hparse =>
    refine ⟨whole ++ frame, ?_, .snoc hframes hreads⟩
    rw [hconsumed, hacc, List.append_assoc]

theorem InStep.read {reader : OwnedReadHalf} {acc : List UInt8} (h : InStep codec reader acc)
    (bytes : List UInt8) :
    InStep codec { reader with consumed := reader.consumed ++ bytes } (acc ++ bytes) := by
  intro hfirst
  obtain ⟨whole, hconsumed, hframes⟩ := h hfirst
  refine ⟨whole, ?_, hframes⟩
  rw [← List.append_assoc, ← hconsumed]

end Frames

/-- The heartbeat reads a whole frame. -/
theorem InStep.receive {cfg : Config} (hc : Lawful cfg.codec) {reader : OwnedReadHalf}
    (h : InStep cfg.codec.toAddressCodec reader []) {pieces : List (Piece UInt8)}
    {response : UdpGwResponse} (hr : Receives cfg pieces response) :
    InStep cfg.codec.toAddressCodec { reader with consumed := reader.consumed ++ joined pieces }
      [] := by
  intro hfirst
  obtain ⟨whole, hconsumed, hframes⟩ := h hfirst
  obtain ⟨packet, hread, -⟩ := hr
  refine ⟨whole ++ joined pieces, ?_,
    .snoc hframes (reads_joined hc.roundTrips.framed hc.agrees hread)⟩
  rw [hconsumed, List.append_nil, List.append_nil]

/-! ## 3. Sessions -/

section Session

variable {cfg : Config} {now : Nat} {dst : Address} {v : SessionVars} {whole : List UInt8}

variable {codec : AddressCodec}

theorem Serving.updateActivity (h : Serving codec v whole) (now : Nat) :
    Serving codec (v.updateActivity now) whole := ⟨h.opened, h.read, h.frames, h.served⟩

theorem Serving.setReusable (h : Serving codec v whole) (reusable : Bool) :
    Serving codec { v with reusable } whole := ⟨h.opened, h.read, h.frames, h.served⟩

/-- More of the frame at hand is written. -/
theorem Serving.write (h : Serving codec v whole) (bytes : List UInt8) :
    Serving codec (v.write bytes) whole := by
  refine ⟨h.opened, h.read, h.frames, ?_⟩
  obtain ⟨start, earlier, hserved, hstart, hearlier⟩ := h.served
  refine ⟨start, earlier, hserved, ?_, fun x hx => (hearlier x hx).append bytes⟩
  show start ≤ (v.writer.written ++ bytes).length
  rw [List.length_append]
  omega

/-- A session begins with a connection of the pool. -/
theorem serving_beginSession {stream : UdpGwClientStream} (h : CleanStream codec stream)
    (hv : beginSession stream = some v) :
    v.reusable = false ∧ Serving codec v v.writer.written := by
  obtain ⟨reader, writer, hreader, hwriter, hclean⟩ := h
  obtain ⟨reader, writer, hreader', hwriter', rfl⟩ := beginSession_some hv
  cases hreader.symm.trans hreader'
  cases hwriter.symm.trans hwriter'
  exact ⟨rfl, hclean.opened, hclean.read, hclean.frames, _, _, rfl, le_rfl, hclean.served⟩

theorem ok_respond {response : UdpGwResponse} (hr : v.reusable = false)
    (h : Serving codec v v.writer.written) : (v.respond now response).Ok codec := by
  rcases v.respond_cases now response with heq | heq | ⟨packet, -, -, heq⟩
  · -- a session that ends here does not say that the connection can be used again
    rw [heq]
    exact fun hreusable => absurd (hr.symm.trans hreusable) Bool.false_ne_true
  · rw [heq]
    exact ⟨hr, h.updateActivity now⟩
  · rw [heq]
    exact ⟨hr, h⟩

/-- **What a step of a session keeps.** -/
theorem ok_sessionStep (hc : Lawful cfg.codec) {pc pc' : SessionPc}
    (h : pc.Ok cfg.codec.toAddressCodec) (hs : SessionStep cfg now dst pc pc') :
    pc'.Ok cfg.codec.toAddressCodec := by
  cases hs with
  | appEnd | notDelivered => exact fun _ => h.2.setReusable true
  | appData hp =>
    exact ⟨h.1, h.2.opened, h.2.read, frames_sendUdpgwPacket hc h.2.frames hp, h.2.served⟩
  | appRefused | notSent | readFails | refused =>
    exact fun hr => absurd (h.1.symm.trans hr) Bool.false_ne_true
  | write bytes rest =>
    refine ⟨h.1, ?_⟩
    show Serving _ _ (_ ++ bytes ++ rest)
    rw [List.append_assoc]
    exact h.2.write bytes
  | @sent v =>
    have hv := h.2
    rw [List.append_nil] at hv
    exact ⟨h.1, hv.updateActivity now⟩
  | read chunk => exact ⟨h.1, h.2.opened, h.2.read.read chunk.bytes, h.2.frames, h.2.served⟩
  | @response v n response acc htry =>
    have hread := h.2.read.take hc.roundTrips.framed htry
    exact ok_respond (v := { v with recvAcc := acc }) h.1
      ⟨h.2.opened, hread, h.2.frames, h.2.served⟩
  | delivered => exact ⟨h.1, h.2.updateActivity now⟩
  | @close v hreusable hacc =>
    have hv := h hreusable
    obtain ⟨start, earlier, hserved, hstart, hearlier⟩ := hv.served
    have hread := hv.read
    rw [hacc] at hread
    exact ⟨hv.opened, hread, start, earlier, _, hserved, hearlier, hv.frames, hstart, rfl⟩
  | writeClose bytes rest =>
    obtain ⟨start, earlier, before, hserved, hearlier, hbefore, hstart, heq⟩ := h.served
    refine ⟨h.opened, h.read, start, earlier, before, hserved, ?_, hbefore, hstart, ?_⟩
    · exact fun x hx => (hearlier x hx).append bytes
    · show _ ++ bytes ++ rest = _
      rw [List.append_assoc]
      exact heq
  | @closed v =>
    obtain ⟨start, earlier, before, hserved, hearlier, hbefore, hstart, heq⟩ := h.served
    rw [List.append_nil] at heq
    refine ⟨h.opened, h.read, ?_, fun x hx => ?_⟩
    · show Frames _ v.writer.written
      rw [heq]
      exact frames_bare hc.roundTrips hbefore (by decide) v.sn
    · show Ended _ v.writer.written x
      have hx : x ∈ v.stream.served := hx
      rw [hserved] at hx
      rcases List.mem_cons.mp hx with rfl | hx
      · exact ⟨before, [], by rw [List.append_nil]; exact heq, hbefore, hstart⟩
      · exact hearlier x hx

end Session

/-! ## 4. The heartbeat -/

section Ping

variable {cfg : Config} {now : Nat}

theorem clean_beginPing {codec : AddressCodec} {stream : UdpGwClientStream} {v : PingVars}
    (h : CleanStream codec stream) (hv : beginPing stream = some v) :
    Clean codec v.stream v.reader v.writer v.writer.written := by
  obtain ⟨reader, writer, hreader, hwriter, hclean⟩ := h
  obtain ⟨reader, writer, hreader', hwriter', rfl⟩ := beginPing_some hv
  cases hreader.symm.trans hreader'
  cases hwriter.symm.trans hwriter'
  exact ⟨hclean.opened, hclean.read, hclean.frames, hclean.served⟩

theorem ok_pingStep (hc : Lawful cfg.codec) {pc pc' : PingPc}
    (h : pc.Ok cfg.codec.toAddressCodec) (hs : PingStep cfg now pc pc') :
    pc'.Ok cfg.codec.toAddressCodec := by
  cases hs with
  | write bytes rest =>
    refine ⟨h.opened, h.read, ?_, fun x hx => (h.served x hx).append bytes⟩
    show Frames _ (_ ++ bytes ++ rest)
    rw [List.append_assoc]
    exact h.frames
  | @sent v =>
    have hframes := h.frames
    rw [List.append_nil] at hframes
    exact ⟨h.opened, h.read, hframes, h.served⟩
  | alive hr | late hr => exact ⟨h.opened, h.read.receive hc hr, h.frames, h.served⟩

end Ping

/-! ## 5. The client -/

section Client

variable {σ : Type} {methods : ProxyHandler σ} {cfg : Config} {s s' : State}

theorem cleanStream_new (codec : AddressCodec) (prefetched : List UInt8) (next : UInt16)
    (now : Nat) : CleanStream codec (.new prefetched next now) := by
  refine ⟨⟨prefetched, prefetched⟩, ⟨[]⟩, rfl, rfl, rfl, fun hfirst => ?_, .nil, nofun⟩
  exact ⟨prefetched, (List.append_nil _).symm, hfirst⟩

theorem Clean.withHalves {codec : AddressCodec} {stream : UdpGwClientStream}
    {reader : OwnedReadHalf} {writer : OwnedWriteHalf}
    (h : Clean codec stream reader writer writer.written) :
    CleanStream codec (stream.withHalves reader writer) :=
  ⟨reader, writer, rfl, rfl, h.opened, h.read, h.frames, h.served⟩

namespace Inv

theorem setSession (h : Inv cfg s) (i : Nat) {session : Option GatewaySession}
    (hsession : ∀ x, session = some x → x.pc.Ok cfg.codec.toAddressCodec) :
    Inv cfg (s.setSession i session) := by
  refine ⟨h.room, h.pool, fun j x hx => ?_, h.heartbeat⟩
  by_cases hj : j = i
  · subst hj
    exact hsession x (Function.update_self j session s.sessions ▸ hx)
  · exact h.sessions j x (Function.update_of_ne hj session s.sessions ▸ hx)

theorem setHeartbeat (h : Inv cfg s) {pc : HeartbeatPc} (hpc : pc.Ok cfg.codec.toAddressCodec) :
    Inv cfg { s with heartbeat := pc } := ⟨h.room, h.pool, h.sessions, hpc⟩

theorem heartbeat_at (h : Inv cfg s) {pc : HeartbeatPc} (hpc : s.heartbeat = pc) :
    pc.Ok cfg.codec.toAddressCodec :=
  hpc ▸ h.heartbeat

variable {stream : UdpGwClientStream}

/-- A connection is taken out of the pool. -/
theorem pop (h : Inv cfg s) {rest : List UdpGwClientStream}
    (hpool : s.serverConnections = stream :: rest) (serialNumber : UInt16) :
    CleanStream cfg.codec.toAddressCodec stream ∧
      Inv cfg { s with serverConnections := rest, serialNumber } := by
  have hroom := h.room
  have hclean := h.pool
  rw [hpool] at hroom hclean
  refine ⟨hclean stream List.mem_cons_self, ?_, ?_, h.sessions, h.heartbeat⟩
  · exact (Nat.le_succ _).trans hroom
  · exact fun x hx => hclean x (List.mem_cons_of_mem _ hx)

theorem store (h : Inv cfg s) (hstream : CleanStream cfg.codec.toAddressCodec stream) :
    Inv cfg (s.storeServerConnection cfg stream) := by
  unfold State.storeServerConnection
  split
  case isFalse => exact ⟨h.room, h.pool, h.sessions, h.heartbeat⟩
  case isTrue hroom =>
    refine ⟨?_, fun x hx => ?_, h.sessions, h.heartbeat⟩
    · show (s.serverConnections ++ [stream]).length ≤ cfg.maxConnections
      rw [List.length_append]
      exact hroom
    · exact (List.mem_append.mp hx).elim (h.pool x) fun hx => List.mem_singleton.mp hx ▸ hstream

theorem serve (h : Inv cfg s) (i : Nat) (dst : Address)
    (hstream : CleanStream cfg.codec.toAddressCodec stream) : Inv cfg (s.serve i dst stream) := by
  refine h.setSession i fun x hx => ?_
  obtain ⟨v, hv, rfl⟩ := Option.map_eq_some_iff.mp hx
  exact serving_beginSession hstream hv

/-- **What a step of the client keeps.** -/
theorem step (hc : Lawful cfg.codec) (h : Inv cfg s) (hs : Step methods cfg s s') :
    Inv cfg s' := by
  cases hs with
  | tick d => exact ⟨h.room, h.pool, h.sessions, h.heartbeat⟩
  | spawn | popEmpty =>
    refine h.setSession _ fun x hx => ?_
    cases hx
    trivial
  | popClosed _ hpool | collectClosed _ hpool => exact (h.pop hpool s.serialNumber).2
  | pop hi hpool hopen =>
    obtain ⟨⟨reader, writer, hreader, hwriter, hclean⟩, hrest⟩ :=
      h.pop hpool (s.serialNumber + 1)
    exact hrest.serve _ _
      ⟨reader, writer, hreader, hwriter, hclean.opened, hclean.read, hclean.frames,
        hclean.served⟩
  | @connect i dst hi handler reads server associate x hproxy =>
    have hnext : Inv cfg { s with serialNumber := s.serialNumber + 1 } :=
      ⟨h.room, h.pool, h.sessions, h.heartbeat⟩
    exact hnext.serve i dst (cleanStream_new _ _ _ _)
  | session hi hstep =>
    refine h.setSession _ fun x hx => ?_
    cases hx
    exact ok_sessionStep hc (h.sessions _ _ hi) hstep
  | store hi =>
    have hclean : Clean _ _ _ _ _ := h.sessions _ _ hi
    exact (h.store hclean.withHalves).setSession _ fun x hx => nomatch hx
  | ends hi => exact h.setSession _ fun x hx => nomatch hx
  | wake hpc => exact h.setHeartbeat fun x hx => absurd hx List.not_mem_nil
  | @collect streams stream rest hpc hpool hopen =>
    obtain ⟨hstream, hrest⟩ := h.pop hpool s.serialNumber
    refine hrest.setHeartbeat fun x hx => ?_
    exact (List.mem_append.mp hx).elim (h.heartbeat_at hpc x) fun hx =>
      List.mem_singleton.mp hx ▸ hstream
  | collected hpc hpool =>
    have hstreams := h.heartbeat_at hpc
    exact h.setHeartbeat hstreams
  | recent hpc hrecent =>
    have hstreams := h.heartbeat_at hpc
    exact h.setHeartbeat ⟨hstreams _ List.mem_cons_self,
      fun x hx => hstreams x (List.mem_cons_of_mem _ hx)⟩
  | restore hpc =>
    have hstreams := h.heartbeat_at hpc
    exact (h.store hstreams.1).setHeartbeat hstreams.2
  | ping hpc hidle hv =>
    have hstreams := h.heartbeat_at hpc
    have hclean := clean_beginPing (hstreams _ List.mem_cons_self) hv
    refine h.setHeartbeat ⟨⟨hclean.opened, hclean.read, ?_, hclean.served⟩,
      fun x hx => hstreams x (List.mem_cons_of_mem _ hx)⟩
    exact frames_bare hc.roundTrips hclean.frames (by decide) _
  | noHalf hpc hidle hv =>
    have hstreams := h.heartbeat_at hpc
    exact h.setHeartbeat fun x hx => hstreams x (List.mem_cons_of_mem _ hx)
  | heartbeat hpc hstep =>
    exact h.setHeartbeat ⟨ok_pingStep hc (h.heartbeat_at hpc).1 hstep, (h.heartbeat_at hpc).2⟩
  | pingFails hpc => exact h.setHeartbeat (h.heartbeat_at hpc).2
  | pingStore hpc =>
    have hbusy := h.heartbeat_at hpc
    have hclean : Clean _ _ _ _ _ := hbusy.1
    exact (h.store hclean.withHalves).setHeartbeat hbusy.2
  | rest | heartbeatEnds => exact h.setHeartbeat trivial

theorem reachable (hc : Lawful cfg.codec) (h : Reachable methods cfg s) : Inv cfg s := by
  induction h with
  | start => exact ⟨Nat.zero_le _, fun x hx => absurd hx List.not_mem_nil,
      (fun i x hx => nomatch hx), trivial⟩
  | step _ hs ih => exact ih.step hc hs

end Inv

/-- **The connections in the pool are clean.** In every state of the client, whatever the server
    sends, in whatever pieces, and whatever is dropped: there are at most `max_connections` of
    them; each has both halves and is not closed; what was written to it is a whole number of
    frames, and every session it has served has its CLOSE frame among them; and what was read from
    it is a whole number of frames, if what `handle_proxy_session` has read behind the handshake
    is one. -/
theorem pooled_connections_clean (hc : Lawful cfg.codec) (h : Reachable methods cfg s) :
    s.serverConnections.length ≤ cfg.maxConnections ∧
    ∀ stream ∈ s.serverConnections, stream.closed = false ∧
      ∃ reader writer, stream.reader = some reader ∧ stream.writer = some writer ∧
        (Frames cfg.codec.toAddressCodec reader.prefetched →
          Frames cfg.codec.toAddressCodec reader.consumed) ∧
        Frames cfg.codec.toAddressCodec writer.written ∧
        ∀ x ∈ stream.served, Ended cfg.codec.toAddressCodec writer.written x := by
  have hinv := Inv.reachable hc h
  refine ⟨hinv.room, fun stream hstream => ?_⟩
  obtain ⟨reader, writer, hreader, hwriter, hclean⟩ := hinv.pool stream hstream
  refine ⟨hclean.opened, reader, writer, hreader, hwriter, fun hfirst => ?_, hclean.frames,
    hclean.served⟩
  obtain ⟨whole, heq, hframes⟩ := hclean.read hfirst
  rw [heq, List.append_nil]
  exact hframes

end Client

/-! ## 6. A sample run -/

section Sample

def sampleConfig : Config where
  codec := socks5AsyncAddress
  udpMtu := 1500
  maxConnections := 5
  keepaliveTime := 30
  ipv6Enabled := true

theorem sampleConfig_lawful : Lawful sampleConfig.codec :=
  ⟨socks5Address_roundTrips, socks5Address_writesPlain, socks5AsyncAddress_agrees⟩

/-- A SOCKS4 proxy agrees to the connection; these bytes come right behind. -/
def sampleReads (behind : List UInt8) : List ReadResult :=
  [.ok ([0, 0x5a, 0, 0, 0, 0, 0, 0] ++ behind)]

/-- A connection after one session in which nothing was sent and nothing received. -/
def sampleStream (prefetched : List UInt8) : UdpGwClientStream where
  writer := some ⟨(buildClosePacket 1).writeToBuf socks5Address⟩
  reader := some ⟨prefetched, prefetched⟩
  closed := false
  lastActivity := 0
  serialNumber := 1
  served := [⟨1, 0⟩]

/-- A session that ends when its application is done writes the CLOSE frame and puts its connection
    back. -/
theorem ended_pooled {σ : Type} {methods : ProxyHandler σ} {s : State} {dst : Address}
    {v : SessionVars} (hs : Reachable methods sampleConfig s)
    (hsession : s.sessions 0 = some ⟨dst, .selecting v⟩) (hacc : v.recvAcc = [])
    (hempty : s.serverConnections = []) :
    ∃ s', Reachable methods sampleConfig s' ∧ s'.serverConnections =
      [(v.stream.updateActivity s.now).withHalves v.reader
        ⟨v.writer.written ++ (buildClosePacket v.sn).writeToBuf socks5Address⟩] := by
  have hclosed : Reachable methods sampleConfig _ :=
    .step (.step (.step (.step hs (.session hsession .appEnd))
      (.session (i := 0) rfl (.close rfl hacc)))
      (.session (i := 0) rfl (.writeClose ((buildClosePacket v.sn).writeToBuf socks5Address) [])))
      (.session (i := 0) rfl .closed)
  refine ⟨_, hclosed.step (.store (i := 0) rfl), ?_⟩
  simp [State.storeServerConnection, State.setSession, hempty, sampleConfig, SessionVars.write,
    SessionVars.updateActivity]

/-- A session that connects. -/
theorem sample_connected {σ : Type} {methods : ProxyHandler σ} {handler : σ}
    {reads : List ReadResult} {server : Writer} {associate : Option SocketAddr} {x : Exchange σ}
    (hproxy : handleProxySession methods handler reads server = .ok (associate, x)) :
    ∃ s dst v, Reachable methods sampleConfig s ∧ s.sessions 0 = some ⟨dst, .selecting v⟩ ∧
      s.serverConnections = [] ∧ s.now = 0 ∧
      beginSession (.new (methods.peekData .toClient x.handler) 1 0) = some v :=
  ⟨_, _, _, .step (.step (.step .start
    (.spawn (i := 0) rfl (.socketAddress (.v4 0xCB007109#32 51820))))
    (.popEmpty (i := 0) rfl rfl)) (.connect (i := 0) rfl handler reads server hproxy),
    rfl, rfl, rfl, rfl⟩

/-- The handshake with these bytes right behind it. -/
theorem sample_handshake_prefetched (b : List UInt8) :
    ∃ handler x, SocksProxyImpl.new rfc1928 (sampleSocks .V4) = .ok handler ∧
      handleProxySession (SocksProxyImpl.proxyHandler rfc1928) handler (sampleReads b) {} =
        .ok (none, x) ∧
      (SocksProxyImpl.proxyHandler rfc1928).peekData .toClient x.handler = b :=
  ⟨_, _, rfl, rfl, rfl⟩

/-- The frame with which the server reports an error. -/
def errorFrame : List UInt8 := (buildErrorPacket 1).writeToBuf socks5Address

/-- A session reads a frame, and leaves a connection from which one frame was read. -/
theorem sample_pooled_connections_clean :
    ∃ s stream, Reachable (SocksProxyImpl.proxyHandler rfc1928) sampleConfig s ∧
      s.serverConnections = [stream] ∧ stream.reader = some ⟨[], errorFrame⟩ ∧
      Frames socks5Address errorFrame ∧
      Frames socks5Address ((buildClosePacket 1).writeToBuf socks5Address) ∧
      Ended socks5Address ((buildClosePacket 1).writeToBuf socks5Address) ⟨1, 0⟩ := by
  obtain ⟨handler, x, -, hproxy, hprefetched⟩ := sample_handshake_prefetched []
  obtain ⟨s, dst, v, hs, hsession, hempty, -, hv⟩ := sample_connected hproxy
  rw [hprefetched] at hv
  cases hv
  have hread : Reachable (SocksProxyImpl.proxyHandler rfc1928) sampleConfig _ :=
    .step (.step hs (.session hsession (.read ⟨errorFrame, by decide, by decide⟩ rfl)))
      (.session (i := 0) rfl (.response rfl))
  obtain ⟨s', hs', hpool⟩ := ended_pooled hread rfl rfl hempty
  obtain ⟨-, hclean⟩ := pooled_connections_clean sampleConfig_lawful hs'
  obtain ⟨-, reader, writer, hreader, hwriter, hread, hframes, hserved⟩ :=
    hclean _ (hpool ▸ List.mem_singleton_self _)
  cases hreader
  cases hwriter
  exact ⟨s', _, hs', hpool, rfl, hread .nil, hframes, hserved ⟨1, 0⟩ (List.mem_singleton_self _)⟩

/-- **A connection in the pool that is in the middle of a frame.** The first byte of a frame
    arrives in one read with the end of the handshake. -/
theorem pooled_amid_frame :
    ∃ handler x s reader, SocksProxyImpl.new rfc1928 (sampleSocks .V4) = .ok handler ∧
      handleProxySession (SocksProxyImpl.proxyHandler rfc1928) handler (sampleReads [0]) {} =
        .ok (none, x) ∧
      Reachable (SocksProxyImpl.proxyHandler rfc1928) sampleConfig s ∧
      s.serverConnections = [sampleStream [0]] ∧
      (sampleStream [0]).reader = some reader ∧ ¬ Frames socks5Address reader.consumed := by
  obtain ⟨handler, x, hnew, hproxy, hprefetched⟩ := sample_handshake_prefetched [0]
  obtain ⟨s, dst, v, hs, hsession, hempty, hnow, hv⟩ := sample_connected hproxy
  rw [hprefetched] at hv
  cases hv
  obtain ⟨s', hs', hpool⟩ := ended_pooled hs hsession rfl hempty
  rw [hnow] at hpool
  refine ⟨handler, x, s', ⟨[0], [0]⟩, hnew, hproxy, hs', hpool, rfl, fun hframes => ?_⟩
  rcases frames_length socks5Address_roundTrips.framed hframes with hempty | hlong
  · cases hempty
  · exact absurd hlong (by decide)

end Sample

end Tun2Proxy.UdpGwClient
