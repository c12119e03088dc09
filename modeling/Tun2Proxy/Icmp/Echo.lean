/-
  File:      Tun2Proxy/Icmp/Echo.lean
  Subject:   Echo requests from the TUN and the replies that are injected for them (`dispatch`,
             `run_flow` and `packet_checksum` of src/icmp.rs).

  `dispatch` hands the requests that are well formed to the worker of their flow. The worker writes
  a request to the local proxy, reads the reply of the remote and compares it with the request in
  all but the checksum; then it puts its own checksum in and injects the packet.

  * The checksum is the one of RFC 1071 over all the bytes that were added, with an odd last byte
    padded with zero, as the internet_checksum crate computes it.
  * The times of the source appear as what they decide: whether a request has expired when its turn
    comes, and whether its deadline passes before the reply is injected.
-/
import Tun2Proxy.Icmp.Framing
import Tun2Proxy.Lib.Maps
import Tun2Proxy.Lib.OnesComplement

namespace Tun2Proxy.Icmp

open BigEndian PieceDecoder

/-! ## 1. Requests -/

/-- A packet of the stack: `IpStackUnknownTransport`. -/
structure EchoPacket where
  srcAddr : IpAddr
  dstAddr : IpAddr
  payload : List UInt8
  deriving DecidableEq, Repr

/-- What is added up: for IPv6 a pseudo-header comes first. -/
def checksumBytes (packet : List UInt8) (source destination : IpAddr) : List UInt8 :=
  match source, destination with
  | .v6 _, .v6 _ =>
    source.octets ++ destination.octets ++ bytes 4 packet.length ++ [0, 0, 0, 58] ++ packet
  | _, _ => packet

def packetChecksum (packet : List UInt8) (source destination : IpAddr) : UInt16 :=
  OnesComplement.checksum (checksumBytes packet source destination)

def MAX_FLOWS : Nat := 64

def QUEUE_DEPTH : Nat := 4

structure FlowKey where
  source : IpAddr
  destination : IpAddr
  identifier : UInt8 × UInt8
  deriving DecidableEq, Repr

/-- A worker's end of a flow: the family it was started for, the requests in its channel, and
    whether the worker has ended. -/
structure Flow where
  ipv6 : Bool
  queue : List EchoPacket
  closed : Bool
  deriving DecidableEq

/-- `try_send`: a full queue is packet loss. -/
def Flow.trySend (flow : Flow) (packet : EchoPacket) : Flow :=
  if flow.queue.length < QUEUE_DEPTH then { flow with queue := flow.queue ++ [packet] } else flow

structure EchoFlows where
  flows : AList fun _ : FlowKey => Flow
  mtu : Nat

namespace EchoFlows

def new (mtu : Nat) : EchoFlows := ⟨∅, mtu⟩

/-- The test of `dispatch`: malformed or too long. -/
def discards (mtu : Nat) (packet : EchoPacket) : Bool :=
  let headerLen := if packet.srcAddr.isIpv4 then 20 else 40
  packet.payload.length < 8 || mtu - headerLen < packet.payload.length ||
    packetChecksum packet.payload packet.srcAddr packet.dstAddr != 0

/-- `flows.retain`: the flows whose worker has not ended. -/
def retainOpen (flows : AList fun _ : FlowKey => Flow) : AList fun _ : FlowKey => Flow :=
  ⟨flows.entries.filter fun entry => !entry.2.closed, flows.nodupKeys.sublist List.filter_sublist⟩

def keyOf (packet : EchoPacket) : FlowKey :=
  ⟨packet.srcAddr, packet.dstAddr, (packet.payload.getD 4 0, packet.payload.getD 5 0)⟩

def dispatch (self : EchoFlows) (packet : EchoPacket) : EchoFlows :=
  if discards self.mtu packet then self
  else
    let flows := retainOpen self.flows
    if MAX_FLOWS ≤ flows.entries.length && !(flows.lookup (keyOf packet)).isSome then
      { self with flows }
    else
      let flow := (flows.lookup (keyOf packet)).getD ⟨!packet.dstAddr.isIpv4, [], false⟩
      { self with flows := flows.insert (keyOf packet) (flow.trySend packet) }

end EchoFlows

/-! ## 2. A worker -/

/-- What happens to a request when its turn comes. -/
inductive Timing where
  | expired
  /-- The deadline passes while the worker waits for the connection. -/
  | elapsed
  /-- The reply is handed to the stack, which gives this result. -/
  | inTime (sent : Except Error Unit)

/-- A reply that was handed to the stack, with the packet of the remote that it was made of. -/
structure Injected where
  request : EchoPacket
  remote : List UInt8
  packet : List UInt8

/-- The type of an Echo reply. -/
def replyKind (ipv6 : Bool) : UInt8 := if ipv6 then 129 else 0

/-- The reply that is injected for the packet of the remote. -/
def acceptReply (ipv6 : Bool) (request : EchoPacket) (response : List UInt8) :
    Except Error (List UInt8) :=
  if response.length ≠ request.payload.length ∨ response.getD 0 0 ≠ replyKind ipv6 ∨
      response.getD 1 0 ≠ 0 ∨ response.drop 4 ≠ request.payload.drop 4 then
    .error (.io .invalidData "remote ICMP reply does not match the request")
  else
    let response := overwrite response 2 [0, 0]
    let checksum := packetChecksum response request.dstAddr request.srcAddr
    .ok (overwrite response 2 (bytes 2 checksum.toNat))

/-- `run_flow` once it is connected: the requests in the order of the channel, up to the first
    failure or the end of the channel. `response` is the buffer for the next reply. -/
def runFlow (ipv6 : Bool) : List (EchoPacket × Timing) → Writer → List (Piece UInt8) →
    List UInt8 → List Injected × Except Error Unit
  | [], _, _, _ => ([], .ok ())
  | (_, .expired) :: requests, writer, pieces, response =>
    runFlow ipv6 requests writer pieces response
  | (_, .elapsed) :: _, _, _, _ => ([], .error (.ofKind .timedOut))
  | (packet, .inTime sent) :: requests, writer, pieces, response =>
    match writePacket writer packet.payload with
    | (.error e, _) => ([], .error e)
    | (.ok (), writer) =>
      match readPacket response pieces with
      | .error e => ([], .error e)
      | .ok (remote, pieces) =>
        match acceptReply ipv6 packet remote with
        | .error e => ([], .error e)
        | .ok reply =>
          match sent with
          | .error e => ([⟨packet, remote, reply⟩], .error e)
          | .ok () =>
            -- the buffer has gone to the stack
            let (injected, result) := runFlow ipv6 requests writer pieces []
            (⟨packet, remote, reply⟩ :: injected, result)

/-! ## 3. Who gets a request -/

namespace EchoFlows

/-- The requests of a flow have passed the test, are of this flow, and are of the family that its
    worker was started for. -/
structure Sound (mtu : Nat) (key : FlowKey) (flow : Flow) : Prop where
  accepted : ∀ packet ∈ flow.queue, discards mtu packet = false ∧ keyOf packet = key
  family : flow.ipv6 = !key.destination.isIpv4
  depth : flow.queue.length ≤ QUEUE_DEPTH

/-- **The flows that there may be**: requests come, and workers take them off the queue in order,
    or end. -/
inductive Reachable : EchoFlows → Prop
  | new (mtu : Nat) : Reachable (new mtu)
  | dispatch {s : EchoFlows} (h : Reachable s) (packet : EchoPacket) :
      Reachable (s.dispatch packet)
  | worker {s : EchoFlows} (h : Reachable s) {key : FlowKey} {flow : Flow} (closed : Bool)
      {queue : List EchoPacket} (hflow : s.flows.lookup key = some flow)
      (hqueue : queue <:+ flow.queue) :
      Reachable { s with flows := s.flows.insert key { flow with queue, closed } }

/-- The invariant. -/
structure Inv (s : EchoFlows) : Prop where
  bounded : s.flows.entries.length ≤ MAX_FLOWS
  sound : ∀ key flow, s.flows.lookup key = some flow → Sound s.mtu key flow

theorem lookup_retainOpen {flows : AList fun _ : FlowKey => Flow} {key : FlowKey} {flow : Flow}
    (h : (retainOpen flows).lookup key = some flow) : flows.lookup key = some flow :=
  AList.mem_lookup_iff.mpr (List.mem_of_mem_filter (AList.mem_lookup_iff.mp h))

theorem Sound.trySend {mtu : Nat} {flow : Flow} {packet : EchoPacket}
    (h : Sound mtu (keyOf packet) flow) (hpacket : discards mtu packet = false) :
    Sound mtu (keyOf packet) (flow.trySend packet) := by
  unfold Flow.trySend
  split
  next hroom =>
      refine ⟨fun other hother => ?_, h.family, ?_⟩
      · rcases List.mem_append.mp hother with hold | hnew
        · exact h.accepted other hold
        · rw [List.mem_singleton.mp hnew]
          exact ⟨hpacket, rfl⟩
      · rw [List.length_append]
        exact hroom
  next => exact h

theorem Inv.retainOpen {s : EchoFlows} (h : s.Inv) :
    Inv { s with flows := EchoFlows.retainOpen s.flows } :=
  ⟨(List.length_filter_le _ _).trans h.bounded,
    fun key flow hlookup => h.sound key flow (lookup_retainOpen hlookup)⟩

/-- A flow is put in its place. -/
theorem Inv.insert {s : EchoFlows} (h : s.Inv) {key : FlowKey} {flow : Flow}
    (hflow : Sound s.mtu key flow) (hroom : key ∈ s.flows ∨ s.flows.entries.length < MAX_FLOWS) :
    Inv { s with flows := s.flows.insert key flow } := by
  refine ⟨?_, fun key' flow' hlookup => ?_⟩
  · rcases hroom with hmem | hlt
    · exact (AList.length_insert_of_mem hmem flow).trans_le h.bounded
    · exact (AList.length_insert_le s.flows key flow).trans hlt
  · have hlookup : (s.flows.insert key flow).lookup key' = some flow' := hlookup
    rcases eq_or_ne key' key with rfl | hne
    · rw [AList.lookup_insert] at hlookup
      cases hlookup
      exact hflow
    · rw [AList.lookup_insert_ne hne] at hlookup
      exact h.sound key' flow' hlookup

theorem Inv.dispatch {s : EchoFlows} (h : s.Inv) (packet : EchoPacket) :
    (s.dispatch packet).Inv := by
  unfold EchoFlows.dispatch
  split
  next => exact h
  next hpacket =>
      have hopen := h.retainOpen
      have haccepted : discards s.mtu packet = false := Bool.eq_false_of_not_eq_true hpacket
      dsimp only
      split
      next => exact hopen
      next hroom =>
          refine hopen.insert (Sound.trySend ?_ haccepted) ?_
          · cases hlookup : (EchoFlows.retainOpen s.flows).lookup (keyOf packet) with
            | none => exact ⟨nofun, rfl, Nat.zero_le _⟩
            | some flow => exact hopen.sound _ _ hlookup
          · by_contra hno
            apply hroom
            rw [not_or, Nat.not_lt] at hno
            have hnone := AList.lookup_eq_none.mpr hno.1
            rw [hnone]
            simpa using hno.2

/-- **A flow has only requests that were accepted for it**, and there are never more flows or
    requests than there may be. -/
theorem Reachable.inv {s : EchoFlows} (h : Reachable s) : s.Inv := by
  induction h with
  | new mtu => exact ⟨Nat.zero_le _, nofun⟩
  | dispatch _ packet ih => exact ih.dispatch packet
  | worker _ closed hflow hqueue ih =>
    have hsound := ih.sound _ _ hflow
    refine ih.insert ⟨fun packet hpacket => ?_, hsound.family, ?_⟩ (.inl ?_)
    · exact hsound.accepted packet (hqueue.subset hpacket)
    · exact hqueue.length_le.trans hsound.depth
    · exact AList.mem_of_lookup hflow

end EchoFlows

/-! ## 4. The checksum of a reply -/

/-- The place of the checksum is at an even distance from the start of what is added up. -/
theorem checksumBytes_split (a b : UInt8) (rest : List UInt8) (source destination : IpAddr) :
    ∃ front, front.length % 2 = 0 ∧ ∀ x y,
      checksumBytes (a :: b :: x :: y :: rest) source destination = front ++ (x :: y :: rest) := by
  unfold checksumBytes
  split
  next source destination =>
      refine ⟨(IpAddr.v6 source).octets ++ (IpAddr.v6 destination).octets ++
        bytes 4 (rest.length + 4) ++ [0, 0, 0, 58] ++ [a, b], ?_, fun x y => ?_⟩
      · simp only [List.length_append, IpAddr.octets, length_bytes, List.length_cons,
          List.length_nil]
      · simp
  next => exact ⟨[a, b], Nat.mod_self 2, fun x y => rfl⟩

/-- **A checksum in its place**, over whatever was there. -/
theorem packetChecksum_filled (a b : UInt8) (rest : List UInt8) (source destination : IpAddr) :
    packetChecksum (a :: b :: (bytes 2
      (packetChecksum (a :: b :: 0 :: 0 :: rest) source destination).toNat ++ rest))
      source destination = 0 := by
  obtain ⟨front, heven, hsplit⟩ := checksumBytes_split a b rest source destination
  rw [packetChecksum, packetChecksum, hsplit 0 0]
  obtain ⟨x, y, hbytes⟩ : ∃ x y, bytes 2 (OnesComplement.checksum
      (front ++ (0 :: 0 :: rest))).toNat = [x, y] := ⟨_, _, rfl⟩
  have hfilled := OnesComplement.checksum_filled heven rest
  rw [hbytes] at hfilled ⊢
  show OnesComplement.checksum (checksumBytes (a :: b :: x :: y :: rest) source destination) = 0
  rw [hsplit x y]
  exact hfilled

/-- What holds of an injected reply: the test of `dispatch`, with source and destination exchanged,
    and that it is the packet of the remote except for the two bytes of the checksum. -/
structure Injected.Valid (reply : Injected) : Prop where
  checksum : packetChecksum reply.packet reply.request.dstAddr reply.request.srcAddr = 0
  length : reply.packet.length = reply.remote.length
  same : ∀ i, i ≠ 2 → i ≠ 3 → reply.packet[i]? = reply.remote[i]?

/-- **The reply that is injected** for an accepted packet of the remote. -/
theorem acceptReply_ok {ipv6 : Bool} {request : EchoPacket} {remote reply : List UInt8}
    (hrequest : 8 ≤ request.payload.length) (h : acceptReply ipv6 request remote = .ok reply) :
    Injected.Valid ⟨request, remote, reply⟩ := by
  unfold acceptReply at h
  split at h
  · cases h
  · rename_i hmatch
    have hlength : 8 ≤ remote.length := by
      by_contra hshort
      exact hmatch (.inl (by omega))
    match remote, hlength with
    | a :: b :: c :: d :: rest, hlength =>
      cases h
      refine ⟨packetChecksum_filled a b rest request.dstAddr request.srcAddr, rfl, ?_⟩
      intro i h2 h3
      match i with
      | 0 | 1 => rfl
      | 2 => exact absurd rfl h2
      | 3 => exact absurd rfl h3
      | i + 4 => rfl

theorem fits_of_writePacket {writer writer' : Writer} {packet : List UInt8}
    (h : writePacket writer packet = (.ok (), writer')) : Fits packet := by
  by_contra hno
  rw [writePacket_refuses writer hno] at h
  cases h

/-- **Injected replies carry a valid checksum.** Whatever the connection does and the remote sends,
    every reply that a worker injects is for one of its requests, and it is valid. -/
theorem injected_checksum (ipv6 : Bool) (requests : List (EchoPacket × Timing)) (writer : Writer)
    (pieces : List (Piece UInt8)) (response : List UInt8) (reply : Injected)
    (hreply : reply ∈ (runFlow ipv6 requests writer pieces response).1) :
    reply.request ∈ requests.map (·.1) ∧ reply.Valid := by
  induction requests generalizing writer pieces response with
  | nil => cases hreply
  | cons request requests ih =>
    obtain ⟨packet, timing⟩ := request
    -- what the rest of the run injects is for the rest of the requests
    have hrest : ∀ writer pieces response,
        reply ∈ (runFlow ipv6 requests writer pieces response).1 →
        reply.request ∈ ((packet, timing) :: requests).map (·.1) ∧ reply.Valid :=
      fun writer pieces response hlater =>
        (ih writer pieces response hlater).imp (List.mem_cons_of_mem _) id
    cases timing with
    | expired => exact hrest writer pieces response hreply
    | elapsed => cases hreply
    | inTime sent =>
      unfold runFlow at hreply
      split at hreply
      · cases hreply
      split at hreply
      · cases hreply
      split at hreply
      · cases hreply
      rename_i hwrite _ remote pieces' _ _ packet' haccept
      have hfirst := acceptReply_ok (fits_of_writePacket hwrite).1 haccept
      cases sent with
      | error e =>
        rw [List.mem_singleton.mp hreply]
        exact ⟨List.mem_cons_self, hfirst⟩
      | ok _ =>
        rcases List.mem_cons.mp hreply with rfl | hlater
        · exact ⟨List.mem_cons_self, hfirst⟩
        · exact hrest _ _ _ hlater

section Sample

/-- A request of nine bytes, and what a remote answers, with a wrong checksum. -/
def oddRequest : EchoPacket :=
  ⟨.v4 0x0A000002#32, .v4 0x01010101#32, [8, 0, 0xF0, 0xFD, 0, 1, 0, 1, 7]⟩

def oddReply : List UInt8 := [0, 0, 9, 9, 0, 1, 0, 1, 7]

/-- The reply in two pieces. -/
def oddPieces : List (Piece UInt8) :=
  [⟨[0, 9, 0, 0, 9], List.cons_ne_nil _ _⟩, ⟨[9, 0, 1, 0, 1, 7], List.cons_ne_nil _ _⟩]

/-- Two requests of one flow and one of another, and a worker that takes the first one off. -/
theorem sample_flows_inv : ∃ s : EchoFlows, s.Inv ∧ s.flows.entries.length = 2 ∧
    ∃ key flow, s.flows.lookup key = some flow ∧ flow.queue = [oddRequest] := by
  have hqueued : EchoFlows.Reachable _ := .dispatch (.dispatch (.dispatch (.new 1500) oddRequest)
    oddRequest) { oddRequest with srcAddr := .v4 0x0A000003#32 }
  have hworked := @EchoFlows.Reachable.worker _ hqueued (EchoFlows.keyOf oddRequest)
    ⟨false, [oddRequest, oddRequest], false⟩ false [oddRequest] (by decide +kernel) ⟨[_], rfl⟩
  exact ⟨_, EchoFlows.Reachable.inv hworked, by decide +kernel, EchoFlows.keyOf oddRequest,
    ⟨false, [oddRequest], false⟩, AList.lookup_insert _, rfl⟩

theorem sample_injected_checksum : ∃ reply : Injected,
    reply ∈ (runFlow false [(oddRequest, .inTime (.ok ()))] threeBytes oddPieces []).1 ∧
      reply.remote = oddReply ∧
      packetChecksum reply.packet oddRequest.dstAddr oddRequest.srcAddr = 0 := by
  obtain ⟨calls, hwrite⟩ := writePacket_works threeBytes_works
    (show Fits oddRequest.payload by decide)
  have hpieces : joined oddPieces = framed oddReply ++ [] := by decide
  obtain ⟨pieces, hread, -⟩ := readPacket_framed (show Fits oddReply by decide) [] hpieces
  obtain ⟨packet, haccept⟩ : ∃ packet, acceptReply false oddRequest oddReply = .ok packet :=
    ⟨_, if_neg (by decide)⟩
  have hreply : ⟨oddRequest, oddReply, packet⟩ ∈
      (runFlow false [(oddRequest, .inTime (.ok ()))] threeBytes oddPieces []).1 := by
    simp only [runFlow, hwrite, hread, haccept, List.mem_singleton]
  exact ⟨_, hreply, rfl, (injected_checksum false _ _ _ _ _ hreply).2.checksum⟩

end Sample

end Tun2Proxy.Icmp
