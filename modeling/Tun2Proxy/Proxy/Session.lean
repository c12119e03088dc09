/-
  File:      Tun2Proxy/Proxy/Session.lean
  Subject:   A TCP session of the TUN through a proxy (`handle_tcp_session` of src/lib.rs).

  The session connects, takes the handler through its handshake, and takes over what the server
  has sent behind it (`setUp`). Two pumps then copy bytes in the two directions; where IPv6 is
  off, the one towards the TUN filters DNS messages instead (`copyIpv4DnsResponses`, with
  `drain_tcp_messages` and `remove_ipv6_entries` of src/dns.rs).

  A pump is a function of what its reads return, so its state at any moment is its run on the
  reads so far. The pumps run side by side, and an error of one cancels the other; each of them
  is modelled up to where it is cancelled.
-/
import Tun2Proxy.Lib.BigEndian
import Tun2Proxy.Proxy.Handler

namespace Tun2Proxy

open BigEndian

/-! ## 1. Pumps -/

/-- What a pump has written, and its result, if it has ended. -/
structure Pump where
  writer : Writer
  result : Option (Except Error Nat)

/-- `copy_and_record_traffic`. The traffic counters are left out. -/
def copyAndRecordTraffic : List ReadResult → Writer → Nat → Pump
  | [], writer, _ => ⟨writer, none⟩
  | .error e :: _, writer, _ => ⟨writer, some (.error e)⟩
  | .ok buffer :: reads, writer, total =>
    if buffer.length = 0 then ⟨writer, some (.ok total)⟩
    else
      match writer.writeAll buffer with
      | (writer, .error e) => ⟨writer, some (.error e)⟩
      | (writer, .ok _) => copyAndRecordTraffic reads writer (total + buffer.length)

/-! ## 2. DNS responses for an IPv4 network -/

/-- The `Message` of hickory as far as the filter looks into it: its records and its signature.
    The rest of it stays. -/
structure DnsMessage (Record Signature Rest : Type) where
  answers : List Record
  authorities : List Record
  additionals : List Record
  authenticData : Bool
  signature : Option Signature
  rest : Rest
  deriving DecidableEq

/-- What the filter uses of hickory. -/
structure DnsLibrary (Record Signature Rest : Type) where
  fromVec : List UInt8 → Except String (DnsMessage Record Signature Rest)
  toVec : DnsMessage Record Signature Rest → Except String (List UInt8)
  isAaaa : Record → Bool

/-- Decoding an encoded message gives the message back. -/
def DnsLibrary.RoundTrips {Record Signature Rest : Type} (dns : DnsLibrary Record Signature Rest) :
    Prop :=
  ∀ message packet, dns.toVec message = .ok packet → dns.fromVec packet = .ok message

def DNS_TCP_PREFIX_SIZE : Nat := 2

section Dns

variable {Record Signature Rest : Type} (dns : DnsLibrary Record Signature Rest)

def removeIpv6Entries (message : DnsMessage Record Signature Rest) :
    DnsMessage Record Signature Rest :=
  { message with
    answers := message.answers.filter fun record => !dns.isAaaa record
    authorities := message.authorities.filter fun record => !dns.isAaaa record
    additionals := message.additionals.filter fun record => !dns.isAaaa record
    authenticData := false
    signature := none }

/-- `drain_tcp_messages`: the messages of the complete frames, and what is left of the buffer. -/
def drainTcpMessages (buffer : List UInt8) :
    Except String (List (DnsMessage Record Signature Rest) × List UInt8) :=
  if buffer.length < DNS_TCP_PREFIX_SIZE then .ok ([], buffer)
  else
    let messageLen := value (buffer.take DNS_TCP_PREFIX_SIZE)
    if messageLen = 0 then .error "empty DNS-over-TCP frame"
    else
      let frameLen := DNS_TCP_PREFIX_SIZE + messageLen
      if buffer.length < frameLen then .ok ([], buffer)
      else
        match dns.fromVec ((buffer.take frameLen).drop DNS_TCP_PREFIX_SIZE) with
        | .error e => .error e
        | .ok message =>
          match drainTcpMessages (buffer.drop frameLen) with
          | .error e => .error e
          | .ok (messages, rest) => .ok (message :: messages, rest)
  termination_by buffer.length
  decreasing_by simp only [List.length_drop, DNS_TCP_PREFIX_SIZE] at *; omega

/-- The body of the loop over the drained messages. -/
def writeMessages : List (DnsMessage Record Signature Rest) → Writer → Writer × Except Error Unit
  | [], writer => (writer, .ok ())
  | message :: messages, writer =>
    match dns.toVec (removeIpv6Entries dns message) with
    | .error text => (writer, .error (.io .other text))
    | .ok packet =>
      if 65535 < packet.length then
        (writer, .error (.io .other "out of range integral type conversion attempted"))
      else
        match writer.writeAll (bytes 2 packet.length) with
        | (writer, .error e) => (writer, .error e)
        | (writer, .ok _) =>
          match writer.writeAll packet with
          | (writer, .error e) => (writer, .error e)
          | (writer, .ok _) => writeMessages messages writer

/-- `copy_ipv4_dns_responses`. -/
def copyIpv4DnsResponses : List ReadResult → List UInt8 → Writer → Nat → Pump
  | reads, pending, writer, total =>
    match drainTcpMessages dns pending with
    | .error text => ⟨writer, some (.error (.io .other text))⟩
    | .ok (messages, pending) =>
      match writeMessages dns messages writer with
      | (writer, .error e) => ⟨writer, some (.error e)⟩
      | (writer, .ok _) =>
        match reads with
        | [] => ⟨writer, none⟩
        | .error e :: _ => ⟨writer, some (.error e)⟩
        | .ok buffer :: reads =>
          if buffer.length = 0 then
            if pending.isEmpty then ⟨writer, some (.ok total)⟩
            else
              ⟨writer, some (.error
                (.io .unexpectedEof "incomplete DNS-over-TCP response"))⟩
          else copyIpv4DnsResponses reads (pending ++ buffer) writer (total + buffer.length)
  termination_by structural reads => reads

end Dns

/-! ## 3. The session -/

section Session

variable {σ : Type} (methods : ProxyHandler σ)

/-- A stream to the proxy: what its reads return, and its writing side. -/
abbrev ServerStream := List ReadResult × Writer

/-- The part of `handle_tcp_session` under its time limit, whose `Debug` text is `setupTimeout`:
    the bytes for the client that came with the handshake, and the stream behind them. -/
def setUp (handler : σ) (connection : Except Error ServerStream) (setupTimeout : String) :
    Except Error (List UInt8 × Exchange σ) :=
  match connection with
  | .error e => .error e
  | .ok (reads, server) =>
    match handleProxySession methods handler reads server with
    | .error (.error e) => .error e
    | .error .blocked =>
      .error (.io .timedOut s!"TUN TCP setup exceeded configured TCP timeout {setupTimeout}")
    | .ok (_, x) =>
      let prefetched := methods.peekData .toClient x.handler
      let handler := methods.consumeData .toClient prefetched.length x.handler
      .ok (prefetched, { x with handler })

variable {Record Signature Rest : Type} (dns : DnsLibrary Record Signature Rest)

/-- The pump towards the TUN. -/
def tunPump (filterDnsIpv6 : Bool) (prefetched : List UInt8) (reads : List ReadResult)
    (tun : Writer) : Pump :=
  if filterDnsIpv6 then copyIpv4DnsResponses dns reads prefetched tun 0
  else
    match tun.writeAll prefetched with
    | (tun, .error e) => ⟨tun, some (.error e)⟩
    | (tun, .ok _) => copyAndRecordTraffic reads tun 0

/-- `handle_tcp_session`: its two pumps, towards the server and towards the TUN. -/
def handleTcpSession (handler : σ) (connection : Except Error ServerStream)
    (setupTimeout : String) (filterDnsIpv6 : Bool) (tunReads : List ReadResult) (tun : Writer) :
    Except Error (Pump × Pump) :=
  match setUp methods handler connection setupTimeout with
  | .error e => .error e
  | .ok (prefetched, x) =>
    .ok (copyAndRecordTraffic tunReads x.server 0,
      tunPump dns filterDnsIpv6 prefetched x.reads tun)

end Session

/-! ## 4. What the pumps write -/

/-- A pump writes all it reads, in order. -/
theorem copyAndRecordTraffic_written {chunks : List (List UInt8)}
    (hc : ∀ chunk ∈ chunks, chunk ≠ []) (written : List UInt8) (total : Nat) :
    (copyAndRecordTraffic (chunks.map .ok) ⟨[], written⟩ total).writer =
      ⟨[], written ++ chunks.flatten⟩ := by
  induction chunks generalizing written total with
  | nil => simp [copyAndRecordTraffic]
  | cons chunk chunks ih =>
    obtain ⟨hne, hc⟩ := List.forall_mem_cons.mp hc
    have hlen : ¬ chunk.length = 0 := fun e => hne (List.eq_nil_of_length_eq_zero e)
    rw [List.map_cons, copyAndRecordTraffic, if_neg hlen, Writer.writeAll_ok]
    show (copyAndRecordTraffic _ _ _).writer = _
    rw [ih hc, List.flatten_cons, List.append_assoc]

/-- **What came with the handshake is written first**, where nothing is filtered. -/
theorem tunPump_written {Record Signature Rest : Type} (dns : DnsLibrary Record Signature Rest)
    (prefetched : List UInt8) {chunks : List (List UInt8)} (hc : ∀ chunk ∈ chunks, chunk ≠ [])
    (written : List UInt8) :
    (tunPump dns false prefetched (chunks.map .ok) ⟨[], written⟩).writer.written =
      written ++ prefetched ++ chunks.flatten := by
  unfold tunPump
  rw [if_neg Bool.false_ne_true, Writer.writeAll_ok]
  show (copyAndRecordTraffic _ _ _).writer.written = _
  rw [copyAndRecordTraffic_written hc]

end Tun2Proxy
