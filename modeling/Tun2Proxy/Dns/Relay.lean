/-
  File:      Tun2Proxy/Dns/Relay.lean
  Subject:   DNS over TCP towards a network without IPv6 (`copy_ipv4_dns_responses` of src/lib.rs,
             `drain_tcp_messages` of src/dns.rs).

  The server's stream is a row of frames, each a length and a message, and arrives in pieces cut
  anywhere. The pump keeps what is not yet a complete frame, and writes for every complete frame one
  that holds the message without its AAAA records. `RelayedFrame` is a frame that goes through, with
  the one that comes out; a stream is described by the list of them, and the pieces do not matter
  (`ipv4_relay_exact`).
-/
import Tun2Proxy.Dns.Wire

namespace Tun2Proxy

open BigEndian

/-! ## 1. Frames -/

/-- A message behind its length. -/
def frame (body : List UInt8) : List UInt8 := bytes 2 body.length ++ body

def frames (bodies : List (List UInt8)) : List UInt8 := (bodies.map frame).flatten

theorem frames_nil : frames [] = [] := rfl

theorem frames_cons (body : List UInt8) (bodies : List (List UInt8)) :
    frames (body :: bodies) = frame body ++ frames bodies := rfl

theorem frames_append (bodies bodies' : List (List UInt8)) :
    frames (bodies ++ bodies') = frames bodies ++ frames bodies' := by
  unfold frames
  rw [List.map_append, List.flatten_append]

theorem length_frame (body : List UInt8) : (frame body).length = 2 + body.length := by
  rw [frame, List.length_append, length_bytes]

/-- The first two bytes of a stream that begins with a frame. -/
theorem value_frame {pending remaining body tail : List UInt8} (hbody : body.length ≤ 65535)
    (h : pending ++ remaining = frame body ++ tail) (hlen : 2 ≤ pending.length) :
    value (pending.take 2) = body.length := by
  have htake : pending.take 2 = bytes 2 body.length := by
    have := congrArg (List.take 2) h
    rwa [List.take_append_of_le_length hlen, frame, List.append_assoc,
      List.take_left' (length_bytes 2 body.length)] at this
  rw [htake]
  exact value_bytes_of_lt (by omega)

/-- A buffer with a complete frame is the frame and the rest. -/
theorem eq_frame_append {buffer : List UInt8} (h : 2 ≤ buffer.length)
    (hfull : 2 + value (buffer.take 2) ≤ buffer.length) :
    ((buffer.take (2 + value (buffer.take 2))).drop 2).length = value (buffer.take 2) ∧
    value (buffer.take 2) ≤ 65535 ∧
    buffer = frame ((buffer.take (2 + value (buffer.take 2))).drop 2) ++
      buffer.drop (2 + value (buffer.take 2)) := by
  have htwo : (buffer.take 2).length = 2 := List.length_take_of_le h
  have hlen : ((buffer.take (2 + value (buffer.take 2))).drop 2).length =
      value (buffer.take 2) := by
    rw [List.length_drop, List.length_take_of_le hfull, Nat.add_sub_cancel_left]
  have hvalue := value_lt (buffer.take 2)
  rw [htwo] at hvalue
  refine ⟨hlen, Nat.le_of_lt_succ hvalue, ?_⟩
  have hprefix : bytes 2 (value (buffer.take 2)) =
      (buffer.take (2 + value (buffer.take 2))).take 2 := by
    rw [List.take_take, Nat.min_eq_left (Nat.le_add_right 2 _)]
    nth_rewrite 1 [← htwo]
    exact bytes_value _
  rw [frame, hlen, hprefix, List.take_append_drop, List.take_append_drop]

section Relay

variable {Record Signature Rest : Type}

/-- A complete frame that parses. -/
structure ReceivedFrame (dns : DnsLibrary Record Signature Rest) where
  body : List UInt8
  message : DnsMessage Record Signature Rest
  nonempty : body ≠ []
  short : body.length ≤ 65535
  parses : dns.fromVec body = .ok message

/-- A frame whose message can be written again without its AAAA records. -/
structure RelayedFrame (dns : DnsLibrary Record Signature Rest) extends ReceivedFrame dns where
  packet : List UInt8
  encodes : dns.toVec (removeIpv6Entries dns message) = .ok packet
  fits : packet.length ≤ 65535

/-- What the reads of a stream return before it ends. -/
def streamOf : List ReadResult → List UInt8
  | [] => []
  | .error _ :: _ => []
  | .ok buffer :: reads => if buffer.length = 0 then [] else buffer ++ streamOf reads

/-- The records of the sections that are not AAAA, in their order. -/
def WithoutAaaa (dns : DnsLibrary Record Signature Rest)
    (message out : DnsMessage Record Signature Rest) : Prop :=
  out.answers = message.answers.filter (fun record => !dns.isAaaa record) ∧
    out.authorities = message.authorities.filter (fun record => !dns.isAaaa record) ∧
    out.additionals = message.additionals.filter (fun record => !dns.isAaaa record) ∧
    out.rest = message.rest

variable {dns : DnsLibrary Record Signature Rest}

/-! ## 2. One round -/

/-- What is drained are complete frames; the rest stays. -/
theorem drainTcpMessages_ok {buffer rest : List UInt8}
    {messages : List (DnsMessage Record Signature Rest)}
    (h : drainTcpMessages dns buffer = .ok (messages, rest)) :
    ∃ l : List (ReceivedFrame dns), messages = l.map (·.message) ∧
      buffer = frames (l.map (·.body)) ++ rest := by
  fun_induction drainTcpMessages dns buffer generalizing messages rest with
  | case1 buffer hshort =>
    cases h
    exact ⟨[], rfl, rfl⟩
  | case2 => cases h
  | case3 =>
    cases h
    exact ⟨[], rfl, rfl⟩
  | case4 => cases h
  | case5 => cases h
  | case6 =>
    rename_i hlen _ hzero _ hfull message hparse messages' rest' hdrain ih
    cases h
    obtain ⟨l, rfl, hrest⟩ := ih hdrain
    obtain ⟨hbody, hshort, hsplit⟩ := eq_frame_append (Nat.le_of_not_lt hlen)
      (Nat.le_of_not_lt hfull)
    refine ⟨⟨_, message, fun e => ?_, hbody.trans_le hshort, hparse⟩ :: l, rfl, ?_⟩
    · rw [e] at hbody
      exact hzero hbody.symm
    · rw [List.map_cons, frames_cons, List.append_assoc, ← hrest]
      exact hsplit

/-- A piece of a stream of complete frames gives the messages of its complete frames. -/
theorem drainTcpMessages_piece {pending remaining : List UInt8} {l : List (ReceivedFrame dns)}
    (h : pending ++ remaining = frames (l.map (·.body))) :
    ∃ l₁ l₂ rest, l = l₁ ++ l₂ ∧
      drainTcpMessages dns pending = .ok (l₁.map (·.message), rest) ∧
      rest ++ remaining = frames (l₂.map (·.body)) ∧ (remaining = [] → l₂ = []) := by
  induction l generalizing pending with
  | nil =>
    obtain ⟨rfl, -⟩ := List.append_eq_nil_iff.mp h
    refine ⟨[], [], [], rfl, ?_, h, fun _ => rfl⟩
    rw [drainTcpMessages, if_pos (by decide)]
    rfl
  | cons r l ih =>
    rw [List.map_cons, frames_cons] at h
    have hframe := length_frame r.body
    have hlength : pending.length + remaining.length =
        (frame r.body).length + (frames (l.map (·.body))).length := by
      have := congrArg List.length h
      rwa [List.length_append, List.length_append] at this
    have hpos := List.length_pos_iff.mpr r.nonempty
    rw [drainTcpMessages]
    by_cases hshort : pending.length < DNS_TCP_PREFIX_SIZE
    · rw [if_pos hshort]
      refine ⟨[], r :: l, pending, rfl, rfl, h, fun e => ?_⟩
      rw [e] at hlength
      unfold DNS_TCP_PREFIX_SIZE at hshort
      simp only [List.length_nil] at hlength
      omega
    have hvalue := value_frame r.short h (Nat.le_of_not_lt hshort)
    rw [if_neg hshort]
    dsimp only [DNS_TCP_PREFIX_SIZE]
    rw [hvalue, if_neg (by omega)]
    by_cases hpartial : pending.length < 2 + r.body.length
    · rw [if_pos hpartial]
      refine ⟨[], r :: l, pending, rfl, rfl, h, fun e => ?_⟩
      rw [e] at hlength
      simp only [List.length_nil] at hlength
      omega
    rw [if_neg hpartial]
    have hle : (frame r.body).length ≤ pending.length := by omega
    have htake : pending.take (2 + r.body.length) = frame r.body := by
      have := congrArg (List.take (frame r.body).length) h
      rwa [List.take_append_of_le_length hle, List.take_left, hframe] at this
    have hdrop : pending.drop (2 + r.body.length) ++ remaining = frames (l.map (·.body)) := by
      have := congrArg (List.drop (frame r.body).length) h
      rwa [List.drop_append_of_le_length hle, List.drop_left, hframe] at this
    have hbody : (frame r.body).drop 2 = r.body :=
      List.drop_left' (length_bytes 2 r.body.length)
    obtain ⟨l₁, l₂, rest, rfl, hdrain, hrest, hlast⟩ := ih hdrop
    rw [htake, hbody, r.parses]
    dsimp only
    rw [hdrain]
    exact ⟨r :: l₁, l₂, rest, rfl, rfl, hrest, hlast⟩

/-- Messages that can be written are written, one frame each. -/
theorem writeMessages_relayed (l : List (RelayedFrame dns)) (written : List UInt8) :
    writeMessages dns (l.map (·.message)) ⟨[], written⟩ =
      (⟨[], written ++ frames (l.map (·.packet))⟩, .ok ()) := by
  induction l generalizing written with
  | nil =>
    rw [List.map_nil, List.map_nil, writeMessages, frames_nil, List.append_nil]
  | cons r l ih =>
    rw [List.map_cons, writeMessages, r.encodes]
    dsimp only
    rw [if_neg (Nat.not_lt.mpr r.fits), Writer.writeAll_ok]
    dsimp only
    rw [Writer.writeAll_ok]
    dsimp only
    rw [ih, List.map_cons, frames_cons, frame]
    simp only [List.append_assoc]

/-- Whatever happens, the messages written are the first ones, one frame each. -/
theorem writeMessages_written (l : List (ReceivedFrame dns)) (written : List UInt8) :
    ∃ (sent : List (RelayedFrame dns)) (left : List (ReceivedFrame dns))
      (result : Except Error Unit),
      l = sent.map (·.toReceivedFrame) ++ left ∧
      writeMessages dns (l.map (·.message)) ⟨[], written⟩ =
        (⟨[], written ++ frames (sent.map (·.packet))⟩, result) ∧
      (result = .ok () → left = []) := by
  induction l generalizing written with
  | nil => exact ⟨[], [], .ok (), rfl, writeMessages_relayed [] written, fun _ => rfl⟩
  | cons r l ih =>
    -- nothing of a message is written before it is encoded
    have hstop : ∀ e : Error, ∃ (sent : List (RelayedFrame dns)) (left : List (ReceivedFrame dns))
        (result : Except Error Unit), r :: l = sent.map (·.toReceivedFrame) ++ left ∧
          ((⟨[], written⟩ : Writer), (Except.error e : Except Error Unit)) =
            (⟨[], written ++ frames (sent.map (·.packet))⟩, result) ∧
          (result = .ok () → left = []) := by
      refine fun e => ⟨[], r :: l, .error e, rfl, ?_, nofun⟩
      rw [List.map_nil, frames_nil, List.append_nil]
    rw [List.map_cons, writeMessages]
    cases hencode : dns.toVec (removeIpv6Entries dns r.message) with
    | error text => exact hstop _
    | ok packet =>
      dsimp only
      by_cases hlong : 65535 < packet.length
      · rw [if_pos hlong]
        exact hstop _
      rw [if_neg hlong, Writer.writeAll_ok]
      dsimp only
      rw [Writer.writeAll_ok]
      dsimp only
      obtain ⟨sent, left, result, hl, hwrite, hleft⟩ :=
        ih (written ++ bytes 2 packet.length ++ packet)
      refine ⟨⟨r, packet, hencode, Nat.le_of_not_lt hlong⟩ :: sent, left, result, ?_, ?_, hleft⟩
      · rw [List.map_cons, List.cons_append, ← hl]
      · rw [hwrite, List.map_cons, frames_cons, frame]
        simp only [List.append_assoc]

/-- The second half of a round: the pump reads, and goes on. -/
def readMore (dns : DnsLibrary Record Signature Rest) (pending : List UInt8) (writer : Writer)
    (total : Nat) : List ReadResult → Pump
  | [] => ⟨writer, none⟩
  | .error e :: _ => ⟨writer, some (.error e)⟩
  | .ok buffer :: reads =>
    if buffer.length = 0 then
      if pending.isEmpty then ⟨writer, some (.ok total)⟩
      else ⟨writer, some (.error (.io .unexpectedEof "incomplete DNS-over-TCP response"))⟩
    else copyIpv4DnsResponses dns reads (pending ++ buffer) writer (total + buffer.length)

theorem copyIpv4DnsResponses_of_drain {pending rest written written' : List UInt8}
    {messages : List (DnsMessage Record Signature Rest)}
    (hdrain : drainTcpMessages dns pending = .ok (messages, rest))
    (hwrite : writeMessages dns messages ⟨[], written⟩ = (⟨[], written'⟩, .ok ()))
    (reads : List ReadResult) (total : Nat) :
    copyIpv4DnsResponses dns reads pending ⟨[], written⟩ total =
      readMore dns rest ⟨[], written'⟩ total reads := by
  rw [copyIpv4DnsResponses.eq_def]
  dsimp only
  rw [hdrain]
  dsimp only
  rw [hwrite]
  rcases reads with _ | ⟨_ | buffer, reads⟩ <;> rfl

/-- **One round**: it fails behind some frames, or takes all complete ones and reads on. -/
theorem copyIpv4DnsResponses_round (dns : DnsLibrary Record Signature Rest)
    (pending written : List UInt8) :
    ∃ (l : List (RelayedFrame dns)) (rest : List UInt8), pending = frames (l.map (·.body)) ++ rest ∧
      ((∃ e, ∀ reads total, copyIpv4DnsResponses dns reads pending ⟨[], written⟩ total =
          ⟨⟨[], written ++ frames (l.map (·.packet))⟩, some (.error e)⟩) ∨
        ∀ reads total, copyIpv4DnsResponses dns reads pending ⟨[], written⟩ total =
          readMore dns rest ⟨[], written ++ frames (l.map (·.packet))⟩ total reads) := by
  cases hdrain : drainTcpMessages dns pending with
  | error text =>
    refine ⟨[], pending, rfl, .inl ⟨.io .other text, fun reads total => ?_⟩⟩
    rw [copyIpv4DnsResponses.eq_def]
    dsimp only
    rw [hdrain, List.map_nil, frames_nil, List.append_nil]
  | ok out =>
    obtain ⟨messages, rest⟩ := out
    obtain ⟨received, rfl, rfl⟩ := drainTcpMessages_ok hdrain
    obtain ⟨l, left, result, rfl, hwrite, hleft⟩ := writeMessages_written received written
    cases result with
    | error e =>
      refine ⟨l, frames (left.map (·.body)) ++ rest, ?_, .inl ⟨e, fun reads total => ?_⟩⟩
      · rw [List.map_append, frames_append, List.map_map, List.append_assoc]
        rfl
      · rw [copyIpv4DnsResponses.eq_def]
        dsimp only
        rw [hdrain]
        dsimp only
        rw [hwrite]
    | ok _ =>
      obtain rfl := hleft rfl
      refine ⟨l, rest, ?_, .inr fun reads total => ?_⟩
      · rw [List.append_nil, List.map_map]
        rfl
      · exact copyIpv4DnsResponses_of_drain hdrain hwrite reads total

/-! ## 3. The whole stream -/

/-- **What is written at any time** are the frames of the first messages. A pump that ends well has
    written all of them. -/
theorem copyIpv4DnsResponses_written (dns : DnsLibrary Record Signature Rest)
    (reads : List ReadResult) (pending written : List UInt8) (total : Nat) :
    ∃ (l : List (RelayedFrame dns)) (rest : List UInt8),
      pending ++ streamOf reads = frames (l.map (·.body)) ++ rest ∧
      (copyIpv4DnsResponses dns reads pending ⟨[], written⟩ total).writer =
        ⟨[], written ++ frames (l.map (·.packet))⟩ ∧
      ∀ n, (copyIpv4DnsResponses dns reads pending ⟨[], written⟩ total).result = some (.ok n) →
        rest = [] := by
  induction reads generalizing pending written total with
  | nil =>
    obtain ⟨l, rest, rfl, ⟨e, hround⟩ | hround⟩ :=
      copyIpv4DnsResponses_round dns pending written
    · rw [hround]
      exact ⟨l, rest, List.append_nil _, rfl, nofun⟩
    · rw [hround]
      exact ⟨l, rest, List.append_nil _, rfl, nofun⟩
  | cons read reads ih =>
    obtain ⟨l, rest, rfl, ⟨e, hround⟩ | hround⟩ :=
      copyIpv4DnsResponses_round dns pending written
    · rw [hround]
      exact ⟨l, rest ++ streamOf (read :: reads), List.append_assoc .., rfl, nofun⟩
    rw [hround]
    cases read with
    | error e => exact ⟨l, rest, List.append_nil _, rfl, nofun⟩
    | ok buffer =>
      rw [streamOf, readMore]
      by_cases hend : buffer.length = 0
      · rw [if_pos hend, if_pos hend]
        refine ⟨l, rest, List.append_nil _, ?_, fun n hn => ?_⟩
        · split <;> rfl
        · split at hn
          · exact List.isEmpty_iff.mp ‹_›
          · cases hn
      · rw [if_neg hend, if_neg hend]
        obtain ⟨l', rest', hstream, hwriter, hresult⟩ := ih (rest ++ buffer)
          (written ++ frames (l.map (·.packet))) (total + buffer.length)
        refine ⟨l ++ l', rest', ?_, ?_, hresult⟩
        · rw [List.map_append, frames_append, List.append_assoc, List.append_assoc, ← hstream,
            List.append_assoc]
        · rw [hwriter, List.map_append, frames_append, List.append_assoc]

/-- A round on a piece of a stream of frames that go through. -/
theorem copyIpv4DnsResponses_piece {pending remaining : List UInt8} (written : List UInt8)
    {l : List (RelayedFrame dns)} (h : pending ++ remaining = frames (l.map (·.body))) :
    ∃ a b rest, l = a ++ b ∧ rest ++ remaining = frames (b.map (·.body)) ∧
      (remaining = [] → b = []) ∧
      ∀ reads total, copyIpv4DnsResponses dns reads pending ⟨[], written⟩ total =
        readMore dns rest ⟨[], written ++ frames (a.map (·.packet))⟩ total reads := by
  have hreceived : pending ++ remaining = frames ((l.map (·.toReceivedFrame)).map (·.body)) := by
    rw [List.map_map]
    exact h
  obtain ⟨l₁, l₂, rest, hsplit, hdrain, hrest, hlast⟩ := drainTcpMessages_piece hreceived
  obtain ⟨a, b, rfl, rfl, rfl⟩ := List.map_eq_append_iff.mp hsplit
  rw [List.map_map] at hdrain hrest
  exact ⟨a, b, rest, rfl, hrest, fun e => List.map_eq_nil_iff.mp (hlast e),
    copyIpv4DnsResponses_of_drain hdrain (writeMessages_relayed a written)⟩

/-- **A stream of frames goes through**, however it is cut. -/
theorem copyIpv4DnsResponses_complete {chunks : List (List UInt8)} (hchunks : ∀ c ∈ chunks, c ≠ [])
    {pending : List UInt8} (written : List UInt8) (total : Nat) {l : List (RelayedFrame dns)}
    (h : pending ++ chunks.flatten = frames (l.map (·.body))) :
    ∃ n, copyIpv4DnsResponses dns (chunks.map .ok ++ [.ok []]) pending ⟨[], written⟩ total =
      ⟨⟨[], written ++ frames (l.map (·.packet))⟩, some (.ok n)⟩ := by
  induction chunks generalizing pending written total l with
  | nil =>
    obtain ⟨a, b, rest, rfl, hrest, hlast, hround⟩ := copyIpv4DnsResponses_piece written h
    obtain rfl := hlast rfl
    obtain ⟨rfl, -⟩ := List.append_eq_nil_iff.mp hrest
    rw [List.append_nil, hround]
    exact ⟨total, rfl⟩
  | cons chunk chunks ih =>
    obtain ⟨hne, hchunks⟩ := List.forall_mem_cons.mp hchunks
    rw [List.flatten_cons] at h
    obtain ⟨a, b, rest, rfl, hrest, -, hround⟩ := copyIpv4DnsResponses_piece written h
    have hlen : ¬ chunk.length = 0 := fun e => hne (List.eq_nil_of_length_eq_zero e)
    rw [hround, List.map_cons, List.cons_append, readMore, if_neg hlen, List.map_append,
      frames_append, ← List.append_assoc]
    refine ih hchunks (written ++ frames (a.map (·.packet))) (total + chunk.length) ?_
    rw [List.append_assoc]
    exact hrest

/-- What comes out of a frame: the message without its AAAA records. -/
theorem RelayedFrame.decodes (hdns : dns.RoundTrips) (r : RelayedFrame dns) :
    ∃ out, dns.fromVec r.packet = .ok out ∧ WithoutAaaa dns r.message out :=
  ⟨_, hdns _ _ r.encodes, rfl, rfl, rfl, rfl⟩

theorem streamOf_chunks {chunks : List (List UInt8)} (hchunks : ∀ c ∈ chunks, c ≠ []) :
    streamOf (chunks.map .ok ++ [.ok []]) = chunks.flatten := by
  induction chunks with
  | nil => rfl
  | cons chunk chunks ih =>
    obtain ⟨hne, hchunks⟩ := List.forall_mem_cons.mp hchunks
    have hlen : ¬ chunk.length = 0 := fun e => hne (List.eq_nil_of_length_eq_zero e)
    rw [List.map_cons, List.cons_append, streamOf, if_neg hlen, ih hchunks, List.flatten_cons]

/-- **The relay for a network without IPv6 is exact.** However the stream is cut into a prefetched
    part and chunks, it goes through if it is a row of frames that can be relayed, and then one
    frame was written for each, with the message less its AAAA records. Of any stream, what is
    written are the frames of some of its first messages. -/
theorem ipv4_relay_exact (hdns : dns.RoundTrips) (prefetched : List UInt8) :
    (∀ chunks : List (List UInt8), (∀ c ∈ chunks, c ≠ []) →
      ((∃ n, (copyIpv4DnsResponses dns (chunks.map .ok ++ [.ok []]) prefetched ⟨[], []⟩ 0).result =
          some (.ok n)) ↔
        ∃ l : List (RelayedFrame dns), prefetched ++ chunks.flatten = frames (l.map (·.body))) ∧
      ∀ l : List (RelayedFrame dns), prefetched ++ chunks.flatten = frames (l.map (·.body)) →
        (copyIpv4DnsResponses dns (chunks.map .ok ++ [.ok []]) prefetched ⟨[], []⟩
          0).writer.written = frames (l.map (·.packet))) ∧
    (∀ reads : List ReadResult, ∃ (l : List (RelayedFrame dns)) (rest : List UInt8),
      prefetched ++ streamOf reads = frames (l.map (·.body)) ++ rest ∧
      (copyIpv4DnsResponses dns reads prefetched ⟨[], []⟩ 0).writer.written =
        frames (l.map (·.packet))) ∧
    (∀ r : RelayedFrame dns, ∃ out, dns.fromVec r.packet = .ok out ∧
      WithoutAaaa dns r.message out) := by
  refine ⟨fun chunks hchunks => ⟨⟨fun hok => ?_, fun hl => ?_⟩, fun l hl => ?_⟩, fun reads => ?_,
    RelayedFrame.decodes hdns⟩
  · obtain ⟨n, hn⟩ := hok
    obtain ⟨l, rest, hstream, -, hresult⟩ := copyIpv4DnsResponses_written dns
      (chunks.map .ok ++ [.ok []]) prefetched [] 0
    rw [streamOf_chunks hchunks, hresult n hn, List.append_nil] at hstream
    exact ⟨l, hstream⟩
  · obtain ⟨l, hl⟩ := hl
    obtain ⟨n, hpump⟩ := copyIpv4DnsResponses_complete hchunks [] 0 hl
    rw [hpump]
    exact ⟨n, rfl⟩
  · obtain ⟨n, hpump⟩ := copyIpv4DnsResponses_complete hchunks [] 0 hl
    rw [hpump]
    rfl
  · obtain ⟨l, rest, hstream, hwriter, -⟩ := copyIpv4DnsResponses_written dns reads prefetched
      [] 0
    rw [hwriter]
    exact ⟨l, rest, hstream, rfl⟩

end Relay

/-! ## 4. A sample stream -/

/-- Records of the name `a`. -/
def sampleA : DnsRecord WireName := ⟨hostName 97, 60, 1, .a 0x01020304#32⟩
def sampleAaaa : DnsRecord WireName :=
  ⟨hostName 97, 60, 1, .aaaa 0x20010DB8000000000000000000000001#128⟩

/-- Their bytes behind the question, to whose name they point. -/
def sampleABytes : List UInt8 := [192, 12, 0, 1, 0, 1, 0, 0, 0, 60, 0, 4, 1, 2, 3, 4]
def sampleAaaaBytes : List UInt8 :=
  [192, 12, 0, 28, 0, 1, 0, 0, 0, 60, 0, 16, 32, 1, 13, 184, 0, 0, 0, 0, 0, 0, 0, 0, 0, 0, 0, 1]

/-- A response of a resolver that has checked it, and its header and question as bytes. -/
def sampleResponse (kind : UInt16) (answers additionals : List (DnsRecord WireName)) :
    Wire.WireMessage where
  answers
  authorities := []
  additionals
  authenticData := true
  signature := none
  rest := ⟨7, .response, .query, [⟨hostName 97, kind, 1⟩],
    ⟨.noError, false, false, true, ⟨true, false⟩⟩⟩
def sampleResponseBytes (flags kind answers additionals : UInt8) : List UInt8 :=
  [0, 7, 129, flags, 0, 1, 0, answers, 0, 0, 0, additionals, 1, 97, 0, 0, kind, 0, 1]

/-- An address with an AAAA record behind it, and two AAAA records. -/
def sampleRelayed : List (RelayedFrame wireNames.toDnsLibrary) :=
  [⟨⟨sampleResponseBytes 160 1 1 1 ++ sampleABytes ++ sampleAaaaBytes,
        sampleResponse 1 [sampleA] [sampleAaaa], by decide, by decide, by decide +kernel⟩,
      sampleResponseBytes 128 1 1 0 ++ sampleABytes, by decide +kernel, by decide⟩,
    ⟨⟨sampleResponseBytes 160 28 2 0 ++ sampleAaaaBytes ++ sampleAaaaBytes,
        sampleResponse 28 [sampleAaaa, sampleAaaa] [], by decide, by decide, by decide +kernel⟩,
      sampleResponseBytes 128 28 0 0, by decide +kernel, by decide⟩]

/-- The first length is cut, and the second frame comes with the end of the first. -/
theorem sample_ipv4_relay_exact :
    let stream := frames (sampleRelayed.map (·.body))
    (copyIpv4DnsResponses wireNames.toDnsLibrary
        ([(stream.drop 1).take 50, stream.drop 51].map .ok ++ [.ok []]) (stream.take 1)
        ⟨[], []⟩ 0).writer.written =
      frames [sampleResponseBytes 128 1 1 0 ++ sampleABytes, sampleResponseBytes 128 28 0 0] :=
  ((ipv4_relay_exact wireNames_roundTrips _).1 _ (by decide)).2 sampleRelayed (by decide)

end Tun2Proxy
