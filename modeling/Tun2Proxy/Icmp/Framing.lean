/-
  File:      Tun2Proxy/Icmp/Framing.lean
  Subject:   Echo packets on the connection to the local proxy (`read_packet` and `write_packet` of
             src/icmp.rs).

  A packet follows its length in two bytes. The writer offers both in one vectored write, which may
  take any part of them; what was taken is dropped from the slices, and the rest is offered again.
  The reader gets the bytes in pieces of any size and puts them into a buffer that has been used
  before: it is only cut or extended to the length of the packet.
-/
import Tun2Proxy.Net.IpAddr
import Tun2Proxy.Udpgw.AsyncStream

namespace Tun2Proxy.Icmp

open BigEndian PieceDecoder

/-! ## 1. Writing -/

def MAX_ECHO_PACKET : Nat := 65535

/-- `IoSlice::advance_slices`. -/
def advanceSlices : Nat → List (List UInt8) → List (List UInt8)
  | _, [] => []
  | n, slice :: slices =>
    if slice.length ≤ n then advanceSlices (n - slice.length) slices else slice.drop n :: slices

/-- The connection, as the writer sees it. A write takes at most what it is offered. -/
structure Writer where
  wire : List UInt8
  /-- The calls of `write_vectored` so far. -/
  calls : Nat
  /-- How many bytes each call would take, or how it fails. -/
  accepts : Nat → Except Error Nat
  flushes : Nat → Except Error Unit

namespace Writer

def writeVectored (self : Writer) (slices : List (List UInt8)) : Except Error Nat × Writer :=
  match self.accepts self.calls with
  | .error e => (.error e, { self with calls := self.calls + 1 })
  | .ok n =>
    let n := min n slices.flatten.length
    (.ok n, { self with
      wire := self.wire ++ slices.flatten.take n
      calls := self.calls + 1 })

def flush (self : Writer) : Except Error Unit × Writer := (self.flushes self.calls, self)

theorem writeVectored_le {self writer : Writer} {slices : List (List UInt8)} {n : Nat}
    (h : self.writeVectored slices = (.ok n, writer)) : n ≤ slices.flatten.length := by
  unfold writeVectored at h
  split at h
  · cases h
  · cases h
    exact Nat.min_le_right _ _

end Writer

theorem flatten_advanceSlices (n : Nat) (slices : List (List UInt8)) :
    (advanceSlices n slices).flatten = slices.flatten.drop n := by
  fun_induction advanceSlices n slices with
  | case1 => exact List.drop_nil.symm
  | case2 n slice slices hle ih =>
    rw [ih, List.flatten_cons, List.drop_append, List.drop_eq_nil_of_le hle, List.nil_append]
  | case3 n slice slices hlt =>
    rw [List.flatten_cons, List.flatten_cons, List.drop_append_of_le_length (by omega)]

/-- The loop of `write_packet`. -/
def writeSlices (pending : List (List UInt8)) (writer : Writer) : Except Error Unit × Writer :=
  if pending.isEmpty then (.ok (), writer)
  else
    match _hwrite : writer.writeVectored pending with
    | (.error e, writer) => (.error e, writer)
    | (.ok n, writer) =>
      if _hzero : n = 0 then (.error (.ofKind .writeZero), writer)
      else writeSlices (advanceSlices n pending) writer
termination_by pending.flatten.length
decreasing_by
  have hle := Writer.writeVectored_le _hwrite
  rw [flatten_advanceSlices, List.length_drop]
  omega

/-- The lengths that are carried: `(8..=MAX_ECHO_PACKET).contains`. -/
def Fits (packet : List UInt8) : Prop := 8 ≤ packet.length ∧ packet.length ≤ MAX_ECHO_PACKET

instance : DecidablePred Fits := fun _ => inferInstanceAs (Decidable (_ ∧ _))

def writePacket (writer : Writer) (packet : List UInt8) : Except Error Unit × Writer :=
  if ¬ Fits packet then
    (.error (.io .invalidInput "invalid ICMP Echo packet length"), writer)
  else
    match writeSlices [bytes 2 packet.length, packet] writer with
    | (.error e, writer) => (.error e, writer)
    | (.ok (), writer) => writer.flush

/-- Packets one after the other, up to the first failure. -/
def writePackets : List (List UInt8) → Writer → Except Error Unit × Writer
  | [], writer => (.ok (), writer)
  | packet :: packets, writer =>
    match writePacket writer packet with
    | (.error e, writer) => (.error e, writer)
    | (.ok (), writer) => writePackets packets writer

/-! ## 2. What is written -/

/-- A packet on the wire. -/
def framed (packet : List UInt8) : List UInt8 := bytes 2 packet.length ++ packet

/-- Every write takes something, and every flush succeeds. -/
structure Writer.Works (writer : Writer) : Prop where
  accepts : ∀ i, ∃ n, writer.accepts i = .ok n ∧ 1 ≤ n
  flushes : ∀ i, writer.flushes i = .ok ()

/-- The writer with these bytes written, after some calls. -/
def Writer.after (writer : Writer) (written : List UInt8) (calls : Nat) : Writer :=
  { writer with wire := writer.wire ++ written, calls }

variable {writer : Writer}

theorem Writer.Works.after (h : writer.Works) (written : List UInt8) (calls : Nat) :
    (writer.after written calls).Works := ⟨h.accepts, h.flushes⟩

theorem ne_nil_of_mem_advanceSlices {n : Nat} {slices : List (List UInt8)}
    (h : ∀ slice ∈ slices, slice ≠ []) : ∀ slice ∈ advanceSlices n slices, slice ≠ [] := by
  fun_induction advanceSlices n slices with
  | case1 => exact h
  | case2 n slice slices hle ih => exact ih fun s hs => h s (List.mem_cons_of_mem _ hs)
  | case3 n slice slices hlt =>
    intro s hs
    rcases List.mem_cons.mp hs with rfl | hs
    · rw [ne_eq, List.drop_eq_nil_iff]
      exact hlt
    · exact h s (List.mem_cons_of_mem _ hs)

/-- A turn of the loop in which something is taken. -/
theorem writeSlices_turn {pending : List (List UInt8)} {writer' : Writer} {n : Nat}
    (hpending : pending ≠ []) (hwrite : writer.writeVectored pending = (.ok n, writer'))
    (hn : n ≠ 0) : writeSlices pending writer = writeSlices (advanceSlices n pending) writer' := by
  rw [writeSlices, if_neg (by simpa using hpending)]
  split
  · rename_i heq
    rw [hwrite] at heq
    cases heq
  · rename_i heq
    rw [hwrite] at heq
    cases heq
    rw [dif_neg hn]

/-- **The loop writes what is pending**, however it is cut: every turn takes at least one byte, and
    what it takes is dropped. -/
theorem writeSlices_works {pending : List (List UInt8)} (hw : writer.Works)
    (hne : ∀ slice ∈ pending, slice ≠ []) :
    ∃ calls, writeSlices pending writer = (.ok (), writer.after pending.flatten calls) := by
  induction hlen : pending.flatten.length using Nat.strong_induction_on
    generalizing pending writer with
  | _ len ih =>
    cases pending with
    | nil =>
      refine ⟨writer.calls, ?_⟩
      rw [writeSlices]
      simp [Writer.after]
    | cons slice slices =>
      obtain ⟨n, hn, hpos⟩ := hw.accepts writer.calls
      have htotal : 0 < (slice :: slices).flatten.length := by
        have hslice := List.length_pos_of_ne_nil (hne slice List.mem_cons_self)
        rw [List.flatten_cons, List.length_append]
        omega
      have hwrite : writer.writeVectored (slice :: slices) =
          (.ok (min n (slice :: slices).flatten.length),
            writer.after ((slice :: slices).flatten.take
              (min n (slice :: slices).flatten.length)) (writer.calls + 1)) := by
        rw [Writer.writeVectored, hn]
        rfl
      generalize hk : min n (slice :: slices).flatten.length = k at hwrite
      have hkpos : k ≠ 0 := by omega
      rw [writeSlices_turn (List.cons_ne_nil _ _) hwrite hkpos]
      obtain ⟨calls, hrest⟩ := ih (advanceSlices k (slice :: slices)).flatten.length
        (by rw [flatten_advanceSlices, List.length_drop]; omega) (hw.after _ _)
        (ne_nil_of_mem_advanceSlices hne) rfl
      refine ⟨calls, ?_⟩
      rw [hrest, flatten_advanceSlices]
      simp only [Writer.after, List.append_assoc, List.take_append_drop]

variable {packet : List UInt8}

theorem writePacket_works (hw : writer.Works) (hfits : Fits packet) :
    ∃ calls, writePacket writer packet = (.ok (), writer.after (framed packet) calls) := by
  have hne : ∀ slice ∈ [bytes 2 packet.length, packet], slice ≠ [] := by
    intro slice hslice
    apply List.ne_nil_of_length_pos
    rcases List.mem_pair.mp hslice with rfl | rfl
    · rw [length_bytes]
      decide
    · exact lt_of_lt_of_le (by decide) hfits.1
  obtain ⟨calls, hloop⟩ := writeSlices_works hw hne
  have hflat : [bytes 2 packet.length, packet].flatten = framed packet := by simp [framed]
  rw [hflat] at hloop
  refine ⟨calls, ?_⟩
  rw [writePacket, if_neg (not_not.mpr hfits), hloop]
  show (writer.flushes calls, _) = _
  rw [hw.flushes]

/-- A packet of another length is refused, and nothing happens on the wire. -/
theorem writePacket_refuses (writer : Writer) (h : ¬ Fits packet) :
    writePacket writer packet =
      (.error (.io .invalidInput "invalid ICMP Echo packet length"), writer) := if_pos h

theorem writePackets_works {packets : List (List UInt8)} (hfits : ∀ packet ∈ packets, Fits packet)
    (hw : writer.Works) :
    ∃ calls, writePackets packets writer =
      (.ok (), writer.after (packets.flatMap framed) calls) := by
  induction packets generalizing writer with
  | nil => exact ⟨writer.calls, by simp [writePackets, Writer.after]⟩
  | cons packet packets ih =>
    obtain ⟨calls, hfirst⟩ := writePacket_works hw (hfits packet List.mem_cons_self)
    obtain ⟨calls', hrest⟩ := ih (fun p hp => hfits p (List.mem_cons_of_mem _ hp))
      (hw.after (framed packet) calls)
    refine ⟨calls', ?_⟩
    rw [writePackets, hfirst]
    show writePackets packets _ = _
    rw [hrest]
    simp [Writer.after]

/-! ## 3. Reading -/

/-- `Vec::resize` with zeros. -/
def resize (buffer : List UInt8) (length : Nat) : List UInt8 :=
  buffer.take length ++ List.replicate (length - buffer.length) 0

/-- The buffer with `part` in it behind the first `filled` bytes. -/
def overwrite (buffer : List UInt8) (filled : Nat) (part : List UInt8) : List UInt8 :=
  buffer.take filled ++ part ++ buffer.drop (filled + part.length)

/-- `AsyncReadExt::read_exact` into a buffer whose first `filled` bytes have been read: each read
    gives what is left of a piece, or as much as the buffer takes. -/
def readInto (buffer : List UInt8) (filled : Nat) : PieceDecoder UInt8 Error (List UInt8)
  | [] => if buffer.length ≤ filled then .ok (buffer, []) else .error (.ofKind .unexpectedEof)
  | piece :: pieces =>
    if buffer.length ≤ filled then .ok (buffer, piece :: pieces)
    else if h : buffer.length - filled < piece.items.length then
      .ok (overwrite buffer filled (piece.items.take (buffer.length - filled)),
        ⟨piece.items.drop (buffer.length - filled), by simpa using h⟩ :: pieces)
    else
      readInto (overwrite buffer filled piece.items) (filled + piece.items.length) pieces

def readPacket (buffer : List UInt8) : PieceDecoder UInt8 Error (List UInt8) := do
  let length ← asyncReadField 2
  if length < 8 then throw (.io .invalidData "invalid ICMP Echo packet length")
  readInto (resize buffer length) 0

/-- Calls one after the other. Between two of them the caller may do anything to the buffer. -/
def readPackets : List (List UInt8) → PieceDecoder UInt8 Error (List (List UInt8))
  | [] => pure []
  | buffer :: buffers => do
      let packet ← readPacket buffer
      let packets ← readPackets buffers
      pure (packet :: packets)

theorem length_resize (buffer : List UInt8) (length : Nat) :
    (resize buffer length).length = length := by
  rw [resize, List.length_append, List.length_take, List.length_replicate]
  omega

variable {buffer : List UInt8} {filled : Nat}

theorem length_overwrite {part : List UInt8} (h : filled + part.length ≤ buffer.length) :
    (overwrite buffer filled part).length = buffer.length := by
  simp only [overwrite, List.length_append, List.length_take, List.length_drop]
  omega

theorem take_overwrite {part : List UInt8} (h : filled + part.length ≤ buffer.length) :
    (overwrite buffer filled part).take (filled + part.length) = buffer.take filled ++ part := by
  refine List.take_left' ?_
  rw [List.length_append, List.length_take]
  omega

variable {pieces : List (Piece UInt8)}

/-- A read that a piece has enough for. -/
theorem gather_of_lt {e : Error} {n : Nat} {piece : Piece UInt8} (hn : 0 < n)
    (h : n < piece.items.length) :
    gather e n (piece :: pieces) =
      .ok (piece.items.take n, ⟨piece.items.drop n, by simpa using h⟩ :: pieces) := by
  obtain ⟨n, rfl⟩ := Nat.exists_eq_succ_of_ne_zero hn.ne'
  rw [gather, dif_pos h]

/-- A read that takes all of a piece. -/
theorem gather_of_le {e : Error} {n : Nat} {piece : Piece UInt8} (hn : 0 < n)
    (h : piece.items.length ≤ n) :
    gather e n (piece :: pieces) =
      (gather e (n - piece.items.length) pieces).map fun out => (piece.items ++ out.1, out.2) := by
  obtain ⟨n, rfl⟩ := Nat.exists_eq_succ_of_ne_zero hn.ne'
  rw [gather, dif_neg (Nat.not_lt.mpr h)]
  cases gather e (n + 1 - piece.items.length) pieces <;> rfl

/-- A full buffer needs no read. -/
theorem ok_eq_gather (h : buffer.length ≤ filled) (pieces : List (Piece UInt8)) :
    .ok (buffer, pieces) =
      (gather (Error.ofKind .unexpectedEof) (buffer.length - filled) pieces).map
        fun out => (buffer.take filled ++ out.1, out.2) := by
  rw [Nat.sub_eq_zero_of_le h, List.take_of_length_le h]
  simp [gather, Except.map]

/-- **What was in the buffer does not matter**: the reads give the bytes that are gathered from the
    pieces, behind those that were read before. -/
theorem readInto_eq_gather (h : filled ≤ buffer.length) (pieces : List (Piece UInt8)) :
    readInto buffer filled pieces =
      (gather (Error.ofKind .unexpectedEof) (buffer.length - filled) pieces).map
        fun out => (buffer.take filled ++ out.1, out.2) := by
  induction pieces generalizing buffer filled with
  | nil =>
    unfold readInto
    split
    · rename_i hle
      exact ok_eq_gather hle []
    · rename_i hlt
      obtain ⟨n, hn⟩ := Nat.exists_eq_succ_of_ne_zero (n := buffer.length - filled) (by omega)
      rw [hn]
      rfl
  | cons piece pieces ih =>
    unfold readInto
    split
    · rename_i hle
      exact ok_eq_gather hle (piece :: pieces)
    split
    · rename_i hlt hpiece
      have hpart : (piece.items.take (buffer.length - filled)).length = buffer.length - filled :=
        List.length_take_of_le hpiece.le
      rw [gather_of_lt (by omega) hpiece, overwrite, hpart, Nat.add_sub_cancel' h,
        List.drop_length, List.append_nil]
      rfl
    · rename_i hlt hpiece
      have hroom : filled + piece.items.length ≤ buffer.length := by omega
      have hlength := length_overwrite hroom
      rw [gather_of_le (by omega) (by omega), ih (by omega), hlength, take_overwrite hroom,
        Nat.sub_sub]
      cases gather (Error.ofKind .unexpectedEof)
        (buffer.length - (filled + piece.items.length)) pieces with
      | error e => rfl
      | ok out => simp [Except.map]

theorem readInto_zero (buffer : List UInt8) (pieces : List (Piece UInt8)) :
    readInto buffer 0 pieces = asyncReadExact buffer.length pieces := by
  rw [readInto_eq_gather (Nat.zero_le _), Nat.sub_zero, asyncReadExact]
  cases gather (Error.ofKind .unexpectedEof) buffer.length pieces with
  | error e => rfl
  | ok out => rfl

/-- Reading a packet, on the bytes. -/
def packetDecoder : Decoder UInt8 Error (List UInt8) := do
  let length ← readField 2
  if length < 8 then throw (.io .invalidData "invalid ICMP Echo packet length")
  readExact length

/-- Whatever the buffer was, reading a packet from the pieces is reading it from the bytes. -/
theorem readPacket_agrees (buffer : List UInt8) :
    PieceDecoder.Agrees (readPacket buffer) packetDecoder := by
  refine (agrees_readField 2).bind fun length => ?_
  by_cases hshort : length < 8
  · simp only [if_pos hshort]
    exact .throw _ _
  · simp only [if_neg hshort]
    have hread : readInto (resize buffer length) 0 = asyncReadExact length := by
      funext pieces
      rw [readInto_zero, length_resize]
    rw [hread]
    exact agrees_readExact length

theorem packetDecoder_reads (hfits : Fits packet) :
    Decoder.Reads packetDecoder (framed packet) packet := by
  have hlength : value (bytes 2 packet.length) = packet.length :=
    value_bytes_of_lt (lt_of_le_of_lt hfits.2 (by decide))
  have hfield : Decoder.Reads (readField 2) (bytes 2 packet.length) packet.length := by
    have hexact : Decoder.Reads (readExact 2) (bytes 2 packet.length) (bytes 2 packet.length) :=
      Decoder.Reads.take (length_bytes 2 _)
    intro rest
    rw [readField, Decoder.bind_of_ok (hexact rest), hlength]
    rfl
  refine hfield.bind ?_
  rw [if_neg (Nat.not_lt.mpr hfits.1)]
  exact Decoder.Reads.take rfl

/-- A packet in any pieces, and any buffer. -/
theorem readPacket_framed (hfits : Fits packet) (buffer : List UInt8) {rest : List UInt8}
    (hpieces : joined pieces = framed packet ++ rest) :
    ∃ pieces', readPacket buffer pieces = .ok (packet, pieces') ∧ joined pieces' = rest := by
  refine (readPacket_agrees buffer).complete ?_
  rw [hpieces]
  exact packetDecoder_reads hfits rest

/-- **The calls give the packets back**, in order. -/
theorem readPackets_framed {packets buffers : List (List UInt8)}
    (hfits : ∀ packet ∈ packets, Fits packet) (hbuffers : buffers.length = packets.length)
    {rest : List UInt8} (hpieces : joined pieces = packets.flatMap framed ++ rest) :
    ∃ pieces', readPackets buffers pieces = .ok (packets, pieces') ∧ joined pieces' = rest := by
  induction packets generalizing buffers pieces with
  | nil =>
    obtain rfl := List.length_eq_zero_iff.mp hbuffers
    exact ⟨pieces, rfl, hpieces⟩
  | cons packet packets ih =>
    obtain ⟨buffer, buffers, rfl⟩ := List.exists_cons_of_length_eq_add_one hbuffers
    rw [List.flatMap_cons, List.append_assoc] at hpieces
    obtain ⟨pieces₁, hfirst, hjoined⟩ :=
      readPacket_framed (hfits packet List.mem_cons_self) buffer hpieces
    obtain ⟨pieces₂, hothers, hrest⟩ := ih (fun p hp => hfits p (List.mem_cons_of_mem _ hp))
      (Nat.succ.inj hbuffers) hjoined
    refine ⟨pieces₂, ?_, hrest⟩
    exact PieceDecoder.bind_ok.mpr ⟨packet, pieces₁, hfirst,
      PieceDecoder.bind_ok.mpr ⟨packets, pieces₂, hothers, rfl⟩⟩

/-! ## 4. Both ends -/

/-- **Packets go through.** Whatever part of the slices each write takes, the wire gets the packets
    with their lengths, each byte once; whatever the pieces are in which these bytes arrive, and
    whatever is in the buffers, the reader gives back the packets in order. A packet of another
    length is refused with nothing written. -/
theorem packets_framed (packets : List (List UInt8)) (hfits : ∀ packet ∈ packets, Fits packet)
    (writer : Writer) (hw : writer.Works) :
    ((writePackets packets writer).1 = .ok () ∧
      (writePackets packets writer).2.wire = writer.wire ++ packets.flatMap framed) ∧
    (∀ (buffers : List (List UInt8)) (pieces : List (Piece UInt8)) (rest : List UInt8),
      buffers.length = packets.length → joined pieces = packets.flatMap framed ++ rest →
      ∃ pieces', readPackets buffers pieces = .ok (packets, pieces') ∧ joined pieces' = rest) ∧
    ∀ (writer : Writer) (packet : List UInt8), ¬ Fits packet →
      writePacket writer packet =
        (.error (.io .invalidInput "invalid ICMP Echo packet length"), writer) := by
  obtain ⟨calls, hwritten⟩ := writePackets_works hfits hw
  refine ⟨?_, fun buffers pieces rest hbuffers hpieces => ?_, fun writer packet => ?_⟩
  · rw [hwritten]
    exact ⟨rfl, rfl⟩
  · exact readPackets_framed hfits hbuffers hpieces
  · exact writePacket_refuses writer

section Sample

/-- Takes three bytes at a time. -/
def threeBytes : Writer := ⟨[], 0, fun _ => .ok 3, fun _ => .ok ()⟩

theorem threeBytes_works : threeBytes.Works := ⟨fun _ => ⟨3, rfl, by decide⟩, fun _ => rfl⟩

/-- A packet of eight bytes and one of nine. -/
def twoPackets : List (List UInt8) := [[8, 0, 0, 0, 0, 1, 0, 1], [8, 0, 0, 0, 0, 1, 0, 2, 7]]

theorem twoPackets_fit : ∀ packet ∈ twoPackets, Fits packet := by decide

theorem sample_packets_framed :
    (∀ packet ∈ twoPackets, Fits packet) ∧ threeBytes.Works ∧
      (writePackets twoPackets threeBytes).2.wire =
        [0, 8, 8, 0, 0, 0, 0, 1, 0, 1, 0, 9, 8, 0, 0, 0, 0, 1, 0, 2, 7] :=
  ⟨twoPackets_fit, threeBytes_works,
    (packets_framed twoPackets twoPackets_fit threeBytes threeBytes_works).1.2⟩

end Sample

end Tun2Proxy.Icmp
