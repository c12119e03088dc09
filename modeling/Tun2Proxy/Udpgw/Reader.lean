/-
  File:      Tun2Proxy/Udpgw/Reader.lean
  Subject:   The cancellation-safe frame reader of the udpgw client (src/udpgw.rs).

  `recv_udpgw_packet_csafe` keeps a partial frame in `acc`, a buffer of its caller, and awaits
  nothing but a plain read of the socket. A call may be dropped at that await and made again with
  the same `acc`. The socket is a list of events: a chunk arrives, or the call that waits is
  dropped; after the last one the stream is closed or silent. The time limit of a read is not
  modelled: a call on a silent stream waits for good.

  However the stream is cut into chunks and wherever calls are dropped, the calls return the
  frames that reading the stream frame by frame gives (`csafe_reads_frames`).
-/
import Tun2Proxy.Udpgw.Packet

namespace Tun2Proxy

open BigEndian Decoder Packet

/-! ## 1. The reader -/

inductive UdpGwResponse where
  | keepAlive
  | error
  | tcpClose
  | data (packet : Packet)
  deriving DecidableEq, Repr

def parseUdpResponse (udpMtu : UInt16) (packet : Packet) : Except Error UdpGwResponse :=
  let flags := packet.header.flags
  if flags &&& .ERR = .ERR then .ok .error
  else if flags &&& .KEEPALIVE = .KEEPALIVE then .ok .keepAlive
  else if flags &&& .CLOSE = .CLOSE then .ok .tcpClose
  else if udpMtu.toNat < packet.data.length then .error (.string "too much data")
  else .ok (.data packet)

/-- A packet is taken for data if no other flag is set. -/
theorem parseUdpResponse_data {udpMtu : UInt16} {p q : Packet}
    (h : parseUdpResponse udpMtu p = .ok (.data q)) :
    q = p ∧ p.header.flags &&& .ERR ≠ .ERR ∧ p.header.flags &&& .KEEPALIVE ≠ .KEEPALIVE := by
  simp only [parseUdpResponse] at h
  split_ifs at h with herr hkeep hclose hlong
  all_goals cases h
  exact ⟨rfl, herr, hkeep⟩

/-- What one read of the socket delivers into the buffer of the reader. -/
structure Chunk where
  bytes : List UInt8
  nonempty : bytes ≠ []
  fits : bytes.length ≤ 8192

/-- What happens to a call that waits for the socket: a chunk arrives, or it is dropped. -/
inductive ReadEvent where
  | chunk (c : Chunk)
  | cancel

/-- The bytes the socket delivers. -/
def delivered (events : List ReadEvent) : List UInt8 :=
  events.flatMap fun
    | .chunk c => c.bytes
    | .cancel => []

/-- How a call ends: it returns, it is dropped, or it waits for good. -/
inductive Call where
  | returned (result : Except Error (Nat × UdpGwResponse)) (acc : List UInt8)
      (events : List ReadEvent)
  | cancelled (acc : List UInt8) (events : List ReadEvent)
  | pending (acc : List UInt8)

section Codec

variable (codec : AddressCodec) (udpMtu : UInt16)

/-- The branch of the loop for a whole frame: the result of the call, and `acc` after it. -/
def takeFrame (length : Nat) (acc : List UInt8) :
    Except Error (Nat × UdpGwResponse) × List UInt8 :=
  let total := length + UDPGW_LENGTH_FIELD_SIZE
  match retrieveHead codec ((acc.take total).drop UDPGW_LENGTH_FIELD_SIZE) with
  | .error e => (.error e, acc)
  | .ok ((header, address), cur) =>
    let readLen := readLen codec header address
    if length < readLen then (.error (.ofKind .invalidData), acc)
    else
      -- the position of the cursor, which spans the length field too
      let dataStart := total - cur.length
      let data := (acc.take total).drop dataStart
      let full := UDPGW_LENGTH_FIELD_SIZE + readLen + data.length
      match parseUdpResponse udpMtu ⟨header, address, data⟩ with
      | .error e => (.error e, acc.drop total)
      | .ok response => (.ok (full, response), acc.drop total)

/-- The loop up to its read: the call returns, or (`none`) it goes on to read. -/
def tryAcc (acc : List UInt8) : Option (Except Error (Nat × UdpGwResponse) × List UInt8) :=
  if UDPGW_LENGTH_FIELD_SIZE ≤ acc.length then
    let length := value (acc.take UDPGW_LENGTH_FIELD_SIZE)
    if 3 ≤ length ∧ length + UDPGW_LENGTH_FIELD_SIZE ≤ acc.length then
      some (takeFrame codec udpMtu length acc)
    else if length < 3 then some (.error (.ofKind .invalidData), acc)
    else none
  else none

/-- `recv_udpgw_packet_csafe` on a socket with these events, which is then closed or silent. -/
def recvUdpgwPacketCsafe (closed : Bool) (acc : List UInt8) (events : List ReadEvent) : Call :=
  match tryAcc codec udpMtu acc with
  | some (result, acc) => .returned result acc events
  | none =>
    match events with
    | [] => if closed then .returned (.error (.ofKind .unexpectedEof)) acc [] else .pending acc
    | .cancel :: events => .cancelled acc events
    | .chunk c :: events => recvUdpgwPacketCsafe closed (acc ++ c.bytes) events

theorem append_delivered_nil (acc : List UInt8) : acc ++ delivered [] = acc := List.append_nil acc

theorem delivered_append (events events' : List ReadEvent) :
    delivered (events ++ events') = delivered events ++ delivered events' := List.flatMap_append

/-- **How a call ends.** It takes chunks until `acc` decides; it returns there, or waits for good
    at the end of the events, or is dropped. -/
theorem recvUdpgwPacketCsafe_cases (closed : Bool) (events : List ReadEvent) : ∀ acc,
    ∃ taken rest, events = taken ++ rest ∧
      ((∃ result acc', tryAcc codec udpMtu (acc ++ delivered taken) = some (result, acc') ∧
          recvUdpgwPacketCsafe codec udpMtu closed acc events = .returned result acc' rest) ∨
        (tryAcc codec udpMtu (acc ++ delivered taken) = none ∧ rest = [] ∧
          recvUdpgwPacketCsafe codec udpMtu closed acc events =
            if closed then .returned (.error (.ofKind .unexpectedEof)) (acc ++ delivered taken) []
            else .pending (acc ++ delivered taken)) ∨
        ∃ rest', tryAcc codec udpMtu (acc ++ delivered taken) = none ∧ rest = .cancel :: rest' ∧
          recvUdpgwPacketCsafe codec udpMtu closed acc events =
            .cancelled (acc ++ delivered taken) rest') := by
  induction events with
  | nil =>
    intro acc
    refine ⟨[], [], rfl, ?_⟩
    rw [append_delivered_nil]
    unfold recvUdpgwPacketCsafe
    cases h : tryAcc codec udpMtu acc with
    | some r => exact Or.inl ⟨r.1, r.2, rfl, rfl⟩
    | none => exact Or.inr (Or.inl ⟨rfl, rfl, rfl⟩)
  | cons e events ih =>
    intro acc
    cases h : tryAcc codec udpMtu acc with
    | some r =>
      refine ⟨[], e :: events, rfl, Or.inl ⟨r.1, r.2, by rwa [append_delivered_nil], ?_⟩⟩
      unfold recvUdpgwPacketCsafe
      rw [h]
    | none =>
      have hstep : recvUdpgwPacketCsafe codec udpMtu closed acc (e :: events) =
          match e with
          | .cancel => .cancelled acc events
          | .chunk c => recvUdpgwPacketCsafe codec udpMtu closed (acc ++ c.bytes) events := by
        cases e <;> simp only [recvUdpgwPacketCsafe, h]
      rw [hstep]
      cases e with
      | cancel =>
        exact ⟨[], .cancel :: events, rfl, Or.inr (Or.inr ⟨events, by rwa [append_delivered_nil],
          rfl, by rw [append_delivered_nil]⟩)⟩
      | chunk c =>
        obtain ⟨taken, rest, rfl, hres⟩ := ih (acc ++ c.bytes)
        refine ⟨.chunk c :: taken, rest, rfl, ?_⟩
        rw [show acc ++ delivered (.chunk c :: taken) = acc ++ c.bytes ++ delivered taken from
          (List.append_assoc ..).symm]
        exact hres

variable {codec udpMtu}

/-- How much is left to do: the bytes in hand and to come, and the events. -/
def workLeft (acc : List UInt8) (events : List ReadEvent) : Nat :=
  acc.length + (delivered events).length + events.length

theorem workLeft_taken (acc : List UInt8) (taken rest : List ReadEvent) :
    workLeft (acc ++ delivered taken) rest ≤ workLeft acc (taken ++ rest) := by
  unfold workLeft
  rw [delivered_append]
  simp only [List.length_append]
  omega

variable {acc : List UInt8}

theorem takeFrame_acc {length : Nat} {acc' : List UInt8} {r : Nat × UdpGwResponse}
    (h : takeFrame codec udpMtu length acc = (.ok r, acc')) :
    acc' = acc.drop (length + UDPGW_LENGTH_FIELD_SIZE) := by
  unfold takeFrame at h
  simp only at h
  split at h
  · cases h
  · split at h
    · cases h
    · split at h
      · cases h
      · cases h
        rfl

/-- A frame that is returned is taken off `acc`. -/
theorem tryAcc_shorter {acc' : List UInt8} {r : Nat × UdpGwResponse}
    (h : tryAcc codec udpMtu acc = some (.ok r, acc')) : acc'.length < acc.length := by
  unfold tryAcc at h
  split at h
  · simp only at h
    split at h
    · rename_i hwhole
      rw [takeFrame_acc (Option.some.inj h), List.length_drop]
      omega
    · split at h <;> cases h
  · cases h

/-- A call that returned a frame, or was dropped, leaves less to do. -/
theorem recvUdpgwPacketCsafe_workLeft {closed : Bool} {acc' : List UInt8}
    {events events' : List ReadEvent}
    (h : (∃ r, recvUdpgwPacketCsafe codec udpMtu closed acc events =
        .returned (.ok r) acc' events') ∨
      recvUdpgwPacketCsafe codec udpMtu closed acc events = .cancelled acc' events') :
    workLeft acc' events' < workLeft acc events := by
  obtain ⟨taken, rest, rfl, hres⟩ :=
    recvUdpgwPacketCsafe_cases codec udpMtu closed events acc
  have hle := workLeft_taken acc taken rest
  rcases hres with ⟨result, acc₁, htry, hrecv⟩ | ⟨-, rfl, hrecv⟩ | ⟨rest', -, rfl, hrecv⟩
  · rcases h with ⟨r, h⟩ | h
    · cases hrecv.symm.trans h
      have hlt := tryAcc_shorter htry
      unfold workLeft at hle ⊢
      omega
    · cases hrecv.symm.trans h
  · cases closed <;> rcases h with ⟨r, h⟩ | h <;> cases hrecv.symm.trans h
  · rcases h with ⟨r, h⟩ | h
    · cases hrecv.symm.trans h
    · obtain ⟨rfl, rfl⟩ := Call.cancelled.inj (hrecv.symm.trans h)
      unfold workLeft at hle ⊢
      rw [List.length_cons, show delivered (.cancel :: rest') = delivered rest' from rfl] at hle
      omega

variable (codec udpMtu)

/-- The calls made one after the other until the first error: what they return, and the error. -/
def session (closed : Bool) (acc : List UInt8) (events : List ReadEvent) :
    List (Nat × UdpGwResponse) × Option Error :=
  match _hcall : recvUdpgwPacketCsafe codec udpMtu closed acc events with
  | .returned (.ok r) acc events =>
    let (rs, e) := session closed acc events
    (r :: rs, e)
  | .returned (.error e) _ _ => ([], some e)
  | .cancelled acc events => session closed acc events
  | .pending _ => ([], none)
termination_by workLeft acc events
decreasing_by
  · exact recvUdpgwPacketCsafe_workLeft (Or.inl ⟨_, _hcall⟩)
  · exact recvUdpgwPacketCsafe_workLeft (Or.inr _hcall)

variable {codec udpMtu}

/-! ## 2. Frames of a stream -/

variable {rest : List UInt8}

/-- The shared part of the readers consumes exactly the header and the address. -/
theorem retrieveHead_framed (hc : codec.Framed) {input : List UInt8} {header : UdpgwHeader}
    {address : Option Address} (h : retrieveHead codec input = .ok ((header, address), rest)) :
    ∃ used, input = used ++ rest ∧ used.length = readLen codec header address ∧
      Reads (retrieveHead codec) used (header, address) := by
  obtain ⟨header', afterHeader, hheader, hrest⟩ := bind_ok.mp h
  obtain rfl := UdpgwHeader.retrieveFromStream_ok.mp hheader
  have hreads : Reads UdpgwHeader.retrieveFromStream header'.writeToBuf header' :=
    fun _ => UdpgwHeader.retrieveFromStream_ok.mpr rfl
  by_cases hflag : header'.flags &&& .DATA = .DATA
  · rw [if_pos hflag] at hrest
    obtain ⟨addr, afterAddr, haddr, hpure⟩ := bind_ok.mp hrest
    obtain ⟨used, rfl, hlen, hused⟩ := hc haddr
    cases hpure
    refine ⟨header.writeToBuf ++ used, (List.append_assoc ..).symm, ?_, hreads.bind ?_⟩
    · rw [List.length_append, header.length_writeToBuf, hlen]
      rfl
    · intro rest'
      rw [if_pos hflag]
      exact bind_ok.mpr ⟨addr, rest', hused rest', rfl⟩
  · rw [if_neg hflag] at hrest
    cases hrest
    refine ⟨header.writeToBuf, rfl, header.length_writeToBuf, ?_⟩
    intro rest'
    refine bind_ok.mpr ⟨header, rest', hreads rest', ?_⟩
    rw [if_neg hflag]
    rfl

/-- **`retrieve_from_stream` reads a frame**: the length field, and a frame of that length that
    starts with the header and the address. -/
theorem retrieveFromStream_ok (hc : codec.Framed) {input : List UInt8} {p : Packet} :
    retrieveFromStream codec input = .ok (p, rest) ↔
      ∃ field frame, input = field ++ (frame ++ rest) ∧ field.length = UDPGW_LENGTH_FIELD_SIZE ∧
        frame.length = value field ∧
        retrieveHead codec frame = .ok ((p.header, p.address), p.data) := by
  unfold retrieveFromStream
  rw [bind_ok]
  constructor
  · rintro ⟨length, afterField, hfield, h⟩
    obtain ⟨hlt, rfl⟩ := readField_ok.mp hfield
    obtain ⟨⟨header, address⟩, afterHead, hhead, hbody⟩ := bind_ok.mp h
    obtain ⟨used, rfl, hused, hreads⟩ := retrieveHead_framed hc hhead
    simp only at hbody
    by_cases hlen : length < readLen codec header address
    · rw [if_pos hlen] at hbody
      cases hbody
    · rw [if_neg hlen] at hbody
      obtain ⟨data, afterData, htake, hpure⟩ := bind_ok.mp hbody
      obtain ⟨rfl, hdlen⟩ := take_ok.mp htake
      cases hpure
      refine ⟨bytes UDPGW_LENGTH_FIELD_SIZE length, used ++ data, ?_, length_bytes _ _, ?_,
        hreads data⟩
      · rw [List.append_assoc]
      · rw [value_bytes_of_lt hlt, List.length_append, hused, hdlen]
        omega
  · rintro ⟨field, frame, rfl, hfield, hframe, hhead⟩
    obtain ⟨used, rfl, hused, hreads⟩ := retrieveHead_framed hc hhead
    have hlen : ¬ value field < readLen codec p.header p.address := by
      rw [← hframe, List.length_append, hused]
      omega
    refine ⟨value field, used ++ p.data ++ rest, readField_ok.mpr ⟨?_, ?_⟩, ?_⟩
    · rw [← hfield]
      exact value_lt field
    · rw [← hfield, bytes_value]
    · refine bind_ok.mpr ⟨(p.header, p.address), p.data ++ rest, ?_, ?_⟩
      · rw [List.append_assoc]
        exact hreads _
      · simp only [if_neg hlen]
        refine bind_ok.mpr ⟨p.data, rest, take_ok.mpr ⟨rfl, ?_⟩, rfl⟩
        rw [← hframe, List.length_append, hused]
        omega

variable {frame : List UInt8}

/-- The packet of a frame is as long as the frame and its length field. -/
theorem len_of_retrieveHead (hc : codec.Framed) {data : List UInt8} {header : UdpgwHeader}
    {address : Option Address} (h : retrieveHead codec frame = .ok ((header, address), data)) :
    UDPGW_LENGTH_FIELD_SIZE + readLen codec header address + data.length =
      UDPGW_LENGTH_FIELD_SIZE + frame.length := by
  obtain ⟨used, rfl, hused, -⟩ := retrieveHead_framed hc h
  rw [List.length_append, hused]
  omega

variable {field : List UInt8}

/-- The branch for a whole frame parses the packet that the frame holds. -/
theorem takeFrame_frame (hc : codec.Framed) (hfield : field.length = UDPGW_LENGTH_FIELD_SIZE)
    (hframe : frame.length = value field) :
    takeFrame codec udpMtu (value field) (field ++ (frame ++ rest)) =
      match retrieveHead codec frame with
      | .error e => (.error e, field ++ (frame ++ rest))
      | .ok ((header, address), data) =>
        match parseUdpResponse udpMtu ⟨header, address, data⟩ with
        | .error e => (.error e, rest)
        | .ok response => (.ok (UDPGW_LENGTH_FIELD_SIZE + frame.length, response), rest) := by
  have hdrop : (field ++ (frame ++ rest)).drop (value field + UDPGW_LENGTH_FIELD_SIZE) = rest := by
    rw [← List.append_assoc]
    exact List.drop_left' (by rw [List.length_append, hfield, hframe, Nat.add_comm])
  have hcur : (field ++ frame).drop UDPGW_LENGTH_FIELD_SIZE = frame := List.drop_left' hfield
  unfold takeFrame
  simp only [take_total hfield hframe, hcur, hdrop]
  cases hhead : retrieveHead codec frame with
  | error e => rfl
  | ok r =>
    obtain ⟨⟨header, address⟩, data⟩ := r
    have hlen := len_of_retrieveHead hc hhead
    obtain ⟨used, rfl, hused, -⟩ := retrieveHead_framed hc hhead
    -- the cursor stands behind the address, so the rest of the frame is the payload
    have hdata : (field ++ (used ++ data)).drop
        (value field + UDPGW_LENGTH_FIELD_SIZE - data.length) = data := by
      rw [← List.append_assoc]
      refine List.drop_left' ?_
      rw [List.length_append] at hframe ⊢
      omega
    have hfits : ¬ value field < readLen codec header address := by
      rw [← hframe, List.length_append]
      omega
    simp only [if_neg hfits, hdata, hlen]

/-! ## 3. What `acc` decides -/

/-- A stream has one first frame. -/
theorem frame_unique {field' frame' rest' : List UInt8}
    (h : field ++ (frame ++ rest) = field' ++ (frame' ++ rest'))
    (hfield : field.length = UDPGW_LENGTH_FIELD_SIZE)
    (hfield' : field'.length = UDPGW_LENGTH_FIELD_SIZE) (hframe : frame.length = value field)
    (hframe' : frame'.length = value field') : field = field' ∧ frame = frame' := by
  obtain ⟨rfl, htail⟩ := List.append_inj h (hfield.trans hfield'.symm)
  exact ⟨rfl, (List.append_inj htail (hframe.trans hframe'.symm)).1⟩

/-- What the loop finds in `acc`, said about the stream that `acc` is the beginning of: a frame
    and its response; no frame that could be returned; or no whole frame yet. -/
inductive Found (codec : AddressCodec) (udpMtu : UInt16) (acc : List UInt8) :
    Option (Except Error (Nat × UdpGwResponse) × List UInt8) → Prop
  | frame {frame acc' : List UInt8} {p : Packet} {response : UdpGwResponse}
      (hacc : acc = frame ++ acc') (hlen : frame.length = p.len codec)
      (hreads : Reads (retrieveFromStream codec) frame p)
      (hparse : parseUdpResponse udpMtu p = .ok response) :
      Found codec udpMtu acc (some (.ok (p.len codec, response), acc'))
  | broken {e : Error} {acc' : List UInt8}
      (h : ∀ more p rest, retrieveFromStream codec (acc ++ more) = .ok (p, rest) →
        ∃ e, parseUdpResponse udpMtu p = .error e) :
      Found codec udpMtu acc (some (.error e, acc'))
  | partialFrame (h : ∀ p rest, retrieveFromStream codec acc ≠ .ok (p, rest)) :
      Found codec udpMtu acc none

/-- Whatever follows a whole frame, it is the first one of the stream. -/
theorem retrieveHead_of_first (hc : codec.Framed) {more rest' : List UInt8} {p : Packet}
    (hfield : field.length = UDPGW_LENGTH_FIELD_SIZE) (hframe : frame.length = value field)
    (h : retrieveFromStream codec (field ++ (frame ++ rest) ++ more) = .ok (p, rest')) :
    retrieveHead codec frame = .ok ((p.header, p.address), p.data) := by
  obtain ⟨field', frame', he, hfield', hframe', hhead⟩ := (retrieveFromStream_ok hc).mp h
  rw [List.append_assoc, List.append_assoc] at he
  rw [(frame_unique he hfield hfield' hframe hframe').2]
  exact hhead

/-- **A whole frame decides**: it holds a response, or the stream is broken. -/
theorem takeFrame_found (hc : codec.Framed) (hfield : field.length = UDPGW_LENGTH_FIELD_SIZE)
    (hframe : frame.length = value field) :
    Found codec udpMtu (field ++ (frame ++ rest))
      (some (takeFrame codec udpMtu (value field) (field ++ (frame ++ rest)))) := by
  rw [takeFrame_frame hc hfield hframe]
  cases hhead : retrieveHead codec frame with
  | error e =>
    refine .broken fun more p rest' h => ?_
    cases hhead.symm.trans (retrieveHead_of_first hc hfield hframe h)
  | ok r =>
    obtain ⟨⟨header, address⟩, data⟩ := r
    simp only
    cases hparse : parseUdpResponse udpMtu ⟨header, address, data⟩ with
    | error e =>
      refine .broken fun more p rest' h => ⟨e, ?_⟩
      cases hhead.symm.trans (retrieveHead_of_first hc hfield hframe h)
      exact hparse
    | ok response =>
      have hlen : UDPGW_LENGTH_FIELD_SIZE + frame.length =
          len codec ⟨header, address, data⟩ := by
        rw [← len_of_retrieveHead hc hhead, len, readLen]
        simp only
        omega
      simp only [hlen]
      refine .frame (List.append_assoc ..).symm ?_ ?_ hparse
      · rw [← hlen, List.length_append, hfield]
      · intro rest'
        rw [List.append_assoc]
        exact (retrieveFromStream_ok hc).mpr ⟨field, frame, rfl, hfield, hframe, hhead⟩

/-- The length field of a stream that begins with a packet: the header alone has three bytes. -/
theorem length_of_retrieve (hc : codec.Framed) {more : List UInt8} {p : Packet}
    (htwo : UDPGW_LENGTH_FIELD_SIZE ≤ acc.length)
    (h : retrieveFromStream codec (acc ++ more) = .ok (p, rest)) :
    3 ≤ value (acc.take UDPGW_LENGTH_FIELD_SIZE) ∧
      value (acc.take UDPGW_LENGTH_FIELD_SIZE) + UDPGW_LENGTH_FIELD_SIZE ≤
        (acc ++ more).length := by
  obtain ⟨field, frame, he, hfield, hframe, hhead⟩ := (retrieveFromStream_ok hc).mp h
  have htake : acc.take UDPGW_LENGTH_FIELD_SIZE = field := by
    have hacc : (acc ++ more).take UDPGW_LENGTH_FIELD_SIZE = acc.take _ :=
      List.take_append_of_le_length htwo
    rw [← hacc, he]
    exact List.take_left' hfield
  have hlen := len_of_retrieveHead hc hhead
  rw [he, htake, ← hframe]
  simp only [List.length_append, readLen, UdpgwHeader.len, UdpgwHeader.staticLen] at hlen ⊢
  omega

theorem tryAcc_found (hc : codec.Framed) (acc : List UInt8) :
    Found codec udpMtu acc (tryAcc codec udpMtu acc) := by
  unfold tryAcc
  by_cases htwo : UDPGW_LENGTH_FIELD_SIZE ≤ acc.length
  · rw [if_pos htwo]
    simp only
    by_cases hwhole : 3 ≤ value (acc.take UDPGW_LENGTH_FIELD_SIZE) ∧
        value (acc.take UDPGW_LENGTH_FIELD_SIZE) + UDPGW_LENGTH_FIELD_SIZE ≤ acc.length
    · rw [if_pos hwhole]
      obtain ⟨field, frame, rest, rfl, hfield, hframe⟩ := exists_frame htwo hwhole.2
      rw [List.take_left' hfield]
      exact takeFrame_found hc hfield hframe
    · rw [if_neg hwhole]
      by_cases hshort : value (acc.take UDPGW_LENGTH_FIELD_SIZE) < 3
      · rw [if_pos hshort]
        refine .broken fun more p rest h => ?_
        exact absurd (length_of_retrieve hc htwo h).1 (Nat.not_le.mpr hshort)
      · rw [if_neg hshort]
        refine .partialFrame fun p rest h => hwhole ?_
        rw [← List.append_nil acc] at h
        have hlen := length_of_retrieve hc htwo h
        rwa [List.append_nil] at hlen
  · rw [if_neg htwo]
    refine .partialFrame fun p rest h => ?_
    obtain ⟨field, frame, rfl, hfield, -⟩ := (retrieveFromStream_ok hc).mp h
    rw [List.length_append] at htwo
    omega

/-- A frame in `acc` is found. -/
theorem tryAcc_of_reads (hc : codec.Framed) {p : Packet} {response : UdpGwResponse}
    (hreads : Reads (retrieveFromStream codec) frame p)
    (hparse : parseUdpResponse udpMtu p = .ok response) :
    tryAcc codec udpMtu (frame ++ rest) = some (.ok (p.len codec, response), rest) := by
  have hfound := @tryAcc_found codec udpMtu hc (frame ++ rest)
  generalize tryAcc codec udpMtu (frame ++ rest) = result at hfound ⊢
  cases hfound with
  | partialFrame h => exact absurd (hreads rest) (h p rest)
  | @frame frame' acc' p' response' hacc hlen hreads' hparse' =>
    -- the two frames are read from the same input
    have heq := hreads rest
    rw [hacc, hreads' acc'] at heq
    cases heq
    cases hparse.symm.trans hparse'
    rfl
  | broken h =>
    obtain ⟨e, he⟩ := h [] p rest ((List.append_nil _).symm ▸ hreads rest)
    cases hparse.symm.trans he

/-! ## 4. The calls and the stream -/

/-- Reading a stream frame by frame, up to the first error: `retrieve_from_stream`, then
    `parse_udp_response`. -/
inductive FrameByFrame (codec : AddressCodec) (udpMtu : UInt16) :
    List UInt8 → List (Nat × UdpGwResponse) → Prop
  | frame {stream rest : List UInt8} {p : Packet} {response : UdpGwResponse}
      {results : List (Nat × UdpGwResponse)}
      (hread : retrieveFromStream codec stream = .ok (p, rest))
      (hparse : parseUdpResponse udpMtu p = .ok response)
      (h : FrameByFrame codec udpMtu rest results) :
      FrameByFrame codec udpMtu stream ((p.len codec, response) :: results)
  | unreadable {stream : List UInt8} {e : Error}
      (hread : retrieveFromStream codec stream = .error e) : FrameByFrame codec udpMtu stream []
  | refused {stream rest : List UInt8} {p : Packet} {e : Error}
      (hread : retrieveFromStream codec stream = .ok (p, rest))
      (hparse : parseUdpResponse udpMtu p = .error e) : FrameByFrame codec udpMtu stream []

theorem FrameByFrame.unique {stream : List UInt8} {rs rs' : List (Nat × UdpGwResponse)}
    (h : FrameByFrame codec udpMtu stream rs) (h' : FrameByFrame codec udpMtu stream rs') :
    rs = rs' := by
  induction h generalizing rs' with
  | frame hread hparse _ ih =>
    cases h' with
    | frame hread' hparse' h' =>
      cases hread.symm.trans hread'
      cases hparse.symm.trans hparse'
      rw [ih h']
    | unreadable hread' => cases hread.symm.trans hread'
    | refused hread' hparse' =>
      cases hread.symm.trans hread'
      cases hparse.symm.trans hparse'
  | unreadable hread =>
    cases h' with
    | frame hread' _ _ => cases hread.symm.trans hread'
    | unreadable | refused => rfl
  | refused hread hparse =>
    cases h' with
    | frame hread' hparse' _ =>
      cases hread.symm.trans hread'
      cases hparse.symm.trans hparse'
    | unreadable | refused => rfl

/-- Nothing is read frame by frame from a stream whose first frame is refused or not there. -/
theorem frameByFrame_nil {stream : List UInt8}
    (h : ∀ p rest, retrieveFromStream codec stream = .ok (p, rest) →
      ∃ e, parseUdpResponse udpMtu p = .error e) : FrameByFrame codec udpMtu stream [] := by
  cases hread : retrieveFromStream codec stream with
  | error e => exact .unreadable hread
  | ok r =>
    obtain ⟨e, he⟩ := h r.1 r.2 hread
    exact .refused hread he

/-- **What a call that returned tells about the stream.** A success returned its first frame and
    left the bytes after it; at an error nothing more can be read. -/
theorem recvUdpgwPacketCsafe_spec (hc : codec.Framed) {closed : Bool} {events : List ReadEvent}
    {call : Call} : recvUdpgwPacketCsafe codec udpMtu closed acc events = call →
    match call with
    | .returned (.ok (n, response)) acc' events' =>
      ∃ taken frame p, events = taken ++ events' ∧ acc ++ delivered taken = frame ++ acc' ∧
        frame.length = n ∧ p.len codec = n ∧ Reads (retrieveFromStream codec) frame p ∧
        parseUdpResponse udpMtu p = .ok response
    | .returned (.error _) _ _ => FrameByFrame codec udpMtu (acc ++ delivered events) []
    | .cancelled acc' events' => acc' ++ delivered events' = acc ++ delivered events
    | .pending _ => closed = false ∧ FrameByFrame codec udpMtu (acc ++ delivered events) [] := by
  rintro rfl
  obtain ⟨taken, rest, rfl, hres⟩ := recvUdpgwPacketCsafe_cases codec udpMtu closed events acc
  have hstream : acc ++ delivered (taken ++ rest) = acc ++ delivered taken ++ delivered rest := by
    rw [delivered_append, List.append_assoc]
  have hfound : Found codec udpMtu (acc ++ delivered taken) _ := tryAcc_found hc _
  rcases hres with ⟨result, acc', htry, hrecv⟩ | ⟨htry, rfl, hrecv⟩ | ⟨rest', htry, rfl, hrecv⟩
  · rw [htry] at hfound
    rw [hrecv, hstream]
    cases hfound with
    | @frame frame _ p response hacc hlen hreads hparse =>
      exact ⟨taken, frame, p, rfl, hacc, hlen, rfl, hreads, hparse⟩
    | broken h => exact frameByFrame_nil (h (delivered rest))
  · rw [htry] at hfound
    cases hfound with
    | partialFrame h =>
      have hnil : FrameByFrame codec udpMtu (acc ++ delivered (taken ++ [])) [] := by
        rw [List.append_nil]
        exact frameByFrame_nil fun p rest' hread => absurd hread (h p rest')
      rw [hrecv]
      cases closed with
      | true => exact hnil
      | false => exact ⟨rfl, hnil⟩
  · rw [hrecv, hstream]
    rfl

/-- **The calls of a session return the frames of the stream.** -/
theorem session_frameByFrame (hc : codec.Framed) (closed : Bool) (acc : List UInt8)
    (events : List ReadEvent) :
    FrameByFrame codec udpMtu (acc ++ delivered events)
      (session codec udpMtu closed acc events).1 := by
  fun_induction session codec udpMtu closed acc events with
  | case1 acc events r acc' events' hcall rs e he ih =>
    obtain ⟨n, response⟩ := r
    obtain ⟨taken, frame, p, rfl, hacc, -, rfl, hreads, hparse⟩ :=
      recvUdpgwPacketCsafe_spec hc hcall
    rw [he] at ih
    refine .frame ?_ hparse ih
    rw [delivered_append, ← List.append_assoc, hacc, List.append_assoc]
    exact hreads _
  | case2 acc events e acc' events' hcall => exact recvUdpgwPacketCsafe_spec hc hcall
  | case3 acc events acc' events' hcall ih =>
    have hstream : acc' ++ delivered events' = _ := recvUdpgwPacketCsafe_spec hc hcall
    exact hstream ▸ ih
  | case4 acc events acc' hcall => exact (recvUdpgwPacketCsafe_spec hc hcall).2

/-- On a stream that is closed, a session ends with an error. -/
theorem session_closed (hc : codec.Framed) (acc : List UInt8) (events : List ReadEvent) :
    ∃ e, (session codec udpMtu true acc events).2 = some e := by
  fun_induction session codec udpMtu true acc events with
  | case1 acc events r acc' events' hcall rs e he ih =>
    rw [he] at ih
    exact ih
  | case2 acc events e acc' events' hcall => exact ⟨e, rfl⟩
  | case3 acc events acc' events' hcall ih => exact ih
  | case4 acc events acc' hcall => cases (recvUdpgwPacketCsafe_spec hc hcall).1

/-- **The cancellation-safe reader returns the frames of the stream.** For every way the stream is
    cut into chunks and all points where calls are dropped, the completed calls return what
    reading the whole stream frame by frame returns, up to the first error, and on a closed
    stream they come to that error. After a success `acc` holds exactly the received bytes after
    the returned frame. -/
theorem csafe_reads_frames (hc : codec.Framed) (closed : Bool) (events : List ReadEvent) :
    (∀ results, FrameByFrame codec udpMtu (delivered events) results ↔
      results = (session codec udpMtu closed [] events).1) ∧
    (closed = true → ∃ e, (session codec udpMtu closed [] events).2 = some e) ∧
    ∀ acc events n response acc' events',
      recvUdpgwPacketCsafe codec udpMtu closed acc events =
        .returned (.ok (n, response)) acc' events' →
      ∃ taken frame, events = taken ++ events' ∧ acc ++ delivered taken = frame ++ acc' ∧
        frame.length = n := by
  have hsession : FrameByFrame codec udpMtu (delivered events) _ :=
    session_frameByFrame hc closed [] events
  refine ⟨fun results => ⟨fun h => h.unique hsession, fun h => h ▸ hsession⟩, ?_, ?_⟩
  · rintro rfl
    exact session_closed hc [] events
  · intro acc events n response acc' events' hcall
    obtain ⟨taken, frame, p, htaken, hacc, hlen, -⟩ := recvUdpgwPacketCsafe_spec hc hcall
    exact ⟨taken, frame, htaken, hacc, hlen⟩

end Codec

/-- A keep-alive frame that arrives in two chunks, with a call dropped between them. -/
def splitKeepAlive : List ReadEvent :=
  [.chunk ⟨[0, 3, 1], by decide, by decide⟩, .cancel, .chunk ⟨[0, 8], by decide, by decide⟩]

/-- The two chunks give the one frame of the stream. -/
theorem sample_csafe_reads_frames :
    (session socks5Address 1500 true [] splitKeepAlive).1 = [(5, .keepAlive)] := by
  have hframes : FrameByFrame socks5Address 1500 (delivered splitKeepAlive) [(5, .keepAlive)] :=
    .frame (p := ⟨⟨.KEEPALIVE, 8⟩, none, []⟩) ((retrieveFromStream_ok
      socks5Address_roundTrips.framed).mpr ⟨[0, 3], [1, 0, 8], rfl, rfl, by decide, rfl⟩) rfl
        (.unreadable rfl)
  exact (((csafe_reads_frames socks5Address_roundTrips.framed true splitKeepAlive).1 _).mp
    hframes).symm

end Tun2Proxy
