/-
  File:      Tun2Proxy/Dns/Wire.lean
  Subject:   DNS messages as bytes, as hickory reads and writes them.

  The model takes hickory as a parameter. `wireNames` is hickory on messages that consist of
  questions and of A, AAAA and CNAME records; it refuses messages with other records. A name may
  end in a pointer to an earlier one, and is written that way where it can be.
-/
import Tun2Proxy.Dns.Cname

namespace Tun2Proxy

open BigEndian

/-! ## 1. Names -/

/-- A name in wire form: its labels, of one to 63 bytes each, and at most 255 bytes with the length
    bytes and the root. -/
structure WireName where
  labels : List (List UInt8)
  labelSizes : ∀ label ∈ labels, 1 ≤ label.length ∧ label.length ≤ 63
  size : (labels.map fun label => label.length + 1).sum + 1 ≤ 255
  deriving DecidableEq

namespace WireName

/-- Bytes that `to_ascii` writes as they are. -/
def isSafeAscii (byte : UInt8) (isFirst : Bool) : Bool :=
  (48 ≤ byte && byte ≤ 57) || (65 ≤ byte && byte ≤ 90) || (97 ≤ byte && byte ≤ 122) ||
    (byte == 45 && !isFirst) || byte == 95 || (byte == 42 && isFirst)

def octalDigit (n : Nat) : Char := Char.ofNat (48 + n % 8)

/-- A byte of a label: safe, escaped by a backslash, or in octal. -/
def escapeByte (isFirst : Bool) (byte : UInt8) : Str :=
  if isSafeAscii byte isFirst then [Char.ofNat byte.toNat]
  else if 0x20 < byte && byte < 0x7f then ['\\', Char.ofNat byte.toNat]
  else ['\\', octalDigit (byte.toNat / 64), octalDigit (byte.toNat / 8), octalDigit byte.toNat]

def labelText : List UInt8 → Str
  | [] => []
  | byte :: rest => escapeByte true byte ++ rest.flatMap (escapeByte false)

/-- `Name::to_ascii` of a name from the wire, which ends at the root. -/
def toAscii (name : WireName) : Str :=
  if name.labels.isEmpty then ['.']
  else name.labels.flatMap fun label => labelText label ++ ['.']

def lowerByte (byte : UInt8) : UInt8 := if 65 ≤ byte && byte ≤ 90 then byte + 32 else byte

/-- `Name::eq_ignore_root`: without regard to case. -/
def eqIgnoreRoot (left right : WireName) : Bool :=
  left.labels.map (·.map lowerByte) == right.labels.map (·.map lowerByte)

def ofLabels (labels : List (List UInt8)) : Option WireName :=
  if h : (∀ label ∈ labels, 1 ≤ label.length ∧ label.length ≤ 63) ∧
      (labels.map fun label => label.length + 1).sum + 1 ≤ 255 then
    some ⟨labels, h.1, h.2⟩
  else none

/-- The name without a pointer. -/
def wire (name : WireName) : List UInt8 :=
  (name.labels.flatMap fun label => UInt8.ofNat label.length :: label) ++ [0]

def root : WireName := ⟨[], by simp, by decide⟩

end WireName

/-! ## 2. Reading -/

namespace Wire

/-- The flags that no check reads. -/
structure Flags where
  recursionDesired : Bool
  checkingDisabled : Bool
  deriving DecidableEq

abbrev WireMessage := DnsResponse WireName Unit Flags

/-- Reads at an offset of the message. -/
abbrev Reader := StateT Nat (Except String)

variable (data : List UInt8)

def readNumber (size : Nat) : Reader Nat := fun offset =>
  if offset + size ≤ data.length then
    .ok (value ((data.drop offset).take size), offset + size)
  else .error "unexpected end of input reached"

/-- The labels of a name that starts at `start`, from an offset on, and where they end. A pointer
    leads to before the name it ends. -/
def readLabels : Nat → Nat → Nat → Option (List (List UInt8) × Nat)
  | 0, _, _ => none
  | fuel + 1, start, offset =>
    match data.drop offset with
    | [] => none
    | size :: rest =>
      if size = 0 then some ([], offset + 1)
      else if size < 64 then
        if rest.length < size.toNat then none
        else
          (readLabels fuel start (offset + 1 + size.toNat)).map fun (labels, behind) =>
            (rest.take size.toNat :: labels, behind)
      else
        match rest with
        | [] => none
        | low :: _ =>
          let pointer := value [size, low] - 0xC000
          if size < 192 ∨ start ≤ pointer then none
          else (readLabels fuel pointer pointer).map fun (labels, _) => (labels, offset + 2)

def readName : Reader WireName := fun offset =>
  match readLabels data 256 offset offset with
  | none => .error "malformed label"
  | some (labels, behind) =>
    match WireName.ofLabels labels with
    | none => .error "name label data exceed 255"
    | some name => .ok (name, behind)

def readQuery : Reader (Query WireName) := do
  let name ← readName data
  let queryType ← readNumber data 2
  let queryClass ← readNumber data 2
  return ⟨name, UInt16.ofNat queryType, UInt16.ofNat queryClass⟩

def readRData (kind size : Nat) : Reader (RData WireName) :=
  match kind, size with
  | 1, 4 => do
    let address ← readNumber data 4
    return .a (BitVec.ofNat 32 address)
  | 28, 16 => do
    let address ← readNumber data 16
    return .aaaa (BitVec.ofNat 128 address)
  | 5, _ => do
    let start ← get
    let name ← readName data
    let behind ← get
    if behind = start + size then return .cname name else throw "incorrect rdata length"
  | _, _ => throw "no address or alias"

def readRecord : Reader (DnsRecord WireName) := do
  let name ← readName data
  let kind ← readNumber data 2
  let dnsClass ← readNumber data 2
  let ttl ← readNumber data 4
  let size ← readNumber data 2
  let rdata ← readRData data kind size
  return ⟨name, UInt32.ofNat ttl, UInt16.ofNat dnsClass, rdata⟩

def readMany {α : Type} (read : Reader α) : Nat → Reader (List α)
  | 0 => pure []
  | count + 1 => do
    let first ← read
    let others ← readMany read count
    return first :: others

def opCodeOf : Nat → OpCode
  | 0 => .query
  | 2 => .status
  | 4 => .notify
  | 5 => .update
  | code => .unknown (UInt8.ofNat code)

/-- The codes of the header, from zero on. -/
def responseCodes : List ResponseCode :=
  [.noError, .formErr, .servFail, .nxDomain, .notImp, .refused, .yxDomain, .yxRrSet, .nxRrSet,
    .notAuth, .notZone]

/-- The questions and the three sections of records, as many as the header counts. -/
def readSections : Reader (List (Query WireName) × List (List (DnsRecord WireName))) := do
  let queries ← readMany (readQuery data) (value ((data.drop 4).take 2))
  let answers ← readMany (readRecord data) (value ((data.drop 6).take 2))
  let authorities ← readMany (readRecord data) (value ((data.drop 8).take 2))
  let additionals ← readMany (readRecord data) (value ((data.drop 10).take 2))
  return (queries, [answers, authorities, additionals])

/-- `Message::from_vec`. -/
def fromVec : Except String WireMessage :=
  if data.length < 12 then .error "unexpected end of input reached"
  else
    let flags := value ((data.drop 2).take 2)
    let code := flags % 16
    match readSections data 12 with
    | .ok ((queries, [answers, authorities, additionals]), _) => .ok
        { answers, authorities, additionals
          authenticData := flags.testBit 5
          signature := none
          rest :=
            { id := idOf data
              messageType := if flags.testBit 15 then .response else .query
              opCode := opCodeOf (flags / 2048 % 16)
              queries
              rest :=
                { responseCode := responseCodes.getD code (.unknown (UInt16.ofNat code))
                  authoritative := flags.testBit 10
                  truncation := flags.testBit 9
                  recursionAvailable := flags.testBit 7
                  rest := ⟨flags.testBit 8, flags.testBit 4⟩ } } }
    | .ok _ => .error "unreachable"
    | .error e => .error e

/-! ## 3. Writing -/

/-- What has been written, and the offsets of the names in it. -/
structure Packet where
  data : List UInt8
  names : List (List (List UInt8) × Nat)

namespace Packet

def put (packet : Packet) (bs : List UInt8) : Packet := { packet with data := packet.data ++ bs }

/-- Label by label, up to an end that is there already. -/
def putLabels (packet : Packet) : List (List UInt8) → Packet
  | [] => packet.put [0]
  | label :: labels =>
    match packet.names.lookup (label :: labels) with
    | some pointer => packet.put (bytes 2 (0xC000 + pointer))
    | none =>
      let packet := { packet with names := (label :: labels, packet.data.length) :: packet.names }
      (packet.put (UInt8.ofNat label.length :: label)).putLabels labels

def putQuery (packet : Packet) (query : Query WireName) : Packet :=
  (packet.putLabels query.name.labels).put
    (bytes 2 query.queryType.toNat ++ bytes 2 query.queryClass.toNat)

def putRecord (packet : Packet) (record : DnsRecord WireName) : Packet :=
  let owner := packet.putLabels record.name.labels
  let fields (kind size : Nat) :=
    bytes 2 kind ++ bytes 2 record.dnsClass.toNat ++ bytes 4 record.ttl.toNat ++ bytes 2 size
  match record.data with
  | .a address => owner.put (fields 1 4 ++ bytes 4 address.toNat)
  | .aaaa address => owner.put (fields 28 16 ++ bytes 16 address.toNat)
  | .cname name =>
    let behind := (owner.put (fields 5 0)).putLabels name.labels
    let size := behind.data.length - owner.data.length - 10
    { behind with data := owner.data ++ fields 5 size ++ behind.data.drop (owner.data.length + 10) }
  | .other => owner

end Packet

def opCodeValue : OpCode → Nat
  | .query => 0
  | .status => 2
  | .notify => 4
  | .update => 5
  | .unknown code => code.toNat

def responseCodeValue : ResponseCode → Nat
  | .unknown code => code.toNat
  | code => responseCodes.idxOf code

def header (message : WireMessage) : List UInt8 :=
  let info := message.rest.rest
  let bit (flag : Bool) (place : Nat) := if flag then 2 ^ place else 0
  let flags := bit (message.rest.messageType == .response) 15 +
    opCodeValue message.rest.opCode * 2048 + bit info.authoritative 10 + bit info.truncation 9 +
    bit info.rest.recursionDesired 8 + bit info.recursionAvailable 7 +
    bit message.authenticData 5 + bit info.rest.checkingDisabled 4 +
    responseCodeValue info.responseCode
  bytes 2 message.rest.id.toNat ++ bytes 2 flags ++ bytes 2 message.rest.queries.length ++
    bytes 2 message.answers.length ++ bytes 2 message.authorities.length ++
    bytes 2 message.additionals.length

/-- `Message::to_vec`. What would be read as another message is refused. -/
def toVec (message : WireMessage) : Except String (List UInt8) :=
  let records := message.answers ++ message.authorities ++ message.additionals
  let asked := message.rest.queries.foldl Packet.putQuery ⟨header message, []⟩
  let data := (records.foldl Packet.putRecord asked).data
  match fromVec data with
  | .ok again => if again = message then .ok data else .error "not in the format"
  | .error e => .error e

end Wire

/-! ## 4. The library -/

/-- Hickory on these messages. -/
def wireNames : HickoryNames WireName Unit Wire.Flags where
  fromVec := Wire.fromVec
  toVec := Wire.toVec
  isAaaa record := record.data matches .aaaa _
  eqIgnoreRoot := WireName.eqIgnoreRoot
  toAscii := WireName.toAscii
  typeDebug kind := if kind = RECORD_TYPE_AAAA then "AAAA" else if kind = 1 then "A" else "OTHER"

theorem wireNames_readsHeader : wireNames.ReadsHeader := by
  intro data message h
  change Wire.fromVec data = .ok message at h
  unfold Wire.fromVec at h
  split at h
  · cases h
  · rename_i hlen
    refine ⟨Nat.le_of_not_lt hlen, ?_⟩
    simp only at h
    split at h
    · cases h
      rfl
    · cases h
    · cases h

theorem wireNames_roundTrips : wireNames.RoundTrips := by
  intro message packet h
  change Wire.toVec message = .ok packet at h
  unfold Wire.toVec at h
  simp only at h
  split at h
  · rename_i again hread
    split at h
    · rename_i hsame
      cases h
      exact hread.trans (congrArg Except.ok hsame)
    · cases h
  · cases h

/-! ## 5. Questions for an address -/

/-- A message with the question for the IPv4 address of a name, and nothing else. -/
def addressQuestion (id flags : UInt16) (name : WireName) : List UInt8 :=
  bytes 2 id.toNat ++ bytes 2 flags.toNat ++ [0, 1, 0, 0, 0, 0, 0, 0] ++ name.wire ++ [0, 1, 0, 1]

/-- The name with one label of one byte. -/
def hostName (letter : UInt8) : WireName := ⟨[[letter]], by simp, by simp⟩

/-- `a.example`. -/
def exampleWireName : WireName where
  labels := [[97], [101, 120, 97, 109, 112, 108, 101]]
  labelSizes := by decide
  size := by decide

/-- The message with the question of `name`. -/
def addressMessage (id : UInt16) (messageType : MessageType) (name : WireName) :
    Wire.WireMessage where
  answers := []
  authorities := []
  additionals := []
  authenticData := false
  signature := none
  rest := ⟨id, messageType, .query, [⟨name, 1, 1⟩], ⟨.noError, false, false, false, ⟨true, false⟩⟩⟩

example : wireNames.fromVec (addressQuestion 7 0x0100 exampleWireName) =
    .ok (addressMessage 7 .query exampleWireName) := by decide +kernel

end Tun2Proxy
