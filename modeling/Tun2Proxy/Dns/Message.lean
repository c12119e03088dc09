/-
  File:      Tun2Proxy/Dns/Message.lean
  Subject:   DNS queries and the responses that fit them (src/dns.rs).

  Messages are parsed and written by hickory. The model has of a message what the checks read: its
  ID, its kind and its questions, next to the records of `DnsMessage`. Names are compared by
  hickory too (`Name::eq_ignore_root`).
-/
import Tun2Proxy.Proxy.Session

namespace Tun2Proxy

open BigEndian

/-! ## 1. Messages -/

inductive MessageType where
  | query
  | response
  deriving DecidableEq, Repr

inductive OpCode where
  | query
  | status
  | notify
  | update
  | unknown (code : UInt8)
  deriving DecidableEq, Repr

/-- The `Debug` text. -/
def OpCode.debug : OpCode → String
  | .query => "Query"
  | .status => "Status"
  | .notify => "Notify"
  | .update => "Update"
  | .unknown code => s!"Unknown({code})"

/-- A question. Types and classes are their numbers. -/
structure Query (Name : Type) where
  name : Name
  queryType : UInt16
  queryClass : UInt16
  deriving DecidableEq

/-- What a `DnsMessage` has besides its records. -/
structure DnsHeader (Name Rest : Type) where
  id : UInt16
  messageType : MessageType
  opCode : OpCode
  queries : List (Query Name)
  rest : Rest
  deriving DecidableEq

abbrev Message (Name Record Signature Rest : Type) :=
  DnsMessage Record Signature (DnsHeader Name Rest)

/-- What the checks use of hickory. -/
structure Hickory (Name Record Signature Rest : Type) extends
    DnsLibrary Record Signature (DnsHeader Name Rest) where
  eqIgnoreRoot : Name → Name → Bool

/-! ## 2. The checks -/

section Checks

variable {Name Record Signature Rest : Type} (dns : Hickory Name Record Signature Rest)

/-- `parse_data_to_dns_message`. -/
def parseDataToDnsMessage (data : List UInt8) (usedByTcp : Bool) :
    Except String (Message Name Record Signature Rest) :=
  if usedByTcp then
    if data.length < DNS_TCP_PREFIX_SIZE then .error "invalid dns data"
    else if data.length ≠ value (data.take DNS_TCP_PREFIX_SIZE) + DNS_TCP_PREFIX_SIZE then
      .error "DNS-over-TCP frame length mismatch"
    else dns.fromVec (data.drop DNS_TCP_PREFIX_SIZE)
  else dns.fromVec data

/-- `validate_dns_query`. -/
def validateDnsQuery (message : Message Name Record Signature Rest) :
    Except String (Query Name) :=
  if message.rest.messageType ≠ .query then .error "DNS request is not a query"
  else if message.rest.opCode ≠ .query then
    let opCode := message.rest.opCode.debug
    .error s!"unsupported DNS opcode {opCode}"
  else
    match message.rest.queries with
    | [query] => .ok query
    | queries =>
      let count := queries.length
      .error s!"DNS request must contain exactly one question, got {count}"

/-- `names_equal`. -/
def namesEqual (left right : Name) : Bool := dns.eqIgnoreRoot left right

/-- `validate_dns_response`. -/
def validateDnsResponse (message : Message Name Record Signature Rest) (requestId : UInt16)
    (expectedQuery : Query Name) : Except String Unit :=
  if message.rest.messageType ≠ .response then .error "DNS reply has the query bit set"
  else if message.rest.opCode ≠ .query then
    let opCode := message.rest.opCode.debug
    .error s!"DNS reply has unexpected opcode {opCode}"
  else if message.rest.id ≠ requestId then .error "DNS response ID mismatch"
  else
    match message.rest.queries with
    | [] => .error "DNS response has no question"
    | actualQuery :: others =>
      if others ≠ [] ∨ namesEqual dns actualQuery.name expectedQuery.name = false ∨
          actualQuery.queryType ≠ expectedQuery.queryType ∨
          actualQuery.queryClass ≠ expectedQuery.queryClass then
        .error "DNS response question does not match the request"
      else .ok ()

/-! ## 3. What a response answers -/

/-- The first two bytes, an ID in network order. -/
def idOf (data : List UInt8) : UInt16 := UInt16.ofNat (value (data.take 2))

/-- `Message::from_vec` reads a whole header; the ID comes first. -/
def Hickory.ReadsHeader : Prop :=
  ∀ data message, dns.fromVec data = .ok message →
    12 ≤ data.length ∧ message.rest.id = idOf data

/-- A response with the question, and no other. -/
def Fits (response : Message Name Record Signature Rest) (question : Query Name) : Prop :=
  response.rest.messageType = .response ∧ response.rest.opCode = .query ∧
    ∃ actual, response.rest.queries = [actual] ∧ namesEqual dns actual.name question.name = true ∧
      actual.queryType = question.queryType ∧ actual.queryClass = question.queryClass

variable {dns}

/-- A response passes the check if it has the ID and the question. -/
theorem validateDnsResponse_ok {message : Message Name Record Signature Rest} {requestId : UInt16}
    {expectedQuery : Query Name} :
    validateDnsResponse dns message requestId expectedQuery = .ok () ↔
      message.rest.id = requestId ∧ Fits dns message expectedQuery := by
  unfold validateDnsResponse Fits
  constructor
  · intro h
    split at h
    · cases h
    · rename_i htype
      split at h
      · cases h
      · rename_i hcode
        split at h
        · cases h
        · rename_i hid
          split at h
          · cases h
          · rename_i actual others hqueries
            split at h
            · cases h
            · rename_i hmatch
              simp only [not_or, ne_eq, not_not, Bool.not_eq_false] at hmatch htype hcode hid
              obtain ⟨rfl, hname, hkind, hclass⟩ := hmatch
              exact ⟨hid, htype, hcode, actual, hqueries, hname, hkind, hclass⟩
  · intro h
    obtain ⟨hid, htype, hcode, actual, hqueries, hname, hkind, hclass⟩ := h
    rw [if_neg (not_not.mpr htype), if_neg (not_not.mpr hcode), if_neg (not_not.mpr hid), hqueries]
    simp [hname, hkind, hclass]

theorem idOf_bytes (id : UInt16) (rest : List UInt8) : idOf (bytes 2 id.toNat ++ rest) = id := by
  unfold idOf
  rw [List.take_left' (length_bytes 2 id.toNat), value_bytes_of_lt id.toNat_lt,
    UInt16.ofNat_toNat]

end Checks

end Tun2Proxy
