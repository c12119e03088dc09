/-
  File:      Tun2Proxy/Direct/Resolver.lean
  Subject:   DNS queries through the physical interface (`query_dns_servers`, src/direct.rs).

  The resolvers are asked in order, each over UDP first and then over TCP. What the network does is
  an oracle (`Network`): the outcome of each attempt at each place of the list, so that the same
  server may be listed twice and behave differently. A run has the answer and the attempts it made.

  `Concludes` says when a server settles the query, without the loops; the run returns the answer
  of the first that does (`query_dns_servers_fallback`).
-/
import Tun2Proxy.Dns.Cname
import Tun2Proxy.Net.SocketAddr

namespace Tun2Proxy.Direct

/-! ## 1. The queries -/

def DNS_UDP_ATTEMPTS : Nat := 2

/-- What one attempt comes to, within its time. -/
inductive Outcome (Answer : Type) where
  | answer (response : Answer)
  | failed (error : String)
  | timedOut

def Outcome.answer? {Answer : Type} : Outcome Answer → Option Answer
  | .answer response => some response
  | _ => none

/-- The outcomes by the place of the server, and over UDP by the attempt. -/
structure Network (Answer : Type) where
  udp : Nat → Nat → Outcome Answer
  tcp : Nat → Outcome Answer

inductive Contact where
  | udp (server attempt : Nat)
  | tcp (server : Nat)
  deriving DecidableEq, Repr

def Contact.server : Contact → Nat
  | .udp server _ => server
  | .tcp server => server

/-- What `last_error` keeps. -/
inductive QueryError where
  | udpFailed (server : SocketAddr) (code : ResponseCode)
  | tcpFailed (server : SocketAddr) (code : ResponseCode)
  | tcpError (error : String)
  | tcpTimedOut (server : SocketAddr)

def QueryError.text : QueryError → String
  | .udpFailed server code =>
    "UDP DNS query to " ++ String.ofList server.display ++ " failed with " ++ code.debug
  | .tcpFailed server code =>
    "TCP DNS query to " ++ String.ofList server.display ++ " failed with " ++ code.debug
  | .tcpError error => error
  | .tcpTimedOut server => "TCP DNS query to " ++ String.ofList server.display ++ " timed out"

/-- The error of the whole query, of kind `TimedOut`. -/
structure DirectError where
  domain : String
  servers : List SocketAddr
  lastError : Option QueryError

def DirectError.text (e : DirectError) : String :=
  let detail := (e.lastError.map QueryError.text).getD "no DNS resolver is available"
  let servers := ", ".intercalate (e.servers.map fun server => String.ofList server.display)
  "direct DNS query for `" ++ e.domain ++ "` through physical resolver(s) " ++ servers ++
    " failed: " ++ detail

section Queries

variable {Name Signature Rest : Type}

/-- Codes that are an answer to the question. -/
def isFinal (response : DnsResponse Name Signature Rest) : Bool :=
  match response.rest.rest.responseCode with
  | .noError => true
  | .nxDomain => true
  | _ => false

/-- How the UDP attempts at a server end: with a response to return, with `continue 'servers`, or
    at the query over TCP. -/
inductive UdpEnd (Name Signature Rest : Type) where
  | found (response : DnsResponse Name Signature Rest)
  | nextServer (e : QueryError)
  | askTcp

variable (net : Network (DnsResponse Name Signature Rest))

def udpAttempts (position : Nat) (server : SocketAddr) :
    List Nat → UdpEnd Name Signature Rest × List Contact
  | [] => (.askTcp, [])
  | attempt :: rest =>
    match net.udp position attempt with
    | .answer response =>
      if response.rest.rest.truncation then (.askTcp, [.udp position attempt])
      else if isFinal response then (.found response, [.udp position attempt])
      else (.nextServer (.udpFailed server response.rest.rest.responseCode),
        [.udp position attempt])
    | _ =>
      let (ended, contacts) := udpAttempts position server rest
      (ended, .udp position attempt :: contacts)

def tcpResult (server : SocketAddr) :
    Outcome (DnsResponse Name Signature Rest) →
      Except QueryError (DnsResponse Name Signature Rest)
  | .answer response =>
    if isFinal response then .ok response
    else .error (.tcpFailed server response.rest.rest.responseCode)
  | .failed error => .error (.tcpError error)
  | .timedOut => .error (.tcpTimedOut server)

/-- The body of the loop over the servers. -/
def askServer (position : Nat) (server : SocketAddr) :
    Except QueryError (DnsResponse Name Signature Rest) × List Contact :=
  match udpAttempts net position server (List.range DNS_UDP_ATTEMPTS) with
  | (.found response, contacts) => (.ok response, contacts)
  | (.nextServer e, contacts) => (.error e, contacts)
  | (.askTcp, contacts) => (tcpResult server (net.tcp position), contacts ++ [.tcp position])

/-- The servers from a place on. -/
def askServers (domain : String) (servers : List SocketAddr) :
    List SocketAddr → Nat → Option QueryError →
      Except DirectError (DnsResponse Name Signature Rest) × List Contact
  | [], _, lastError => (.error ⟨domain, servers, lastError⟩, [])
  | server :: rest, position, _ =>
    match askServer net position server with
    | (.ok response, contacts) => (.ok response, contacts)
    | (.error e, contacts) =>
      let (result, later) := askServers domain servers rest (position + 1) (some e)
      (result, contacts ++ later)

def queryDnsServers (domain : String) (servers : List SocketAddr) :
    Except DirectError (DnsResponse Name Signature Rest) × List Contact :=
  askServers net domain servers servers 0 none

/-! ## 2. When a server settles the query -/

/-- The first answer over UDP, truncated or not. -/
def firstUdpAnswer (position : Nat) : Option (DnsResponse Name Signature Rest) :=
  (List.range DNS_UDP_ATTEMPTS).findSome? fun attempt => (net.udp position attempt).answer?

/-- UDP gave no untruncated answer. -/
def UdpUndecided (position : Nat) : Prop :=
  ∀ response, firstUdpAnswer net position = some response →
    response.rest.rest.truncation = true

inductive Concludes (position : Nat) (response : DnsResponse Name Signature Rest) : Prop
  | overUdp (answered : firstUdpAnswer net position = some response)
      (whole : response.rest.rest.truncation = false) (final : isFinal response = true)
  | overTcp (undecided : UdpUndecided net position)
      (answered : net.tcp position = .answer response) (final : isFinal response = true)

def Conclusive (position : Nat) : Prop := ∃ response, Concludes net position response

/-- The server is there and no server before it is conclusive. -/
def Reached (servers : List SocketAddr) (position : Nat) : Prop :=
  position < servers.length ∧ ∀ earlier < position, ¬ Conclusive net earlier

/-! ## 3. One server -/

variable {net} {position : Nat} {server : SocketAddr}

/-- The attempts end with the first answer: without one, or with a truncated one, at TCP. -/
theorem udpAttempts_fst (attempts : List Nat) :
    (udpAttempts net position server attempts).1 =
      match attempts.findSome? fun attempt => (net.udp position attempt).answer? with
      | none => .askTcp
      | some response =>
        if response.rest.rest.truncation then .askTcp
        else if isFinal response then .found response
        else .nextServer (.udpFailed server response.rest.rest.responseCode) := by
  induction attempts with
  | nil => rfl
  | cons attempt rest ih =>
    rw [udpAttempts, List.findSome?_cons]
    cases hudp : net.udp position attempt with
    | answer response =>
      simp only [Outcome.answer?]
      split
      · rfl
      · split
        · rfl
        · rfl
    | failed error => exact ih
    | timedOut => exact ih

/-- A place with everything before it passed over is the first, or one behind the first passed
    over. -/
theorem exists_before_iff {here passed : Nat → Prop} :
    (∃ k, here k ∧ ∀ j < k, passed j) ↔
      here 0 ∨ passed 0 ∧ ∃ k, here (k + 1) ∧ ∀ j < k, passed (j + 1) := by
  rw [← Nat.or_exists_add_one]
  simp only [Nat.forall_lt_succ_left]
  constructor
  · rintro (⟨hhere, -⟩ | ⟨k, hhere, hfirst, hrest⟩)
    · exact .inl hhere
    · exact .inr ⟨hfirst, k, hhere, hrest⟩
  · rintro (hhere | ⟨hfirst, k, hhere, hrest⟩)
    · exact .inl ⟨hhere, nofun⟩
    · exact .inr ⟨k, hhere, hfirst, hrest⟩

variable {contact : Contact}

/-- The first attempt is always made; a later one needs the first to be without an answer. -/
theorem mem_udpAttempts_cons {first : Nat} {rest : List Nat} :
    contact ∈ (udpAttempts net position server (first :: rest)).2 ↔
      contact = .udp position first ∨
        (net.udp position first).answer? = none ∧
          contact ∈ (udpAttempts net position server rest).2 := by
  rw [udpAttempts]
  cases net.udp position first with
  | answer response =>
    simp only [Outcome.answer?]
    split
    · simp
    · split
      · simp
      · simp
  | failed error => simp [Outcome.answer?]
  | timedOut => simp [Outcome.answer?]

/-- An attempt is made if no attempt before it had an answer. -/
theorem mem_udpAttempts {attempts : List Nat} :
    contact ∈ (udpAttempts net position server attempts).2 ↔
      ∃ i : Nat, (∃ attempt, attempts[i]? = some attempt ∧ contact = .udp position attempt) ∧
        ∀ j < i, ∀ earlier, attempts[j]? = some earlier →
          (net.udp position earlier).answer? = none := by
  induction attempts with
  | nil => simp [udpAttempts]
  | cons first rest ih =>
    rw [mem_udpAttempts_cons, exists_before_iff, ih]
    simp only [List.getElem?_cons_zero, List.getElem?_cons_succ, Option.some.injEq,
      exists_eq_left', forall_eq']

variable {response : DnsResponse Name Signature Rest}

theorem tcpResult_ok {outcome : Outcome (DnsResponse Name Signature Rest)} :
    tcpResult server outcome = .ok response ↔
      outcome = .answer response ∧ isFinal response = true := by
  cases outcome with
  | answer found =>
    rw [tcpResult]
    split <;> grind
  | failed | timedOut => exact ⟨nofun, nofun⟩

/-- Where UDP decides nothing, the server's result is that of TCP, and TCP is asked. -/
theorem askServer_undecided (h : UdpUndecided net position) :
    askServer net position server =
      (tcpResult server (net.tcp position),
        (udpAttempts net position server (List.range DNS_UDP_ATTEMPTS)).2 ++
          [.tcp position]) := by
  have hend : (udpAttempts net position server (List.range DNS_UDP_ATTEMPTS)).1 = .askTcp := by
    rw [udpAttempts_fst]
    split
    · rfl
    · rename_i response hfirst
      rw [if_pos (h response hfirst)]
  unfold askServer
  generalize hrun : udpAttempts net position server (List.range DNS_UDP_ATTEMPTS) = run at hend
  obtain ⟨ended, contacts⟩ := run
  cases hend
  rfl

/-- Where it decides, that is the result, and TCP is not asked. -/
theorem askServer_decided (hfirst : firstUdpAnswer net position = some response)
    (hwhole : response.rest.rest.truncation = false) :
    askServer net position server =
      (if isFinal response then .ok response
        else .error (.udpFailed server response.rest.rest.responseCode),
        (udpAttempts net position server (List.range DNS_UDP_ATTEMPTS)).2) := by
  have hend : (udpAttempts net position server (List.range DNS_UDP_ATTEMPTS)).1 =
      if isFinal response then .found response
      else .nextServer (.udpFailed server response.rest.rest.responseCode) := by
    rw [udpAttempts_fst, ← firstUdpAnswer, hfirst]
    simp only [hwhole, Bool.false_eq_true, if_false]
  unfold askServer
  generalize hrun : udpAttempts net position server (List.range DNS_UDP_ATTEMPTS) = run at hend
  obtain ⟨ended, contacts⟩ := run
  cases hend
  cases isFinal response <;> rfl

variable (net position) in
theorem undecided_or_decided :
    UdpUndecided net position ∨ ∃ response, firstUdpAnswer net position = some response ∧
      response.rest.rest.truncation = false := by
  cases hfirst : firstUdpAnswer net position with
  | none => exact .inl fun response h => nomatch hfirst.symm.trans h
  | some response =>
    cases hcut : response.rest.rest.truncation with
    | true => exact .inl fun found h => Option.some.inj (hfirst.symm.trans h) ▸ hcut
    | false => exact .inr ⟨response, rfl, hcut⟩

/-- **One server**: it returns a response exactly if that settles the query. -/
theorem askServer_ok :
    (askServer net position server).1 = .ok response ↔ Concludes net position response := by
  rcases undecided_or_decided net position with hund | ⟨found, hfirst, hwhole⟩
  · rw [askServer_undecided hund, tcpResult_ok]
    constructor
    · rintro ⟨hanswer, hfinal⟩
      exact .overTcp hund hanswer hfinal
    · intro h
      cases h with
      | overUdp answered whole final => cases (hund response answered).symm.trans whole
      | overTcp _ answered final => exact ⟨answered, final⟩
  · rw [askServer_decided hfirst hwhole]
    constructor
    · intro h
      split at h <;> cases h
      exact .overUdp hfirst hwhole ‹_›
    · intro h
      cases h with
      | overUdp answered whole final =>
        cases hfirst.symm.trans answered
        rw [if_pos final]
      | overTcp undecided _ _ => cases (undecided found hfirst).symm.trans hwhole

theorem getElem?_range {n i a : Nat} : (List.range n)[i]? = some a ↔ i < n ∧ i = a := by
  rw [List.getElem?_eq_some_iff]
  simp

/-- The attempts at one server are its own: over UDP until the first answer, over TCP if UDP
    decided nothing. -/
theorem mem_askServer :
    contact ∈ (askServer net position server).2 ↔
      (∃ attempt < DNS_UDP_ATTEMPTS, contact = .udp position attempt ∧
        ∀ earlier < attempt, (net.udp position earlier).answer? = none) ∨
      (contact = .tcp position ∧ UdpUndecided net position) := by
  have hudp : contact ∈ (udpAttempts net position server (List.range DNS_UDP_ATTEMPTS)).2 ↔
      ∃ attempt < DNS_UDP_ATTEMPTS, contact = .udp position attempt ∧
        ∀ earlier < attempt, (net.udp position earlier).answer? = none := by
    rw [mem_udpAttempts]
    constructor
    · rintro ⟨i, ⟨attempt, hi, rfl⟩, hbefore⟩
      obtain ⟨hlt, rfl⟩ := getElem?_range.mp hi
      refine ⟨i, hlt, rfl, fun earlier h => hbefore earlier h earlier ?_⟩
      exact getElem?_range.mpr ⟨Nat.lt_trans h hlt, rfl⟩
    · rintro ⟨attempt, hlt, rfl, hbefore⟩
      refine ⟨attempt, ⟨attempt, getElem?_range.mpr ⟨hlt, rfl⟩, rfl⟩, fun j hj earlier hat => ?_⟩
      obtain ⟨-, rfl⟩ := getElem?_range.mp hat
      exact hbefore j hj
  rcases undecided_or_decided net position with hund | ⟨found, hfirst, hwhole⟩
  · rw [askServer_undecided hund, List.mem_append, hudp, List.mem_singleton]
    exact or_congr_right ⟨fun h => ⟨h, hund⟩, fun h => h.1⟩
  · rw [askServer_decided hfirst hwhole, hudp]
    exact ⟨.inl, fun h => h.resolve_right fun ⟨_, hund⟩ =>
      nomatch (hund found hfirst).symm.trans hwhole⟩

/-! ## 4. All servers -/

variable (net position server) in
/-- A server settles the query or leaves it to those behind. -/
theorem askServer_cases :
    (∃ found contacts, askServer net position server = (.ok found, contacts) ∧
      Concludes net position found) ∨
    ∃ e contacts, askServer net position server = (.error e, contacts) ∧
      ¬ Conclusive net position := by
  have hone := @askServer_ok _ _ _ net position server
  generalize askServer net position server = run at hone
  obtain ⟨result, contacts⟩ := run
  cases result with
  | ok found => exact .inl ⟨found, contacts, rfl, hone.mp rfl⟩
  | error e =>
    refine .inr ⟨e, contacts, rfl, ?_⟩
    rintro ⟨found, hfound⟩
    cases hone.mpr hfound

/-- A place up to the first conclusive one is the first, or lies behind it if that one decides
    nothing. -/
theorem exists_place_iff {here : Nat → Nat → Prop} :
    (∃ k, here k (position + k) ∧ ∀ j < k, ¬ Conclusive net (position + j)) ↔
      here 0 position ∨ ¬ Conclusive net position ∧
        ∃ k, here (k + 1) (position + 1 + k) ∧
          ∀ j < k, ¬ Conclusive net (position + 1 + j) := by
  rw [exists_before_iff]
  simp only [Nat.add_zero, ← Nat.add_assoc, Nat.add_right_comm position _ 1]

variable (net) in
/-- Servers from a place on: the answer of the first conclusive one. -/
theorem askServers_ok (domain : String) (all servers : List SocketAddr) (position : Nat)
    (lastError : Option QueryError) (response : DnsResponse Name Signature Rest) :
    (askServers net domain all servers position lastError).1 = .ok response ↔
      ∃ k, (k < servers.length ∧ Concludes net (position + k) response) ∧
        ∀ j < k, ¬ Conclusive net (position + j) := by
  induction servers generalizing position lastError with
  | nil => simp [askServers]
  | cons server servers ih =>
    rw [@exists_place_iff _ _ _ net position
      (fun k place => k < (server :: servers).length ∧ Concludes net place response)]
    simp only [List.length_cons, Nat.add_lt_add_iff_right, Nat.succ_pos, true_and]
    rcases askServer_cases net position server with
      ⟨found, contacts, hrun, hfound⟩ | ⟨e, contacts, hrun, hnot⟩
    · have hone := @askServer_ok _ _ _ net position server response
      rw [hrun, Except.ok.injEq] at hone
      have hthere : Conclusive net position := ⟨found, hfound⟩
      simp only [askServers, hrun, Except.ok.injEq, hone, hthere, not_true_eq_false, false_and,
        or_false]
    · have hno : ¬ Concludes net position response := fun h => hnot ⟨response, h⟩
      simp only [askServers, hrun, ih, hno, hnot, not_false_eq_true, true_and, false_or]

variable (net) in
/-- The attempts are those at each server up to the first conclusive one. -/
theorem mem_askServers (domain : String) (all servers : List SocketAddr) (position : Nat)
    (lastError : Option QueryError) (contact : Contact) :
    contact ∈ (askServers net domain all servers position lastError).2 ↔
      ∃ k, (∃ server, servers[k]? = some server ∧
          contact ∈ (askServer net (position + k) server).2) ∧
        ∀ j < k, ¬ Conclusive net (position + j) := by
  induction servers generalizing position lastError with
  | nil => simp [askServers]
  | cons server servers ih =>
    rw [@exists_place_iff _ _ _ net position (fun k place =>
      ∃ other, (server :: servers)[k]? = some other ∧
        contact ∈ (askServer net place other).2)]
    simp only [List.getElem?_cons_zero, List.getElem?_cons_succ, Option.some.injEq,
      exists_eq_left']
    rcases askServer_cases net position server with
      ⟨found, contacts, hrun, hfound⟩ | ⟨e, contacts, hrun, hnot⟩
    · have hthere : Conclusive net position := ⟨found, hfound⟩
      simp only [askServers, hrun, hthere, not_true_eq_false, false_and, or_false]
    · simp only [askServers, hrun, List.mem_append, ih, hnot, not_false_eq_true, true_and]

variable {domain : String} {servers : List SocketAddr}

/-- The attempts of the whole query. -/
theorem mem_queryDnsServers :
    contact ∈ (queryDnsServers net domain servers).2 ↔
      ∃ i, Reached net servers i ∧
        ((∃ attempt < DNS_UDP_ATTEMPTS, contact = .udp i attempt ∧
          ∀ earlier < attempt, (net.udp i earlier).answer? = none) ∨
        (contact = .tcp i ∧ UdpUndecided net i)) := by
  rw [queryDnsServers, mem_askServers]
  simp only [Nat.zero_add, mem_askServer]
  constructor
  · rintro ⟨i, ⟨server, hat, hcontact⟩, hbefore⟩
    exact ⟨i, ⟨(List.getElem?_eq_some_iff.mp hat).1, hbefore⟩, hcontact⟩
  · rintro ⟨i, ⟨hlt, hbefore⟩, hcontact⟩
    exact ⟨i, ⟨servers[i], List.getElem?_eq_getElem hlt, hcontact⟩, hbefore⟩

/-- UDP is tried at a server until an answer comes. -/
theorem udp_mem_queryDnsServers {i attempt : Nat} :
    Contact.udp i attempt ∈ (queryDnsServers net domain servers).2 ↔
      Reached net servers i ∧ attempt < DNS_UDP_ATTEMPTS ∧
        ∀ earlier < attempt, (net.udp i earlier).answer? = none := by
  rw [mem_queryDnsServers]
  constructor
  · rintro ⟨k, hreached, ⟨a, hlt, heq, hbefore⟩ | ⟨heq, -⟩⟩
    · cases heq
      exact ⟨hreached, hlt, hbefore⟩
    · cases heq
  · rintro ⟨hreached, hlt, hbefore⟩
    exact ⟨i, hreached, .inl ⟨attempt, hlt, rfl, hbefore⟩⟩

/-- TCP is tried where UDP decided nothing. -/
theorem tcp_mem_queryDnsServers {i : Nat} :
    Contact.tcp i ∈ (queryDnsServers net domain servers).2 ↔
      Reached net servers i ∧ UdpUndecided net i := by
  rw [mem_queryDnsServers]
  constructor
  · rintro ⟨k, hreached, ⟨a, hlt, heq, hbefore⟩ | ⟨heq, hund⟩⟩
    · cases heq
    · cases heq
      exact ⟨hreached, hund⟩
  · rintro ⟨hreached, hund⟩
    exact ⟨i, hreached, .inr ⟨rfl, hund⟩⟩

theorem queryDnsServers_ok :
    (queryDnsServers net domain servers).1 = .ok response ↔
      ∃ i, Reached net servers i ∧ Concludes net i response := by
  rw [queryDnsServers, askServers_ok]
  simp only [Nat.zero_add]
  constructor
  · rintro ⟨i, ⟨hlt, hconcludes⟩, hbefore⟩
    exact ⟨i, ⟨hlt, hbefore⟩, hconcludes⟩
  · rintro ⟨i, ⟨hlt, hbefore⟩, hconcludes⟩
    exact ⟨i, ⟨hlt, hconcludes⟩, hbefore⟩

/-- A conclusive server has a first one at or before it. -/
theorem exists_reached {i : Nat} (hlt : i < servers.length) (h : Conclusive net i) :
    ∃ first ≤ i, Reached net servers first ∧ Conclusive net first := by
  classical
  have hex : ∃ i, Conclusive net i := ⟨i, h⟩
  have hle : Nat.find hex ≤ i := Nat.find_le h
  refine ⟨Nat.find hex, hle, ⟨Nat.lt_of_le_of_lt hle hlt, fun j hj => ?_⟩, Nat.find_spec hex⟩
  exact Nat.find_min hex hj

/-- **The fallback**, for every network: the query returns the answer of the first conclusive server
    and asks none behind it; it fails if there is none. TCP is asked exactly at the servers it
    comes to where UDP gave no untruncated answer, and a truncated response is never one that
    came over UDP. -/
theorem query_dns_servers_fallback (net : Network (DnsResponse Name Signature Rest))
    (domain : String) (servers : List SocketAddr) :
    (∀ response, (queryDnsServers net domain servers).1 = .ok response ↔
      ∃ i < servers.length, Concludes net i response ∧ ∀ j < i, ¬ Conclusive net j) ∧
    ((∃ response, (queryDnsServers net domain servers).1 = .ok response) ↔
      ∃ i < servers.length, Conclusive net i) ∧
    (∀ i < servers.length, Conclusive net i →
      ∀ contact ∈ (queryDnsServers net domain servers).2, contact.server ≤ i) ∧
    (∀ i attempt, Contact.udp i attempt ∈ (queryDnsServers net domain servers).2 ↔
      Reached net servers i ∧ attempt < DNS_UDP_ATTEMPTS ∧
        ∀ earlier < attempt, (net.udp i earlier).answer? = none) ∧
    (∀ i, Contact.tcp i ∈ (queryDnsServers net domain servers).2 ↔
      Reached net servers i ∧ UdpUndecided net i) ∧
    (∀ response, (queryDnsServers net domain servers).1 = .ok response →
      response.rest.rest.truncation = true →
      ∃ i, Contact.tcp i ∈ (queryDnsServers net domain servers).2 ∧
        net.tcp i = .answer response) := by
  refine ⟨fun response => ?_, ⟨?_, ?_⟩, ?_, fun i attempt => udp_mem_queryDnsServers,
    fun i => tcp_mem_queryDnsServers, ?_⟩
  · rw [queryDnsServers_ok]
    constructor
    · rintro ⟨i, ⟨hlt, hbefore⟩, hconcludes⟩
      exact ⟨i, hlt, hconcludes, hbefore⟩
    · rintro ⟨i, hlt, hconcludes, hbefore⟩
      exact ⟨i, ⟨hlt, hbefore⟩, hconcludes⟩
  · rintro ⟨response, h⟩
    obtain ⟨i, hreached, hconcludes⟩ := queryDnsServers_ok.mp h
    exact ⟨i, hreached.1, response, hconcludes⟩
  · rintro ⟨i, hlt, hconclusive⟩
    obtain ⟨first, -, hreached, response, hconcludes⟩ := exists_reached hlt hconclusive
    exact ⟨response, queryDnsServers_ok.mpr ⟨first, hreached, hconcludes⟩⟩
  · intro i _ hconclusive contact hcontact
    obtain ⟨k, hreached, hat⟩ := mem_queryDnsServers.mp hcontact
    have hserver : contact.server = k := by
      rcases hat with ⟨attempt, -, rfl, -⟩ | ⟨rfl, -⟩
      · rfl
      · rfl
    rw [hserver]
    exact Nat.le_of_not_lt fun hlt => hreached.2 i hlt hconclusive
  · intro response h hcut
    obtain ⟨i, hreached, hconcludes⟩ := queryDnsServers_ok.mp h
    cases hconcludes with
    | overUdp _ whole _ =>
      rw [hcut] at whole
      cases whole
    | overTcp undecided answered _ =>
      exact ⟨i, tcp_mem_queryDnsServers.mpr ⟨hreached, undecided⟩, answered⟩

end Queries

end Tun2Proxy.Direct
