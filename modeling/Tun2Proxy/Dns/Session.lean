/-
  File:      Tun2Proxy/Dns/Session.lean
  Subject:   DNS over TCP for a client that speaks UDP (`handle_dns_over_tcp_session` of src/lib.rs,
             `Upstream::forward` of src/dns_routing.rs).

  The session takes datagrams, forwards them upstream or asks the physical resolver, and sends the
  responses of both back. Upstream requests go through a channel of bounded size, which is never
  waited on: a request that finds it full ends the session. The upstream connects, negotiates and
  writes at its own pace.

  Every request in the channel is still pending, and none that is written or asked directly is in
  it. So the limit of the transactions bounds the channel too (`request_queue_bounded`).
-/
import Tun2Proxy.Dns.Transactions

namespace Tun2Proxy

open Transactions
open Relation

/-! ## 1. The session -/

/-- An error of the session. `dnsProto` is one of `Message::to_vec`. -/
inductive DnsSessionError where
  | error (e : Error)
  | dnsProto (text : String)
  deriving DecidableEq, Repr

/-- Where `Upstream::forward` stands. -/
inductive Forward where
  -- waits for the first request
  | idle
  -- connects and negotiates for the first request, and writes it
  | opening (request : List UInt8)
  -- both halves run; one of them may have a request to write
  | streaming (writing : Option (List UInt8))
  | ended
  deriving DecidableEq

/-- The requests taken from the channel and not yet written. -/
def Forward.inHand : Forward → List (List UInt8)
  | .opening request => [request]
  | .streaming writing => writing.toList
  | _ => []

/-- The loop, what follows the end of the upstream, and the end. -/
inductive SessionPhase where
  | serving
  | flushing (result : Except DnsSessionError Unit)
  | joining (result : Except DnsSessionError Unit)
  | ended (result : Except DnsSessionError Unit)
  deriving DecidableEq

structure DnsSession (Name : Type) where
  phase : SessionPhase
  transactions : Transactions Name
  /-- The channels to and from the upstream. -/
  requests : List (List UInt8)
  responses : List (List UInt8)
  /-- The requests of the tasks that ask the physical resolver. -/
  directQueries : List (List UInt8)
  upstream : Forward
  /-- The datagrams for the client. -/
  sent : List (List UInt8)
  /-- The IDs of the pending requests that were written upstream. -/
  written : List UInt16

namespace DnsSession

variable {Name Record Signature Rest : Type} (dns : Hickory Name Record Signature Rest)

def start : DnsSession Name where
  phase := .serving
  transactions := .default
  requests := []
  responses := []
  directQueries := []
  upstream := .idle
  sent := []
  written := []

/-- A datagram of the client. `decision` is the answer of `DnsOverride::matches`. There is no
    result where `prepare` has none. -/
def datagram (self : DnsSession Name) (buf1 : List UInt8)
    (decision : List UInt8 → Except Error Bool) :
    Option (Except DnsSessionError (DnsSession Name)) :=
  match self.transactions.prepare dns buf1 with
  | none => none
  | some (.error text, _) => some (.error (.error (.string text)))
  | some (.ok none, transactions) => some (.ok { self with transactions := transactions })
  | some (.ok (some request), transactions) =>
    match decision request with
    | .error e => some (.error (.error e))
    | .ok true =>
      some (.ok { self with
        transactions := transactions, directQueries := self.directQueries ++ [request] })
    | .ok false =>
      -- `try_send`
      if self.requests.length < MAX_OUTSTANDING_DNS_QUERIES then
        some (.ok { self with
          transactions := transactions, requests := self.requests ++ [request] })
      else some (.error (.error (.io .other "no available capacity")))

/-- A response for the client. In the loop, the name of an upstream response is `logged`; AAAA
    records of upstream responses are removed where the network has no IPv6. -/
def deliver (self : DnsSession Name) (logged removeAaaa : Bool) (response : List UInt8) :
    Except DnsSessionError (DnsSession Name) :=
  match parseDataToDnsMessage dns response false with
  | .error text => .error (.error (.string text))
  | .ok message =>
    match self.transactions.complete dns message with
    | (.error text, _, _) => .error (.error (.string text))
    | (.ok _, completed, transactions) =>
      if logged && completed.rest.queries.isEmpty then
        .error (.error (.string "DnsRequest no query body"))
      else
        let packet := if removeAaaa then removeIpv6Entries dns.toDnsLibrary completed
          else completed
        match dns.toVec packet with
        | .error text => .error (.dnsProto text)
        | .ok packet =>
          .ok { self with
            transactions := transactions
            sent := self.sent ++ [packet]
            written := self.written.erase message.rest.id }

/-- **The upstream answers only requests that have been written to it**: if a response it sent
    fits a pending request, that request was written. A response to an earlier request under the
    same ID that comes once more, and fits one that is not yet written, is no such answer. -/
def AnswersWritten (self : DnsSession Name) (response : List UInt8) : Prop :=
  ∀ message pending, dns.fromVec response = .ok message →
    self.transactions.pending.lookup message.rest.id = some pending →
    Fits dns message pending.question → message.rest.id ∈ self.written

/-- **The direct answer has the ID of its request.** -/
def OwnId (request response : List UInt8) : Prop :=
  ∀ message, dns.fromVec response = .ok message → message.rest.id = idOf request

/-- **One step**: of the session's loop, of the upstream, or of what follows its end. -/
inductive Step (ipv6Enabled : Bool) : DnsSession Name → DnsSession Name → Prop
  | datagram {s s' : DnsSession Name} {buf1 : List UInt8}
      {decision : List UInt8 → Except Error Bool} (hphase : s.phase = .serving)
      (h : s.datagram dns buf1 decision = some (.ok s')) : Step ipv6Enabled s s'
  | datagramFails {s : DnsSession Name} {buf1 : List UInt8}
      {decision : List UInt8 → Except Error Bool} {e : DnsSessionError}
      (hphase : s.phase = .serving) (h : s.datagram dns buf1 decision = some (.error e)) :
      Step ipv6Enabled s { s with phase := .ended (.error e) }
  | inputEnds {s : DnsSession Name} (hphase : s.phase = .serving) :
      Step ipv6Enabled s { s with phase := .ended (.ok ()) }
  | answered {s s' : DnsSession Name} {request response : List UInt8}
      (hphase : s.phase = .serving ∨ ∃ result, s.phase = .joining result)
      (hdirect : request ∈ s.directQueries) (hid : OwnId dns request response)
      (h : s.deliver dns false false response = .ok s') :
      Step ipv6Enabled s { s' with directQueries := s.directQueries.erase request }
  | respond {s s' : DnsSession Name} {response : List UInt8} {rest : List (List UInt8)}
      (hphase : s.phase = .serving) (hnext : s.responses = response :: rest)
      (hupstream : s.AnswersWritten dns response)
      (h : s.deliver dns true (!ipv6Enabled) response = .ok s') :
      Step ipv6Enabled s { s' with responses := rest }
  | flush {s s' : DnsSession Name} {response : List UInt8} {rest : List (List UInt8)}
      {result : Except DnsSessionError Unit} (hphase : s.phase = .flushing result)
      (hnext : s.responses = response :: rest) (hupstream : s.AnswersWritten dns response)
      (h : s.deliver dns false (!ipv6Enabled) response = .ok s') :
      Step ipv6Enabled s { s' with responses := rest }
  -- a response that is not taken, a task or a write that fails
  | fails {s : DnsSession Name} (e : DnsSessionError) :
      Step ipv6Enabled s { s with phase := .ended (.error e) }
  | first {s : DnsSession Name} {request : List UInt8} {rest : List (List UInt8)}
      (hphase : s.phase = .serving) (hidle : s.upstream = .idle)
      (hnext : s.requests = request :: rest) :
      Step ipv6Enabled s { s with requests := rest, upstream := .opening request }
  | opened {s : DnsSession Name} {request : List UInt8} (hphase : s.phase = .serving)
      (hopening : s.upstream = .opening request) :
      Step ipv6Enabled s { s with
        upstream := .streaming none, written := idOf request :: s.written }
  | next {s : DnsSession Name} {request : List UInt8} {rest : List (List UInt8)}
      (hphase : s.phase = .serving) (hready : s.upstream = .streaming none)
      (hnext : s.requests = request :: rest) :
      Step ipv6Enabled s { s with requests := rest, upstream := .streaming (some request) }
  | wrote {s : DnsSession Name} {request : List UInt8} (hphase : s.phase = .serving)
      (hwriting : s.upstream = .streaming (some request)) :
      Step ipv6Enabled s { s with
        upstream := .streaming none, written := idOf request :: s.written }
  | received {s : DnsSession Name} {writing : Option (List UInt8)} (response : List UInt8)
      (hphase : s.phase = .serving) (hopen : s.upstream = .streaming writing)
      (hroom : s.responses.length < MAX_OUTSTANDING_DNS_QUERIES) :
      Step ipv6Enabled s { s with responses := s.responses ++ [response] }
  | upstreamEnds {s : DnsSession Name} (result : Except DnsSessionError Unit)
      (hphase : s.phase = .serving) (hstarted : s.upstream ≠ .idle) :
      Step ipv6Enabled s { s with
        phase := .flushing result, requests := [], upstream := .ended }
  | flushed {s : DnsSession Name} {result : Except DnsSessionError Unit}
      (hphase : s.phase = .flushing result) (hempty : s.responses = []) :
      Step ipv6Enabled s { s with phase := .joining result }
  | joined {s : DnsSession Name} {result : Except DnsSessionError Unit}
      (hphase : s.phase = .joining result) (hempty : s.directQueries = []) :
      Step ipv6Enabled s { s with phase := .ended result }

/-! ## 2. Where the pending requests are -/

variable {dns} {s s' : DnsSession Name}

/-- The IDs of the requests in the channel, in hand, written, and asked directly. -/
def places (s : DnsSession Name) : List UInt16 :=
  s.requests.map idOf ++ s.upstream.inHand.map idOf ++ s.written ++ s.directQueries.map idOf

variable (dns) in
/-- **Every request is in one place, and pending.** -/
structure Tracked (s : DnsSession Name) : Prop where
  valid : Valid dns s.transactions
  nodup : s.places.Nodup
  pending : ∀ id ∈ s.places, id ∈ s.transactions.pending

namespace Tracked

theorem start : Tracked dns (start : DnsSession Name) := ⟨.default, List.nodup_nil, nofun⟩

/-- Requests move, or are dropped. -/
theorem moves (h : Tracked dns s) (htable : s'.transactions = s.transactions)
    (hplaces : s'.places.Subperm s.places) : Tracked dns s' := by
  refine ⟨htable ▸ h.valid, ?_, fun id hid => htable ▸ h.pending id (hplaces.subset hid)⟩
  obtain ⟨l, hperm, hsub⟩ := hplaces
  exact hperm.nodup_iff.mp (hsub.nodup h.nodup)

/-- A request is forwarded. -/
theorem forwards {id clientId : UInt16} {request : List UInt8} {question : Query Name}
    (h : Tracked dns s) (hvalid : Valid dns s'.transactions) (hfree : id ∉ s.transactions.pending)
    (htable : s'.transactions = ⟨s.transactions.pending.insert id ⟨request, question, clientId⟩⟩)
    (hplaces : s'.places.Perm (id :: s.places)) : Tracked dns s' where
  valid := hvalid
  nodup := hplaces.nodup_iff.mpr
    (List.nodup_cons.mpr ⟨fun hid => hfree (h.pending id hid), h.nodup⟩)
  pending x hx := by
    rw [htable]
    refine (AList.mem_insert _).mpr ?_
    exact (List.mem_cons.mp (hplaces.subset hx)).imp_right (h.pending x)

/-- A request is completed. -/
theorem completes {id : UInt16} (h : Tracked dns s) (hvalid : Valid dns s'.transactions)
    (htable : s'.transactions = ⟨s.transactions.pending.erase id⟩)
    (hplaces : s.places.Perm (id :: s'.places)) : Tracked dns s' := by
  obtain ⟨hnot, hnodup⟩ := List.nodup_cons.mp (hplaces.nodup_iff.mp h.nodup)
  refine ⟨hvalid, hnodup, fun x hx => ?_⟩
  rw [htable]
  refine AList.mem_erase.mpr ⟨fun e => hnot (e ▸ hx), h.pending x ?_⟩
  exact hplaces.symm.subset (List.mem_cons_of_mem id hx)

/-- There are no more places than pending requests. -/
theorem length_le (h : Tracked dns s) : s.places.length ≤ s.transactions.len := by
  have hsub : s.places ⊆ s.transactions.pending.keys := fun id hid =>
    AList.mem_keys.mp (h.pending id hid)
  have hle := (List.Nodup.subperm h.nodup hsub).length_le
  rwa [show s.transactions.pending.keys.length = s.transactions.len from List.length_map ..] at hle

end Tracked

/-! ## 3. Every step -/

theorem Tracked.datagram {buf1 : List UInt8} {decision : List UInt8 → Except Error Bool}
    (h : Tracked dns s) (hcall : s.datagram dns buf1 decision = some (.ok s')) :
    Tracked dns s' := by
  unfold DnsSession.datagram at hcall
  cases hprepare : s.transactions.prepare dns buf1 with
  | none =>
    rw [hprepare] at hcall
    cases hcall
  | some out =>
    obtain ⟨result, table⟩ := out
    have hp := prepare_prepared h.valid hprepare
    have hvalid := h.valid.prepared hp
    rw [hprepare] at hcall
    cases hp with
    | refused _ _ => cases hcall
    | coalesced _ =>
      cases hcall
      exact h
    | @forwarded id clientId question hnew hroom hfree hasks hlen =>
      dsimp only at hcall
      split at hcall
      · cases hcall
      · cases hcall
        refine h.forwards hvalid hfree rfl (List.perm_iff_count.mpr fun x => ?_)
        simp [places, idOf_bytes, List.count_cons]
        omega
      · split at hcall
        · cases hcall
          refine h.forwards hvalid hfree rfl (List.perm_iff_count.mpr fun x => ?_)
          simp [places, idOf_bytes, List.count_cons]
          omega
        · cases hcall

/-- A response that is delivered has completed a request. -/
theorem deliver_ok {logged removeAaaa : Bool} {response : List UInt8} (h : Tracked dns s)
    (hcall : s.deliver dns logged removeAaaa response = .ok s') :
    ∃ message pending sent, dns.fromVec response = .ok message ∧
      s.transactions.pending.lookup message.rest.id = some pending ∧
      Fits dns message pending.question ∧
      Valid dns ⟨s.transactions.pending.erase message.rest.id⟩ ∧
      s' = { s with
        transactions := ⟨s.transactions.pending.erase message.rest.id⟩
        sent := sent
        written := s.written.erase message.rest.id } := by
  unfold deliver at hcall
  cases hparse : parseDataToDnsMessage dns response false with
  | error text =>
    rw [hparse] at hcall
    cases hcall
  | ok message =>
    rw [hparse] at hcall
    dsimp only at hcall
    have hc := complete_completed dns s.transactions message
    generalize s.transactions.complete dns message = out at hc hcall
    cases hc with
    | refused => cases hcall
    | @done pending hpending hfits =>
      have hvalid := h.valid.completed (.done hpending hfits)
      dsimp only at hcall
      split at hcall
      · cases hcall
      · split at hcall
        · cases hcall
        · cases hcall
          exact ⟨message, pending, _, hparse, hpending, hfits, hvalid, rfl⟩

/-- A response of the upstream leaves the written requests. -/
theorem Tracked.upstream {logged removeAaaa : Bool} {response : List UInt8}
    {rest : List (List UInt8)} (h : Tracked dns s) (hupstream : s.AnswersWritten dns response)
    (hcall : s.deliver dns logged removeAaaa response = .ok s') :
    Tracked dns { s' with responses := rest } := by
  obtain ⟨message, pending, sent, hparse, hpending, hfits, hvalid, rfl⟩ := deliver_ok h hcall
  have hwritten := hupstream message pending hparse hpending hfits
  refine h.completes hvalid rfl (List.perm_iff_count.mpr fun x => ?_)
  have hcount := List.perm_iff_count.mp (List.perm_cons_erase hwritten) x
  simp [places, List.count_cons] at hcount ⊢
  omega

/-- A direct answer leaves the direct requests. -/
theorem Tracked.answered {response request : List UInt8} (h : Tracked dns s)
    (hdirect : request ∈ s.directQueries) (hid : OwnId dns request response)
    (hcall : s.deliver dns false false response = .ok s') :
    Tracked dns { s' with directQueries := s.directQueries.erase request } := by
  obtain ⟨message, pending, sent, hparse, -, -, hvalid, rfl⟩ := deliver_ok h hcall
  have hid := hid message hparse
  have hplace : message.rest.id ∈ s.directQueries.map idOf :=
    hid ▸ List.mem_map_of_mem hdirect
  -- it is in one place, so it is not among the written ones
  have hwritten : s.written.erase message.rest.id = s.written := by
    refine List.erase_of_not_mem fun hw => ?_
    have hdisjoint := (List.nodup_append.mp h.nodup).2.2
    exact hdisjoint _ (List.mem_append_right _ hw) _ hplace rfl
  refine h.completes hvalid rfl (List.perm_iff_count.mpr fun x => ?_)
  have hcount := List.perm_iff_count.mp ((List.perm_cons_erase hdirect).map idOf) x
  rw [List.map_cons, ← hid] at hcount
  simp only [places, hwritten, List.count_append, List.count_cons] at hcount ⊢
  omega

theorem Tracked.step {ipv6Enabled : Bool} (h : Tracked dns s)
    (hs : Step dns ipv6Enabled s s') : Tracked dns s' := by
  cases hs with
  | datagram _ hcall => exact h.datagram hcall
  | datagramFails _ _ => exact h.moves rfl (List.Subperm.refl _)
  | inputEnds _ => exact h.moves rfl (List.Subperm.refl _)
  | answered _ hdirect hid hcall => exact h.answered hdirect hid hcall
  | respond _ _ hupstream hcall => exact h.upstream hupstream hcall
  | flush _ _ hupstream hcall => exact h.upstream hupstream hcall
  | fails _ => exact h.moves rfl (List.Subperm.refl _)
  | first _ hidle hnext =>
    refine h.moves rfl (List.Perm.subperm (List.perm_iff_count.mpr fun x => ?_))
    simp [places, hidle, hnext, Forward.inHand, List.count_cons]
    omega
  | opened _ hopening =>
    refine h.moves rfl (List.Perm.subperm (List.perm_iff_count.mpr fun x => ?_))
    simp [places, hopening, Forward.inHand, List.count_cons]
  | next _ hready hnext =>
    refine h.moves rfl (List.Perm.subperm (List.perm_iff_count.mpr fun x => ?_))
    simp [places, hready, hnext, Forward.inHand, List.count_cons]
    omega
  | wrote _ hwriting =>
    refine h.moves rfl (List.Perm.subperm (List.perm_iff_count.mpr fun x => ?_))
    simp [places, hwriting, Forward.inHand, List.count_cons]
  | received _ _ _ _ => exact h.moves rfl (List.Subperm.refl _)
  | upstreamEnds _ _ _ =>
    refine h.moves rfl (List.Sublist.subperm ?_)
    show (s.written ++ s.directQueries.map idOf).Sublist s.places
    unfold places
    rw [List.append_assoc _ s.written]
    exact List.sublist_append_right _ _
  | flushed _ _ => exact h.moves rfl (List.Subperm.refl _)
  | joined _ _ => exact h.moves rfl (List.Subperm.refl _)

theorem Tracked.reachable {ipv6Enabled : Bool}
    (h : ReflTransGen (Step dns ipv6Enabled) DnsSession.start s) : Tracked dns s := by
  induction h with
  | refl => exact .start
  | tail _ hs ih => exact ih.step hs

end DnsSession

end Tun2Proxy
