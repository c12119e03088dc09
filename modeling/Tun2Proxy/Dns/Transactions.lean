/-
  File:      Tun2Proxy/Dns/Transactions.lean
  Subject:   DNS requests on one connection and their responses (src/dns_transactions.rs).

  A request goes upstream under an ID that no pending request has, and its response goes back under
  the ID the client chose. The history of a table is the ledger of all requests it has forwarded;
  the table is what the ledger has outstanding (`History.Faithful`), so a response that is accepted
  is the answer to exactly one of them (`transactions_correlate`).
-/
import Mathlib.Data.List.AList
import Tun2Proxy.Dns.Wire
import Tun2Proxy.Lib.Correlation
import Tun2Proxy.Lib.Maps

namespace Tun2Proxy

open BigEndian
open Correlation

/-- As in src/lib.rs. -/
def MAX_OUTSTANDING_DNS_QUERIES : Nat := 256

/-! ## 1. The table -/

structure Pending (Name : Type) where
  request : List UInt8
  question : Query Name
  clientId : UInt16

structure Transactions (Name : Type) where
  pending : AList fun _ : UInt16 => Pending Name

namespace Transactions

variable {Name Record Signature Rest : Type}

def default : Transactions Name := ⟨∅⟩

/-- The requests of the table. -/
def requests (self : Transactions Name) : List (List UInt8) :=
  self.pending.entries.map fun e => e.2.request

def len (self : Transactions Name) : Nat := self.pending.entries.length

variable (dns : Hickory Name Record Signature Rest)

/-- `prepare`. There is no result where it does not return: the search for an ID goes round for
    ever once it has met every ID, and a request without room for an ID panics. -/
def prepare (self : Transactions Name) (request : List UInt8) :
    Option (Except String (Option (List UInt8)) × Transactions Name) :=
  match parseDataToDnsMessage dns request false with
  | .error e => some (.error e, self)
  | .ok query =>
    match validateDnsQuery query with
    | .error e => some (.error e, self)
    | .ok question =>
      if self.pending.entries.any fun e => e.2.request == request then some (.ok none, self)
      else if MAX_OUTSTANDING_DNS_QUERIES ≤ self.len then
        some (.error
          s!"DNS-over-TCP outstanding query limit reached ({MAX_OUTSTANDING_DNS_QUERIES})",
          self)
      else
        match probe (· + 1) (fun id => decide (id ∈ self.pending)) (2 ^ 16) query.rest.id with
        | none => none
        | some upstreamId =>
          if request.length < 2 then none
          else
            some (.ok (some (bytes 2 upstreamId.toNat ++ request.drop 2)),
              ⟨self.pending.insert upstreamId ⟨request, question, query.rest.id⟩⟩)

/-- `complete`: its result, the message and the table afterwards. -/
def complete (self : Transactions Name) (response : Message Name Record Signature Rest) :
    Except String Unit × Message Name Record Signature Rest × Transactions Name :=
  match self.pending.lookup response.rest.id with
  | none =>
    let id := response.rest.id
    (.error s!"unsolicited DNS-over-TCP response ID {id}", response, self)
  | some pending =>
    match validateDnsResponse dns response response.rest.id pending.question with
    | .error e => (.error e, response, self)
    | .ok _ =>
      (.ok (), { response with rest := { response.rest with id := pending.clientId } },
        ⟨self.pending.erase response.rest.id⟩)

/-! ## 2. One call -/

/-- The request is a query with the ID and the question. -/
def Asks (request : List UInt8) (id : UInt16) (question : Query Name) : Prop :=
  ∃ query, parseDataToDnsMessage dns request false = .ok query ∧
    validateDnsQuery query = .ok question ∧ query.rest.id = id

/-- **A table that calls can build**: it is within the limit, its requests differ, and an entry is
    what its request asks. -/
structure Valid (table : Transactions Name) : Prop where
  bound : table.len ≤ MAX_OUTSTANDING_DNS_QUERIES
  distinct : table.requests.Nodup
  asks : ∀ id pending, table.pending.lookup id = some pending →
    Asks dns pending.request pending.clientId pending.question

variable {dns} {self table : Transactions Name} {request : List UInt8}
  {response message : Message Name Record Signature Rest}

theorem mem_requests : request ∈ self.requests ↔
    ∃ id pending, self.pending.lookup id = some pending ∧ pending.request = request := by
  unfold requests
  rw [List.mem_map]
  constructor
  · intro h
    obtain ⟨⟨id, pending⟩, he, hr⟩ := h
    exact ⟨id, pending, AList.mem_lookup_iff.mpr he, hr⟩
  · intro h
    obtain ⟨id, pending, he, hr⟩ := h
    exact ⟨⟨id, pending⟩, AList.mem_lookup_iff.mp he, hr⟩

theorem any_requests : (self.pending.entries.any fun e => e.2.request == request) = true ↔
    request ∈ self.requests := by
  unfold requests
  rw [List.any_eq_true, List.mem_map]
  exact exists_congr fun e => and_congr_right fun _ => beq_iff_eq

/-- The IDs from any one on come round after 2¹⁶ steps. -/
theorem id_iterate (id : UInt16) (n : Nat) : (· + 1)^[n] id = id + UInt16.ofNat n := by
  induction n with
  | zero => simp
  | succ n ih =>
    rw [Function.iterate_succ_apply', ih, UInt16.ofNat_add, UInt16.add_assoc]
    rfl

theorem id_fresh (id : UInt16) : ∀ m < 2 ^ 16, ∀ n < 2 ^ 16,
    (· + 1)^[m] id = (· + 1)^[n] id → m = n := by
  intro m hm n hn h
  rw [id_iterate, id_iterate] at h
  have h := congrArg UInt16.toNat ((UInt16.add_right_inj id).mp h)
  rwa [UInt16.toNat_ofNat_of_lt' hm, UInt16.toNat_ofNat_of_lt' hn] at h

/-- **What a preparation can do**: refuse, join a pending request, or forward. -/
inductive Prepared (dns : Hickory Name Record Signature Rest) (self : Transactions Name)
    (request : List UInt8) : Except String (Option (List UInt8)) → Transactions Name → Prop
  | refused {e : String} (hnew : request ∉ self.requests)
      (hwhy : (∀ id question, ¬ Asks dns request id question) ∨
        MAX_OUTSTANDING_DNS_QUERIES ≤ self.len) :
      Prepared dns self request (.error e) self
  | coalesced (hpending : request ∈ self.requests) : Prepared dns self request (.ok none) self
  | forwarded {id clientId : UInt16} {question : Query Name} (hnew : request ∉ self.requests)
      (hroom : self.len < MAX_OUTSTANDING_DNS_QUERIES) (hfree : id ∉ self.pending)
      (hasks : Asks dns request clientId question) (hlen : 2 ≤ request.length) :
      Prepared dns self request (.ok (some (bytes 2 id.toNat ++ request.drop 2)))
        ⟨self.pending.insert id ⟨request, question, clientId⟩⟩

/-- It returns with one of these, unless there is no free ID or no room for one. -/
theorem prepare_cases (h : Valid dns self) (request : List UInt8) :
    (∃ result table, self.prepare dns request = some (result, table) ∧
      Prepared dns self request result table) ∨
    (self.prepare dns request = none ∧ self.len < MAX_OUTSTANDING_DNS_QUERIES ∧
      ∃ query, dns.fromVec request = .ok query ∧ (request.length < 2 ∨
        probe (· + 1) (fun id => decide (id ∈ self.pending)) (2 ^ 16) query.rest.id = none)) := by
  have hmalformed : (∀ id question, ¬ Asks dns request id question) →
      request ∉ self.requests := by
    intro hnot hr
    obtain ⟨id, pending, he, rfl⟩ := mem_requests.mp hr
    exact hnot _ _ (h.asks id pending he)
  unfold prepare
  cases hparse : parseDataToDnsMessage dns request false with
  | error e =>
    have hnot : ∀ id question, ¬ Asks dns request id question := by
      intro id question hasks
      obtain ⟨query, hquery, -⟩ := hasks
      cases hparse.symm.trans hquery
    exact .inl ⟨_, _, rfl, .refused (hmalformed hnot) (.inl hnot)⟩
  | ok query =>
    dsimp only
    cases hvalidate : validateDnsQuery query with
    | error e =>
      have hnot : ∀ id question, ¬ Asks dns request id question := by
        intro id question hasks
        obtain ⟨query', hquery, hask, -⟩ := hasks
        cases hparse.symm.trans hquery
        cases hvalidate.symm.trans hask
      exact .inl ⟨_, _, rfl, .refused (hmalformed hnot) (.inl hnot)⟩
    | ok question =>
      dsimp only
      by_cases hr : request ∈ self.requests
      · rw [if_pos (any_requests.mpr hr)]
        exact .inl ⟨_, _, rfl, .coalesced hr⟩
      rw [if_neg fun e => hr (any_requests.mp e)]
      by_cases hfull : MAX_OUTSTANDING_DNS_QUERIES ≤ self.len
      · rw [if_pos hfull]
        exact .inl ⟨_, _, rfl, .refused hr (.inr hfull)⟩
      rw [if_neg hfull]
      have hroom := Nat.lt_of_not_le hfull
      cases hid : probe (· + 1) (fun id => decide (id ∈ self.pending)) (2 ^ 16)
        query.rest.id with
      | none => exact .inr ⟨rfl, hroom, query, hparse, .inr hid⟩
      | some id =>
        have hfree := probe_free hid
        dsimp only
        by_cases hlen : request.length < 2
        · rw [if_pos hlen]
          exact .inr ⟨rfl, hroom, query, hparse, .inl hlen⟩
        · rw [if_neg hlen]
          exact .inl ⟨_, _, rfl, .forwarded hr hroom (of_decide_eq_false hfree)
            ⟨query, hparse, hvalidate, rfl⟩ (Nat.le_of_not_lt hlen)⟩

theorem prepare_prepared {result : Except String (Option (List UInt8))} (h : Valid dns self)
    (hcall : self.prepare dns request = some (result, table)) :
    Prepared dns self request result table := by
  rcases prepare_cases h request with ⟨result', table', hcall', hp⟩ | ⟨hnone, -⟩
  · cases hcall.symm.trans hcall'
    exact hp
  · cases hcall.symm.trans hnone

/-- **A preparation returns**: at most 255 IDs are taken. -/
theorem prepare_returns (hdns : dns.ReadsHeader) (h : Valid dns self) (request : List UInt8) :
    ∃ result table, self.prepare dns request = some (result, table) ∧
      Prepared dns self request result table := by
  rcases prepare_cases h request with hcall | ⟨-, hroom, query, hparse, hstuck⟩
  · exact hcall
  rcases hstuck with hlen | hnone
  · have := (hdns request query hparse).1
    omega
  · have hfew : self.pending.keys.length < 2 ^ 16 := by
      have hkeys : self.pending.keys.length = self.len := List.length_map ..
      unfold MAX_OUTSTANDING_DNS_QUERIES at hroom
      omega
    obtain ⟨id, hid⟩ : ∃ id, probe (· + 1) (fun id => decide (id ∈ self.pending)) (2 ^ 16)
        query.rest.id = some id :=
      probe_finds (fun k hk => AList.mem_keys.mp (of_decide_eq_true hk)) (id_fresh _) hfew
    cases hnone.symm.trans hid

/-- **What a completion can do**: refuse, or end the request under the ID. -/
inductive Completed (dns : Hickory Name Record Signature Rest) (self : Transactions Name)
    (response : Message Name Record Signature Rest) :
    Except String Unit × Message Name Record Signature Rest × Transactions Name → Prop
  | refused {e : String} : Completed dns self response (.error e, response, self)
  | done {pending : Pending Name} (hpending : self.pending.lookup response.rest.id = some pending)
      (hfits : Fits dns response pending.question) :
      Completed dns self response
        (.ok (), { response with rest := { response.rest with id := pending.clientId } },
          ⟨self.pending.erase response.rest.id⟩)

theorem complete_completed (dns : Hickory Name Record Signature Rest) (self : Transactions Name)
    (response : Message Name Record Signature Rest) :
    Completed dns self response (self.complete dns response) := by
  unfold complete
  split
  · exact .refused
  · rename_i pending hpending
    split
    · exact .refused
    · rename_i hok
      exact .done hpending (validateDnsResponse_ok.mp hok).2

theorem Valid.default : Valid dns (default : Transactions Name) where
  bound := Nat.zero_le _
  distinct := List.nodup_nil
  asks id pending h := by cases h

theorem Valid.prepared {result : Except String (Option (List UInt8))} (h : Valid dns self)
    (hp : Prepared dns self request result table) : Valid dns table := by
  cases hp with
  | refused _ _ => exact h
  | coalesced _ => exact h
  | @forwarded id clientId question hnew hroom hfree hasks hlen =>
    have hentries : (self.pending.insert id ⟨request, question, clientId⟩).entries =
        ⟨id, ⟨request, question, clientId⟩⟩ :: self.pending.entries :=
      AList.entries_insert_of_notMem hfree
    refine ⟨?_, ?_, fun x pending hx => ?_⟩
    · unfold len
      rw [hentries]
      exact hroom
    · unfold requests
      rw [hentries]
      exact List.nodup_cons.mpr ⟨hnew, h.distinct⟩
    · rw [AList.lookup_insert_ite] at hx
      split at hx
      · cases hx
        exact hasks
      · exact h.asks x pending hx

theorem Valid.completed {result : Except String Unit} (h : Valid dns self)
    (hc : Completed dns self response (result, message, table)) : Valid dns table := by
  cases hc with
  | refused => exact h
  | done hpending hfits =>
    have hsub : (self.pending.erase response.rest.id).entries.Sublist self.pending.entries :=
      List.kerase_sublist _ _
    refine ⟨hsub.length_le.trans h.bound, (hsub.map _).nodup h.distinct, fun x pending hx => ?_⟩
    rw [AList.lookup_erase_ite] at hx
    split at hx
    · cases hx
    · exact h.asks x pending hx

end Transactions

/-! ## 3. The history of a table -/

open Transactions

inductive DnsCall (Name Record Signature Rest : Type) where
  | prepare (request : List UInt8)
  | complete (response : Message Name Record Signature Rest)

/-- A table, and the requests it has forwarded under their IDs. -/
structure History (Name : Type) where
  table : Transactions Name
  ledger : Ledger UInt16 (List UInt8)

namespace History

variable {Name Record Signature Rest : Type} (dns : Hickory Name Record Signature Rest)

def start : History Name := ⟨.default, .empty⟩

def call (h : History Name) : DnsCall Name Record Signature Rest → History Name
  | .prepare request =>
    match h.table.prepare dns request with
    | some (.ok (some forwarded), table) => ⟨table, h.ledger.issue (idOf forwarded) request⟩
    | some (_, table) => ⟨table, h.ledger⟩
    | none => h
  | .complete response =>
    match h.table.complete dns response with
    | (.ok _, _, table) => ⟨table, h.ledger.answer response.rest.id⟩
    | (.error _, _, table) => ⟨table, h.ledger⟩

def run (calls : List (DnsCall Name Record Signature Rest)) : History Name :=
  calls.foldl (call dns) start

/-- **The table is what the ledger has outstanding.** -/
structure Faithful (h : History Name) : Prop where
  valid : Valid dns h.table
  outstanding : h.ledger.Exact fun id => (h.table.pending.lookup id).map Pending.request

variable {dns} {h : History Name}

theorem Faithful.start : Faithful dns (start : History Name) := ⟨.default, .empty⟩

theorem Faithful.call (hdns : dns.ReadsHeader) (hf : Faithful dns h)
    (c : DnsCall Name Record Signature Rest) : Faithful dns (h.call dns c) := by
  cases c with
  | prepare request =>
    obtain ⟨result, table, hcall, hp⟩ := prepare_returns hdns hf.valid request
    have hvalid := hf.valid.prepared hp
    dsimp only [History.call]
    rw [hcall]
    cases hp with
    | refused _ _ => exact hf
    | coalesced _ => exact hf
    | @forwarded id clientId question hnew hroom hfree hasks hlen =>
      refine ⟨hvalid, ?_⟩
      dsimp only
      rw [idOf_bytes]
      refine hf.outstanding.issue ?_ fun x => ?_
      · rw [AList.lookup_eq_none.mpr hfree]
        rfl
      · rw [AList.lookup_insert_ite]
        split <;> rfl
  | complete response =>
    have hc := complete_completed dns h.table response
    dsimp only [History.call]
    generalize h.table.complete dns response = out at hc
    cases hc with
    | refused => exact hf
    | done hpending hfits =>
      refine ⟨hf.valid.completed (.done hpending hfits), ?_⟩
      refine hf.outstanding.answer fun x => ?_
      rw [AList.lookup_erase_ite]
      split <;> rfl

theorem Faithful.run (hdns : dns.ReadsHeader) (calls : List (DnsCall Name Record Signature Rest)) :
    Faithful dns (run dns calls) := by
  suffices hrun : ∀ h : History Name, Faithful dns h →
      Faithful dns (calls.foldl (History.call dns) h) from hrun _ .start
  induction calls with
  | nil => exact fun h hf => hf
  | cons c calls ih => exact fun h hf => ih _ (hf.call hdns c)

/-! ## 4. Responses and requests -/

variable (dns)

/-- The response has the ID and the question of request number `n`, which is not answered. -/
def Answers (h : History Name) (response : Message Name Record Signature Rest) (n : Nat) : Prop :=
  ∃ request clientId question, h.ledger.Outstanding n response.rest.id request ∧
    Asks dns request clientId question ∧ Fits dns response question

/-- What a table does for its client and for the server. -/
structure Correlates (h : History Name) : Prop where
  bound : h.table.len ≤ MAX_OUTSTANDING_DNS_QUERIES
  distinct : h.table.requests.Nodup
  returns : ∀ request, ∃ result table, h.table.prepare dns request = some (result, table)
  coalesces : ∀ request,
    (∃ table, h.table.prepare dns request = some (.ok none, table)) ↔ request ∈ h.table.requests
  /-- All but the ID is as in the request. -/
  forwards : ∀ request forwarded table,
    h.table.prepare dns request = some (.ok (some forwarded), table) →
      ∃ id : UInt16, id ∉ h.table.pending ∧ 2 ≤ request.length ∧
        forwarded = bytes 2 id.toNat ++ request.drop 2 ∧
        ∃ pending, pending.request = request ∧ table = ⟨h.table.pending.insert id pending⟩
  /-- A response is taken if it answers one request, whose ID it then has. -/
  completes : ∀ response message table,
    h.table.complete dns response = (.ok (), message, table) →
      ∃ n request, (∀ m, Answers dns h response m ↔ m = n) ∧
        h.ledger.log[n]? = some (response.rest.id, request) ∧
        (h.call dns (.complete response)).ledger.answered = n :: h.ledger.answered ∧
        message = { response with rest := { response.rest with id := idOf request } } ∧
        table = ⟨h.table.pending.erase response.rest.id⟩
  once : h.ledger.answered.Nodup
  prepareFails : ∀ request e table,
    h.table.prepare dns request = some (.error e, table) → table = h.table
  completeFails : ∀ response e message table,
    h.table.complete dns response = (.error e, message, table) →
      message = response ∧ table = h.table

variable {dns}

/-- **DNS transactions.** After any calls: the pending requests are few and differ; a request that
    is not pending is forwarded with an ID of its own; a response completes exactly one request,
    which was forwarded and not completed, under the ID of its client; what fails changes
    nothing. -/
theorem transactions_correlate (hdns : dns.ReadsHeader)
    (calls : List (DnsCall Name Record Signature Rest)) : Correlates dns (run dns calls) := by
  have hf := Faithful.run hdns calls
  generalize run dns calls = h at hf
  refine ⟨hf.valid.bound, hf.valid.distinct, fun request => ?_, fun request => ⟨?_, ?_⟩, ?_, ?_,
    hf.outstanding.nodup, ?_, ?_⟩
  · obtain ⟨result, table, hcall, -⟩ := prepare_returns hdns hf.valid request
    exact ⟨result, table, hcall⟩
  · intro hcall
    obtain ⟨table, hcall⟩ := hcall
    cases prepare_prepared hf.valid hcall with
    | coalesced hpending => exact hpending
  · intro hpending
    obtain ⟨result, table, hcall, hp⟩ := prepare_returns hdns hf.valid request
    cases hp with
    | refused hnew _ => exact absurd hpending hnew
    | coalesced _ => exact ⟨_, hcall⟩
    | forwarded hnew _ _ _ _ => exact absurd hpending hnew
  · intro request forwarded table hcall
    cases prepare_prepared hf.valid hcall with
    | forwarded hnew hroom hfree hasks hlen => exact ⟨_, hfree, hlen, rfl, _, rfl, rfl⟩
  · intro response message table hcall
    have hc := complete_completed dns h.table response
    rw [hcall] at hc
    cases hc with
    | @done pending hpending hfits =>
      obtain ⟨n, hunder, hn⟩ := hf.outstanding.under_eq
        (show (h.table.pending.lookup response.rest.id).map Pending.request = some pending.request
          by rw [hpending]; rfl)
      have hasks := hf.valid.asks _ pending hpending
      have hid : pending.clientId = idOf pending.request := by
        obtain ⟨query, hparse, -, hid⟩ := hasks
        rw [← hid]
        exact (hdns _ _ hparse).2
      refine ⟨n, pending.request, fun m => ⟨fun hm => ?_, fun hm => ?_⟩, hn.2, ?_, ?_, rfl⟩
      · obtain ⟨request, clientId, question, hopen, -⟩ := hm
        exact hf.outstanding.one hopen hn
      · subst hm
        exact ⟨_, _, _, hn, hasks, hfits⟩
      · dsimp only [History.call]
        rw [hcall]
        show h.ledger.under response.rest.id ++ _ = _
        rw [hunder]
        rfl
      · rw [hid]
  · intro request e table hcall
    cases prepare_prepared hf.valid hcall with
    | refused _ _ => rfl
  · intro response e message table hcall
    have hc := complete_completed dns h.table response
    rw [hcall] at hc
    cases hc with
    | refused => exact ⟨rfl, rfl⟩

end History

/-! ## 5. A sample history -/

abbrev WireCall := DnsCall WireName (DnsRecord WireName) Unit (ResponseInfo Wire.Flags)

/-- A question of the sample client. -/
def sampleQuestion (id : UInt16) (letter : UInt8) : List UInt8 :=
  addressQuestion id 0x0100 (hostName letter)

/-- Two questions under one ID, a retry, and the response to the second question. -/
def sampleCalls : List WireCall :=
  [.prepare (sampleQuestion 0xFFFF 97), .prepare (sampleQuestion 0xFFFF 98),
    .prepare (sampleQuestion 0xFFFF 97), .complete (addressMessage 0 .response (hostName 98))]

/-- The second question goes out under ID 0, and its response, which is what the server's bytes
    say, ends it only. -/
theorem sample_transactions_correlate :
    wireNames.fromVec (addressQuestion 0 0x8100 (hostName 98)) =
        .ok (addressMessage 0 .response (hostName 98)) ∧
      History.Correlates wireNames.toHickory (History.run wireNames.toHickory sampleCalls) ∧
      (History.run wireNames.toHickory sampleCalls).ledger.log =
        [(0xFFFF, sampleQuestion 0xFFFF 97), (0, sampleQuestion 0xFFFF 98)] ∧
      (History.run wireNames.toHickory sampleCalls).ledger.answered = [1] ∧
      (History.run wireNames.toHickory sampleCalls).table.requests = [sampleQuestion 0xFFFF 97] :=
  ⟨by decide +kernel, History.transactions_correlate wireNames_readsHeader sampleCalls,
    by decide +kernel, by decide +kernel, by decide +kernel⟩

end Tun2Proxy
