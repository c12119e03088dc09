/-
  File:      Tun2Proxy/Http/BodySkip.lean
  Subject:   How the HTTP handler skips the body of a challenge.

  A challenge that keeps the connection alive is a head of `len` bytes and a body of `n`. From its
  first byte on, the handler is in one of two places (`Skipping`): it collects the head, or it has
  dropped all that has arrived and counts down what is missing. Neither queues anything. The push
  that brings the last of the `len + n` bytes leaves the handler, a new request queued, in front of
  the bytes behind them (`challenge_body_skipped`).

  This is so if `len + n` is a `usize`. The sum is not checked, and one that wraps makes the
  handler read the body as the next response (`body_read_as_response`).
-/
import Tun2Proxy.Http.ContentLength
import Tun2Proxy.Http.Tunnel

namespace Tun2Proxy

namespace HttpConnection

open Scanner (run)

variable {δ : Type} {impl : HttpImpl δ} {s m c : HttpConnection δ} {len n : Nat}
  {head : ResponseHead} {challenge : δ} {stream got : List UInt8}

/-! ## 1. The search on a stream that starts with a head -/

/-- The search does not miss a head the parser reads. -/
theorem run_of_parse (hheads : ReadsHeads impl.parse)
    (hparse : impl.parse stream = .complete len head) :
    ∃ k, run countLineFeeds 0 stream = .inr ((), k) := by
  obtain ⟨k, hrun, -, -⟩ := run_head (hheads.isHead hparse).2 (stream.drop len)
  rw [List.take_append_drop] at hrun
  exact ⟨k, hrun⟩

/-- The parser waits for the whole head. -/
theorem parse_part (hmono : PrefixMonotone impl.parse) (hheads : ReadsHeads impl.parse)
    {bytes : List UInt8} (hparse : impl.parse bytes = .complete bytes.length head)
    (hpart : got <+: bytes) (hlt : got.length < bytes.length) :
    impl.parse got = .unfinished := by
  obtain ⟨rest, hrest⟩ := hpart
  cases hgot : impl.parse got with
  | unfinished => rfl
  | failed e => cases hparse.symm.trans (hrest ▸ hmono.failed hgot rest)
  | complete len' head' =>
    cases hparse.symm.trans (hrest ▸ hmono.complete hgot rest)
    exact absurd (hheads.isHead hgot).1 (Nat.not_le_of_lt hlt)

theorem parse_whole (hmono : PrefixMonotone impl.parse) {bytes : List UInt8}
    (hparse : impl.parse bytes = .complete bytes.length head) (hwhole : bytes <+: got) :
    impl.parse got = .complete bytes.length head := by
  obtain ⟨rest, rfl⟩ := hwhole
  exact hmono.complete hparse rest

/-! ## 2. Connections of a run -/

/-- A connection at any point: between two calls of its session, or between the calls
    `state_change` makes of itself. -/
inductive Reached (impl : HttpImpl δ) : HttpConnection δ → Prop
  | new {info : SessionInfo} {domainName : Option Str} {credentials : Option UserKey}
      {digestState : Option δ} {c : HttpConnection δ}
      (h : new impl info domainName credentials digestState = .ok c) : Reached impl c
  | extend {c : HttpConnection δ} (h : Reached impl c) (d : IncomingDirection) (x : List UInt8) :
      Reached impl (c.extend d x)
  | again {c c' : HttpConnection δ} (h : Reached impl c)
      (hturn : c.turn impl = .ok (.again c')) : Reached impl c'
  | done {c c' : HttpConnection δ} (h : Reached impl c)
      (hturn : c.turn impl = .ok (.done c')) : Reached impl c'
  | consume {c : HttpConnection δ} (h : Reached impl c) (dir : OutgoingDirection) (size : Nat) :
      Reached impl (c.consumeData dir size)

theorem Scanned.consumeData (hs : Scanned s) (dir : OutgoingDirection) (size : Nat) :
    Scanned (s.consumeData dir size) := by
  obtain ⟨hle, hrun, hidle⟩ := hs
  cases dir <;> exact ⟨hle, hrun, hidle⟩

/-- A call that returns leaves the search where it can go on. -/
theorem Scanned.done (hs : Scanned s) (h : s.turn impl = .ok (.done m)) : Scanned m := by
  cases turn_cases h with
  | searched hst hrun => exact hs.more hst hrun
  | unfinished _ => exact scanned_of_zero rfl rfl
  | reconnected _ hr =>
    unfold reconnect at hr
    split at hr
    · cases hr
    · rename_i hsend
      cases hr
      obtain ⟨-, hc, hl⟩ := sendTunnelRequest_fields hsend
      exact scanned_of_zero hc hl
  | skipped hst | relayed hst | idle hst => exact hs.moved (by rw [hst]; nofun) rfl rfl

theorem Reached.scanned (h : Reached impl c) : Scanned c := by
  induction h with
  | new h => exact (fresh_new h).scanned
  | extend _ d x ih => exact ih.extend d x
  | again _ hturn ih => exact ih.again hturn
  | done _ hturn ih => exact ih.done hturn
  | consume _ dir size ih => exact ih.consumeData dir size

/-! ## 3. Calls on a part of a challenge -/

/-- What requests and answers to responses depend on. -/
structure SameRequest (s c : HttpConnection δ) : Prop where
  digestState : s.digestState = c.digestState
  before : s.before = c.before
  credentials : s.credentials = c.credentials
  info : s.info = c.info
  domainName : s.domainName = c.domainName

theorem SameRequest.refl (s : HttpConnection δ) : SameRequest s s := ⟨rfl, rfl, rfl, rfl, rfl⟩

theorem SameRequest.trans (h : SameRequest s m) (h' : SameRequest m c) : SameRequest s c :=
  ⟨h.1.trans h'.1, h.2.trans h'.2, h.3.trans h'.3, h.4.trans h'.4, h.5.trans h'.5⟩

theorem SameRequest.extend (h : SameRequest s c) (d : IncomingDirection) (x : List UInt8) :
    SameRequest (s.extend d x) c := by
  obtain ⟨h1, h2, h3, h4, h5⟩ := h
  cases d <;> exact ⟨h1, h2, h3, h4, h5⟩

theorem SameRequest.tunnelRequest (h : SameRequest s c) :
    s.tunnelRequest impl = c.tunnelRequest impl := by
  unfold HttpConnection.tunnelRequest authData host
  rw [h.digestState, h.credentials, h.info, h.domainName]

/-- The connection with a challenge to answer. -/
def challenged (challenge : δ) (c : HttpConnection δ) : HttpConnection δ :=
  { c with state := .ExpectResponse, digestState := some challenge, before := true }

theorem SameRequest.challenged (h : SameRequest s c) (challenge : δ) :
    SameRequest (s.challenged challenge) (c.challenged challenge) :=
  ⟨rfl, rfl, h.credentials, h.info, h.domainName⟩

/-- A head that is not complete is kept. -/
theorem turn_unfinished (hst : s.state = .ExpectResponseHeaders)
    (hparse : impl.parse s.serverInbuf = .unfinished) :
    ∃ m, s.turn impl = .ok (.done m) ∧ m.state = .ExpectResponseHeaders ∧
      m.serverInbuf = s.serverInbuf ∧ m.serverOutbuf = s.serverOutbuf ∧ SameRequest m s := by
  rw [turn_headers hst]
  cases hrun : run countLineFeeds s.crlfState (s.serverInbuf.drop s.counter) with
  | inl c =>
    rw [expectResponseHeaders_more hrun]
    exact ⟨_, rfl, hst, rfl, rfl, rfl, rfl, rfl, rfl, rfl⟩
  | inr p =>
    have hparse' : impl.parse s.rescan.serverInbuf = .unfinished := hparse
    rw [expectResponseHeaders_found hrun, onHeaders_unfinished hparse']
    exact ⟨_, rfl, hst, rfl, rfl, rfl, rfl, rfl, rfl, rfl⟩

/-- **A challenge sets the number of bytes to skip**, which wraps. -/
theorem turn_retry (hheads : ReadsHeads impl.parse) (hs : Scanned s)
    (hst : s.state = .ExpectResponseHeaders)
    (hparse : impl.parse s.serverInbuf = .complete len head)
    (hverdict : verdict impl s.before head = .ok (.retry challenge n)) :
    s.turn impl = .ok (.again { s.rescan.challenged challenge with
      skip := (n + len) % impl.usizeValues }) := by
  obtain ⟨k, hrun⟩ := run_of_parse hheads hparse
  have hparse' : impl.parse s.rescan.rescan.serverInbuf = .complete len head := hparse
  have hverdict' : verdict impl s.rescan.rescan.before head = .ok (.retry challenge n) := hverdict
  -- the search from the front is the search from `counter`
  rw [← turn_rescan hs hst, turn_headers (show s.rescan.state = _ from hst),
    expectResponseHeaders_found (show run countLineFeeds s.rescan.crlfState
      (s.rescan.serverInbuf.drop s.rescan.counter) = _ from hrun),
    onHeaders_complete hparse', onResponse_retry hverdict']
  rfl

theorem turn_body_short (impl : HttpImpl δ) (hst : s.state = .ExpectResponse)
    (hlt : s.serverInbuf.length < s.skip) :
    s.turn impl = .ok (.done { s with
      serverInbuf := [], skip := s.skip - s.serverInbuf.length }) := by
  have hmin : min s.skip s.serverInbuf.length = s.serverInbuf.length :=
    Nat.min_eq_right (Nat.le_of_lt hlt)
  have hbody : s.skipBody = { s with
      serverInbuf := [], skip := s.skip - s.serverInbuf.length } := by
    unfold skipBody
    simp only [hmin, List.drop_length]
  have hne : s.skipBody.skip ≠ 0 := fun h => Nat.not_le_of_lt hlt (skipBody_skip_eq_zero.mp h)
  rw [turn_body hst]
  unfold expectResponse
  rw [if_neg hne, hbody]

/-- The call ends with the next request behind what is queued, in front of the bytes `rest`. -/
structure Resumes (impl : HttpImpl δ) (c s : HttpConnection δ) (rest : List UInt8) : Prop where
  request : ∀ request digest, c.tunnelRequest impl = .ok (request, digest) →
    ∃ next, next.state = .ExpectResponseHeaders ∧ next.serverInbuf = rest ∧ next.counter = 0 ∧
      next.crlfState = 0 ∧ next.serverOutbuf = s.serverOutbuf ++ request ∧
      next.digestState = digest ∧ next.before = true ∧
      ∀ r, Returns impl s r ↔ Returns impl next r
  refused : ∀ e, c.tunnelRequest impl = .error e → Returns impl s (.error e)

theorem Resumes.of_again (hturn : s.turn impl = .ok (.again m))
    (hout : m.serverOutbuf = s.serverOutbuf) (h : Resumes impl c m stream) :
    Resumes impl c s stream where
  request request digest hr := by
    obtain ⟨next, h1, h2, h3, h4, h5, h6, h7, h8⟩ := h.request request digest hr
    rw [hout] at h5
    exact ⟨next, h1, h2, h3, h4, h5, h6, h7, fun r => (returns_of_again hturn).trans (h8 r)⟩
  refused e hr := (returns_of_again hturn).mpr (h.refused e hr)

/-- **All bytes to skip are there: they go, and the request is queued.** -/
theorem resumes_body (impl : HttpImpl δ) (hst : s.state = .ExpectResponse)
    (hle : s.skip ≤ s.serverInbuf.length)
    (hs : Scanned s) (hbefore : s.before = true) :
    Resumes impl s s (s.serverInbuf.drop s.skip) := by
  have hz := hs.idle (by rw [hst]; nofun)
  have hbody : s.skipBody = { s with serverInbuf := s.serverInbuf.drop s.skip, skip := 0 } := by
    unfold skipBody
    simp only [Nat.min_eq_left hle, Nat.sub_self]
  have hzero : s.skipBody.skip = 0 := skipBody_skip_eq_zero.mpr hle
  have hrequest : s.skipBody.tunnelRequest impl = s.tunnelRequest impl := rfl
  have hturn : s.turn impl = s.expectResponse impl := turn_body hst
  unfold expectResponse sendTunnelRequest at hturn
  rw [if_pos hzero, hrequest] at hturn
  constructor
  · intro request digest hr
    rw [hr, hbody] at hturn
    refine ⟨_, ?_, ?_, ?_, ?_, ?_, ?_, ?_, fun r => returns_of_again hturn⟩
    exacts [rfl, rfl, hz, hs.crlfState_eq hz, rfl, rfl, hbefore]
  · intro e hr
    rw [hr] at hturn
    exact (returns_of_error hturn).mpr rfl

/-! ## 4. From the first byte of a challenge to the next request -/

/-- Where the handler is when `got` has arrived of a challenge of `total` bytes: it has all of it,
    or it has dropped all of it and knows what is missing. -/
inductive Skipping (c : HttpConnection δ) (challenge : δ) (total : Nat) (got : List UInt8)
    (m : HttpConnection δ) : Prop
  | head (state : m.state = .ExpectResponseHeaders) (scanned : Scanned m)
      (serverInbuf : m.serverInbuf = got) (same : SameRequest m c)
  | body (state : m.state = .ExpectResponse) (scanned : Scanned m)
      (serverInbuf : m.serverInbuf = []) (skip : m.skip + got.length = total) (missing : 0 < m.skip)
      (same : SameRequest m (c.challenged challenge))

theorem Skipping.consumeData {total : Nat} (h : Skipping c challenge total got m)
    (dir : OutgoingDirection) (size : Nat) :
    Skipping c challenge total got (m.consumeData dir size) := by
  cases h with
  | head hst hs hbuf hsame =>
    obtain ⟨h1, h2, h3, h4, h5⟩ := hsame
    have hs' := hs.consumeData dir size
    cases dir <;> exact .head hst hs' hbuf ⟨h1, h2, h3, h4, h5⟩
  | body hst hs hbuf hskip hmissing hsame =>
    obtain ⟨h1, h2, h3, h4, h5⟩ := hsame
    have hs' := hs.consumeData dir size
    cases dir <;> exact .body hst hs' hbuf hskip hmissing ⟨h1, h2, h3, h4, h5⟩

theorem extend_serverOutbuf (d : IncomingDirection) (x : List UInt8) :
    (s.extend d x).serverOutbuf = s.serverOutbuf := by cases d <;> rfl

/-- The challenge `bytes` is the head of is the next response on the connection `c`. -/
structure Challenge (impl : HttpImpl δ) (c : HttpConnection δ) (bytes : List UInt8)
    (challenge : δ) (n : Nat) : Prop where
  mono : PrefixMonotone impl.parse
  heads : ReadsHeads impl.parse
  waiting : c.state = .ExpectResponseHeaders
  response : ∃ head value, impl.parse bytes = .complete bytes.length head ∧
    KeepAlive impl c.before head challenge value ∧
    contentLength impl.usizeValues value = .ok n

section Push

variable {bytes : List UInt8} {d : IncomingDirection} {x : List UInt8}

theorem Challenge.verdict_eq {value : List UInt8}
    (hkeep : KeepAlive impl c.before head challenge value)
    (hlength : contentLength impl.usizeValues value = .ok n) (hsame : SameRequest s c) :
    verdict impl s.before head = .ok (.retry challenge n) := by
  rw [hsame.before, hkeep.verdict_eq, hlength]
  rfl

/-- The call that finds the head sets the number of bytes to skip. -/
theorem Challenge.turn_eq (hc : Challenge impl c bytes challenge n) (hs : Scanned s)
    (hst : s.state = .ExpectResponseHeaders) (hsame : SameRequest s c)
    (hpre : bytes <+: s.serverInbuf) :
    s.turn impl = .ok (.again { s.rescan.challenged challenge with
      skip := (n + bytes.length) % impl.usizeValues }) := by
  obtain ⟨head, value, hparse, hkeep, hlength⟩ := hc.response
  exact turn_retry hc.heads hs hst (parse_whole hc.mono hparse hpre)
    (Challenge.verdict_eq hkeep hlength hsame)

theorem skip_of_fits (hfits : len + n < impl.usizeValues) :
    (n + len) % impl.usizeValues = len + n := by
  rw [Nat.add_comm n len]
  exact Nat.mod_eq_of_lt hfits

/-- A sum that does not fit ends before the head does. -/
theorem Challenge.skip_lt (hc : Challenge impl c bytes challenge n)
    (hwraps : impl.usizeValues ≤ bytes.length + n) :
    (n + bytes.length) % impl.usizeValues < bytes.length := by
  obtain ⟨head, value, -, -, hlength⟩ := hc.response
  obtain ⟨-, -, -, hlt⟩ := contentLength_eq_ok.mp hlength
  by_cases hlong : bytes.length < impl.usizeValues
  · rw [Nat.mod_eq_sub_mod (by omega), Nat.mod_eq_of_lt (by omega)]
    omega
  · have hmod := Nat.mod_lt (n + bytes.length) (Nat.zero_lt_of_lt hlt)
    omega

/-- One call on the bytes of a challenge, before the last of them has arrived. -/
theorem Challenge.short (hc : Challenge impl c bytes challenge n)
    (hfits : bytes.length + n < impl.usizeValues) (hs : Scanned s)
    (hst : s.state = .ExpectResponseHeaders) (hsame : SameRequest s c)
    (hpart : s.serverInbuf <+: bytes ∨ bytes <+: s.serverInbuf)
    (hlt : s.serverInbuf.length < bytes.length + n) :
    ∃ m, Returns impl s (.ok m) ∧ Skipping c challenge (bytes.length + n) s.serverInbuf m ∧
      m.serverOutbuf = s.serverOutbuf := by
  obtain ⟨head, value, hparse, hkeep, hlength⟩ := hc.response
  by_cases hlen : s.serverInbuf.length < bytes.length
  · -- the head is not complete
    have hpre : s.serverInbuf <+: bytes :=
      hpart.resolve_right fun h => Nat.not_le_of_lt hlen h.length_le
    obtain ⟨m, hturn, hm, hbuf, hout, hsame'⟩ :=
      turn_unfinished hst (parse_part hc.mono hc.heads hparse hpre hlen)
    exact ⟨m, (returns_of_done hturn).mpr rfl,
      .head hm (hs.done hturn) hbuf (hsame'.trans hsame), hout⟩
  · -- the body is not complete
    have hpre : bytes <+: s.serverInbuf :=
      hpart.elim (fun h => h.eq_of_length_le (Nat.le_of_not_lt hlen) ▸ List.prefix_rfl) id
    have hturn := hc.turn_eq hs hst hsame hpre
    rw [skip_of_fits hfits] at hturn
    have hbody := turn_body_short impl
      (s := { s.rescan.challenged challenge with skip := bytes.length + n }) rfl hlt
    refine ⟨_, (returns_of_again hturn).mpr ((returns_of_done hbody).mpr rfl), ?_, rfl⟩
    refine .body rfl (scanned_of_zero rfl rfl) rfl ?_ (Nat.sub_pos_of_lt hlt)
      ⟨rfl, rfl, hsame.credentials, hsame.info, hsame.domainName⟩
    exact Nat.sub_add_cancel (Nat.le_of_lt hlt)

/-- The call on all the bytes of a challenge and on what is behind them. -/
theorem Challenge.whole (hc : Challenge impl c bytes challenge n)
    (hfits : bytes.length + n < impl.usizeValues) (hs : Scanned s)
    (hst : s.state = .ExpectResponseHeaders) (hsame : SameRequest s c)
    (hpre : bytes <+: s.serverInbuf) (hle : bytes.length + n ≤ s.serverInbuf.length) :
    Resumes impl (c.challenged challenge) s (s.serverInbuf.drop (bytes.length + n)) := by
  have hturn := hc.turn_eq hs hst hsame hpre
  rw [skip_of_fits hfits] at hturn
  have hbody := resumes_body impl
    (s := { s.rescan.challenged challenge with skip := bytes.length + n }) rfl hle
    (scanned_of_zero rfl rfl) rfl
  have hrequest : tunnelRequest impl { s.rescan.challenged challenge with
      skip := bytes.length + n } = (c.challenged challenge).tunnelRequest impl :=
    (hsame.challenged challenge).tunnelRequest
  exact .of_again hturn rfl ⟨hrequest ▸ hbody.request, hrequest ▸ hbody.refused⟩

/-- **A push inside a challenge queues nothing.** -/
theorem Skipping.push_short (hc : Challenge impl c bytes challenge n)
    (hfits : bytes.length + n < impl.usizeValues)
    (h : Skipping c challenge (bytes.length + n) got m)
    (hpart : got ++ fromServer d x <+: bytes ∨ bytes <+: got ++ fromServer d x)
    (hlt : (got ++ fromServer d x).length < bytes.length + n) :
    ∃ m', Returns impl (m.extend d x) (.ok m') ∧
      Skipping c challenge (bytes.length + n) (got ++ fromServer d x) m' ∧
      m'.serverOutbuf = m.serverOutbuf := by
  cases h with
  | head hst hs hbuf hsame =>
    have hbuf' : (m.extend d x).serverInbuf = got ++ fromServer d x := by
      rw [extend_serverInbuf, hbuf]
    rw [← hbuf'] at hpart hlt ⊢
    rw [← extend_serverOutbuf (s := m) d x]
    exact hc.short hfits (hs.extend d x) ((extend_state d x).trans hst) (hsame.extend d x) hpart hlt
  | body hst hs hbuf hskip hmissing hsame =>
    have hbuf' : (m.extend d x).serverInbuf = fromServer d x := by
      rw [extend_serverInbuf, hbuf, List.nil_append]
    rw [List.length_append] at hlt
    have hturn := turn_body_short impl (s := m.extend d x)
      ((extend_state d x).trans hst) (by rw [hbuf', extend_skip]; omega)
    refine ⟨_, (returns_of_done hturn).mpr rfl, ?_, extend_serverOutbuf d x⟩
    obtain ⟨h1, h2, h3, h4, h5⟩ := hsame.extend d x
    refine .body ((extend_state d x).trans hst) ((hs.extend d x).done hturn) rfl ?_ ?_
      ⟨h1, h2, h3, h4, h5⟩
    · show (m.extend d x).skip - (m.extend d x).serverInbuf.length + _ = _
      rw [hbuf', extend_skip, List.length_append]
      omega
    · show 0 < (m.extend d x).skip - (m.extend d x).serverInbuf.length
      rw [hbuf', extend_skip]
      omega

/-- **The push with the last byte of a challenge resumes behind it.** -/
theorem Skipping.push_whole (hc : Challenge impl c bytes challenge n)
    (hfits : bytes.length + n < impl.usizeValues)
    (h : Skipping c challenge (bytes.length + n) got m)
    (hpre : bytes <+: got ++ fromServer d x)
    (hle : bytes.length + n ≤ (got ++ fromServer d x).length) :
    Resumes impl (c.challenged challenge) (m.extend d x)
      ((got ++ fromServer d x).drop (bytes.length + n)) := by
  cases h with
  | head hst hs hbuf hsame =>
    have hbuf' : (m.extend d x).serverInbuf = got ++ fromServer d x := by
      rw [extend_serverInbuf, hbuf]
    rw [← hbuf'] at hpre hle ⊢
    exact hc.whole hfits (hs.extend d x) ((extend_state d x).trans hst) (hsame.extend d x) hpre hle
  | body hst hs hbuf hskip hmissing hsame =>
    have hbuf' : (m.extend d x).serverInbuf = fromServer d x := by
      rw [extend_serverInbuf, hbuf, List.nil_append]
    have hsame' := hsame.extend d x
    have hdrop : (got ++ fromServer d x).drop (bytes.length + n) =
        (m.extend d x).serverInbuf.drop (m.extend d x).skip := by
      rw [hbuf', extend_skip, ← hskip, Nat.add_comm, ← List.drop_drop, List.drop_left]
    rw [List.length_append] at hle
    have hbody := resumes_body impl ((extend_state d x).trans hst)
      (by rw [hbuf', extend_skip]; omega) (hs.extend d x) hsame'.before
    rw [hdrop]
    have hrequest : (m.extend d x).tunnelRequest impl = _ := hsame'.tunnelRequest
    exact ⟨hrequest ▸ hbody.request, hrequest ▸ hbody.refused⟩

end Push

/-! ## 5. Runs -/

theorem pushed_cons_push (d : IncomingDirection) (x : List UInt8) (events : List Event) :
    pushed .fromServer (.push d x :: events) = fromServer d x ++ pushed .fromServer events := by
  cases d <;> rfl

/-- **Pushes inside a challenge, however it is cut, queue nothing.** -/
theorem Skipping.run {bytes : List UInt8} (hc : Challenge impl c bytes challenge n)
    (hfits : bytes.length + n < impl.usizeValues)
    (hbytes : bytes <+: stream) {events : List Event} {t : Taken}
    (h : Skipping c challenge (bytes.length + n) got m)
    (hgot : got ++ pushed .fromServer events <+: stream)
    (hlt : (got ++ pushed .fromServer events).length < bytes.length + n) :
    ∃ m' t', Runs impl events m t (.ok (m', t')) ∧
      Skipping c challenge (bytes.length + n) (got ++ pushed .fromServer events) m' ∧
      t'.toServer ++ m'.serverOutbuf = t.toServer ++ m.serverOutbuf := by
  induction events generalizing got m t with
  | nil =>
    refine ⟨m, t, .stop m t, ?_, rfl⟩
    rwa [pushed, List.append_nil]
  | cons event events ih =>
    cases event with
    | consume dir size =>
      obtain ⟨m', t', hrun, hskip, hout⟩ :=
        ih (t := t.add dir ((m.peekData dir).take size)) (h.consumeData dir size) hgot hlt
      have hqueue := congrArg HttpConnection.serverOutbuf
        (restore_consumeData (s := m) t dir size)
      exact ⟨m', t', .consume hrun, hskip, hout.trans hqueue⟩
    | push d x =>
      rw [pushed_cons_push, ← List.append_assoc] at hgot hlt ⊢
      have hnow : got ++ fromServer d x <+: stream := (List.prefix_append _ _).trans hgot
      rw [List.length_append] at hlt
      obtain ⟨m₁, hret, hskip₁, hout₁⟩ := h.push_short hc hfits
        (List.prefix_or_prefix_of_prefix hnow hbytes) (by omega)
      obtain ⟨m', t', hrun, hskip, hout⟩ := ih (t := t) hskip₁ hgot
        (by rw [List.length_append]; exact hlt)
      exact ⟨m', t', .push hret hrun, hskip, hout.trans (by rw [hout₁])⟩

/-- **Exactly the bytes of a challenge are skipped** if their number is a `usize`, and only then.
    The head of a challenge that keeps the connection alive is `bytes`, and its length is accepted
    as `n`. If the sum fits, then whatever way the stream is cut, and whatever else happens on the
    connection: as long as fewer bytes than the sum have arrived, nothing is queued for the server,
    and the push with the last of them resumes, the next request queued, in front of the bytes
    behind them. If it does not, the call that finds the head skips less than the head. -/
theorem challenge_body_skipped (hmono : PrefixMonotone impl.parse)
    (hheads : ReadsHeads impl.parse) (hc : Reached impl c)
    (hwaiting : c.state = .ExpectResponseHeaders) {bytes value : List UInt8}
    (hparse : impl.parse bytes = .complete bytes.length head)
    (hkeep : KeepAlive impl c.before head challenge value)
    (hlength : contentLength impl.usizeValues value = .ok n) :
    (bytes.length + n < impl.usizeValues →
      ∀ (events : List Event) (d : IncomingDirection) (x : List UInt8) (t : Taken),
        bytes <+: c.serverInbuf ++ pushed .fromServer events ++ fromServer d x →
        (events = [] ∨
          (c.serverInbuf ++ pushed .fromServer events).length < bytes.length + n) →
        bytes.length + n ≤
          (c.serverInbuf ++ pushed .fromServer events ++ fromServer d x).length →
        ∃ m t', Runs impl events c t (.ok (m, t')) ∧
          t'.toServer ++ m.serverOutbuf = t.toServer ++ c.serverOutbuf ∧
          Skipping c challenge (bytes.length + n)
            (c.serverInbuf ++ pushed .fromServer events) m ∧
          Resumes impl (c.challenged challenge) (m.extend d x)
            ((c.serverInbuf ++ pushed .fromServer events ++ fromServer d x).drop
              (bytes.length + n))) ∧
    (impl.usizeValues ≤ bytes.length + n → bytes <+: c.serverInbuf →
      ∃ skip < bytes.length,
        c.turn impl = .ok (.again { c.rescan.challenged challenge with skip := skip })) := by
  have hchallenge : Challenge impl c bytes challenge n :=
    ⟨hmono, hheads, hwaiting, head, value, hparse, hkeep, hlength⟩
  have hstart : Skipping c challenge (bytes.length + n) c.serverInbuf c :=
    .head hwaiting hc.scanned rfl (SameRequest.refl c)
  refine ⟨fun hfits events d x t hbytes hmissing hlast => ?_, fun hwraps hpre => ?_⟩
  · have hrun : ∃ m t', Runs impl events c t (.ok (m, t')) ∧
        Skipping c challenge (bytes.length + n) (c.serverInbuf ++ pushed .fromServer events) m ∧
        t'.toServer ++ m.serverOutbuf = t.toServer ++ c.serverOutbuf := by
      rcases hmissing with rfl | hlt
      · rw [pushed, List.append_nil]
        exact ⟨c, t, .stop c t, hstart, rfl⟩
      · exact hstart.run hchallenge hfits hbytes (List.prefix_append _ _) hlt
    obtain ⟨m, t', hr, hskip, hout⟩ := hrun
    exact ⟨m, t', hr, hout, hskip, hskip.push_whole hchallenge hfits hbytes hlast⟩
  · exact ⟨_, hchallenge.skip_lt hwraps,
      hchallenge.turn_eq hc.scanned hwaiting (SameRequest.refl c) hpre⟩

section Sample

/-- The head of the challenge in `sampleStream`, whose body is of 2 bytes. -/
def sampleHeadBytes : List UInt8 :=
  Str.asBytes ("HTTP/1.1 407 No\r\nProxy-Authenticate: Digest realm=\"r\", nonce=\"n\"".toList ++
    "\r\nContent-Length: 2\r\n\r\n".toList)

/-- Cut inside the head, with a client that talks before the rest arrives. -/
theorem sample_challenge_body_skipped :
    ∃ m t', Runs sampleImpl (sampleEvents.take 3) sampleConnection {} (.ok (m, t')) ∧
      t'.toServer ++ m.serverOutbuf = sampleConnection.serverOutbuf ∧
      Skipping sampleConnection sampleChallenge (sampleHeadBytes.length + 2)
        (sampleStream.take 20) m ∧
      Resumes sampleImpl (sampleConnection.challenged sampleChallenge)
        (m.extend .fromServer (sampleStream.drop 20))
        (sampleStream.drop (sampleHeadBytes.length + 2)) := by
  have hparse : sampleImpl.parse sampleHeadBytes =
      .complete sampleHeadBytes.length (lengthHead "2") := by
    decide +kernel
  have hpushed : sampleConnection.serverInbuf ++ pushed .fromServer (sampleEvents.take 3) =
      sampleStream.take 20 := by
    show [] ++ (sampleStream.take 20 ++ []) = _
    rw [List.nil_append, List.append_nil]
  have hstream : sampleStream.take 20 ++ fromServer .fromServer (sampleStream.drop 20) =
      sampleStream := List.take_append_drop 20 sampleStream
  have hbytes : sampleHeadBytes <+:
      sampleConnection.serverInbuf ++ pushed .fromServer (sampleEvents.take 3) ++
        fromServer .fromServer (sampleStream.drop 20) := by
    rw [hpushed, hstream]
    decide +kernel
  have h := (challenge_body_skipped (n := 2) prefixMonotone_responseHead readsHeads_responseHead
    (.new new_sample) rfl hparse (keepAlive_lengthHead "2") (by decide +kernel)).1
    (by decide +kernel) (sampleEvents.take 3) .fromServer (sampleStream.drop 20) {} hbytes
    (by rw [hpushed]; exact .inr (by decide +kernel)) (by rw [hpushed, hstream]; decide +kernel)
  rw [hpushed, hstream] at h
  exact h

/-! ## 6. A length that wraps -/

/-- The head of a challenge whose length is the largest `usize`. -/
def longBodyHead : List UInt8 :=
  Str.asBytes ("HTTP/1.1 407 No\r\nProxy-Authenticate: Digest realm=\"r\", nonce=\"n\"".toList ++
    "\r\nContent-Length: 18446744073709551615\r\n\r\n".toList)

/-- The first bytes of its body. -/
def longBody : List UInt8 := Str.asBytes "HTTP/1.1 200 OK\r\n\r\n".toList

/-- **The body of a challenge can be read as the next response.** The number of bytes to skip
    wraps, so all but the last byte of the head are dropped. The retry is queued while nearly all
    of the body is still to come, and its first bytes open the tunnel. -/
theorem body_read_as_response :
    sampleImpl.parse longBodyHead =
        .complete longBodyHead.length (lengthHead "18446744073709551615") ∧
      KeepAlive sampleImpl false (lengthHead "18446744073709551615") sampleChallenge
        (Str.asBytes "18446744073709551615".toList) ∧
      contentLength sampleImpl.usizeValues (Str.asBytes "18446744073709551615".toList) =
        .ok 18446744073709551615 ∧
      (longBodyHead ++ longBody).length < longBodyHead.length + 18446744073709551615 ∧
      ∃ m, Runs sampleImpl [.push .fromServer (longBodyHead ++ longBody)] sampleConnection {}
          (.ok (m, {})) ∧ m.state = .Established ∧
        m.serverOutbuf = sampleConnection.serverOutbuf ++ sampleConnection.serverOutbuf := by
  have hret : ((stateChange sampleImpl 5
      (sampleConnection.extend .fromServer (longBodyHead ++ longBody))).map
        fun r => r.map fun m => (m.state, m.serverOutbuf)) =
      some (.ok (.Established,
        sampleConnection.serverOutbuf ++ sampleConnection.serverOutbuf)) := by
    decide +kernel
  refine ⟨by decide +kernel, keepAlive_lengthHead _, by decide +kernel, by decide +kernel, ?_⟩
  obtain ⟨r, hr, hend⟩ := Option.map_eq_some_iff.mp hret
  cases r with
  | error e => cases hend
  | ok m =>
    have hend : (m.state, m.serverOutbuf) =
      (.Established, sampleConnection.serverOutbuf ++ sampleConnection.serverOutbuf) :=
      Except.ok.inj hend
    exact ⟨m, .push ⟨5, hr⟩ (.stop m {}), congrArg Prod.fst hend, congrArg Prod.snd hend⟩

end Sample

end HttpConnection

end Tun2Proxy
