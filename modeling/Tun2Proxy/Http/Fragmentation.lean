/-
  File:      Tun2Proxy/Http/Fragmentation.lean
  Subject:   The HTTP handler does not see where its input is cut.

  One fact about `turn` carries everything (`turn_follows`): a call that has more bytes behind its
  input does what it did before, and a call that stopped to wait for bytes leaves a connection
  from which the next push goes on as if these bytes had been there from the start. For the search
  for the end of the headers this rests on what the two scanner fields mean (`Scanned`): the bytes
  in front of `counter` have been searched in vain, so starting over finds nothing new.

  So a run of pushes ends like one call on all the bytes together (`Runs.returns`), as long as no
  response makes the handler drop its buffers (`Reset`). Bytes taken out of the queues on the way
  are put back to compare (`restore`).
-/
import Tun2Proxy.Http.Connection

namespace Tun2Proxy

namespace HttpConnection

open Scanner (run)

variable {δ : Type} {impl : HttpImpl δ} {s m : HttpConnection δ}

/-! ## 1. The search for the end of the headers -/

/-- The bytes in front of `counter` have been searched, and the search has not ended there. -/
structure Scanned (s : HttpConnection δ) : Prop where
  counter_le : s.counter ≤ s.serverInbuf.length
  searched : run countLineFeeds 0 (s.serverInbuf.take s.counter) = .inl s.crlfState
  idle : s.state ≠ .ExpectResponseHeaders → s.counter = 0

theorem Scanned.crlfState_eq (hs : Scanned s) (h : s.counter = 0) : s.crlfState = 0 := by
  have hz := hs.searched
  rw [h] at hz
  exact (Sum.inl.inj hz).symm

/-- A connection whose search starts at the front. -/
theorem scanned_of_zero (hcounter : s.counter = 0) (hcrlf : s.crlfState = 0) : Scanned s where
  counter_le := by rw [hcounter]; exact Nat.zero_le _
  searched := by rw [hcounter, hcrlf]; rfl
  idle _ := hcounter

/-- The search from `counter` finds what the search from the front finds. -/
theorem Scanned.run_eq (hs : Scanned s) :
    run countLineFeeds 0 s.serverInbuf =
      Scanner.shift s.counter (run countLineFeeds s.crlfState (s.serverInbuf.drop s.counter)) := by
  have h := Scanner.run_more_append hs.searched (s.serverInbuf.drop s.counter)
  rw [List.take_append_drop, List.length_take_of_le hs.counter_le] at h
  exact h

/-- **Starting the search over makes no difference.** -/
theorem expectResponseHeaders_rescan (hs : Scanned s) :
    s.rescan.expectResponseHeaders impl = s.expectResponseHeaders impl := by
  have hrun : run countLineFeeds s.rescan.crlfState (s.rescan.serverInbuf.drop s.rescan.counter) =
      Scanner.shift s.counter (run countLineFeeds s.crlfState (s.serverInbuf.drop s.counter)) :=
    hs.run_eq
  have hlen : 0 + s.serverInbuf.length = s.counter + (s.serverInbuf.drop s.counter).length := by
    rw [List.length_drop]
    have := hs.counter_le
    omega
  unfold expectResponseHeaders
  simp only [hrun]
  cases run countLineFeeds s.crlfState (s.serverInbuf.drop s.counter) with
  | inl c =>
    show Except.ok (Turn.done { s with crlfState := c, counter := 0 + s.serverInbuf.length }) = _
    rw [hlen]
  | inr p =>
    show s.rescan.rescan.onHeaders impl (0 + (s.counter + p.2)) = _
    rw [Nat.zero_add]
    rfl

theorem turn_rescan (hs : Scanned s) (hst : s.state = .ExpectResponseHeaders) :
    s.rescan.turn impl = s.turn impl := by
  have hst' : s.rescan.state = .ExpectResponseHeaders := hst
  unfold turn
  rw [hst, hst']
  exact expectResponseHeaders_rescan hs

/-! ## 2. More bytes behind the input -/

section Extend

variable (d : IncomingDirection) (y : List UInt8)

@[simp] theorem extend_state : (s.extend d y).state = s.state := by cases d <;> rfl
@[simp] theorem extend_skip : (s.extend d y).skip = s.skip := by cases d <;> rfl
@[simp] theorem extend_counter : (s.extend d y).counter = s.counter := by cases d <;> rfl
@[simp] theorem extend_crlfState : (s.extend d y).crlfState = s.crlfState := by cases d <;> rfl
@[simp] theorem extend_before : (s.extend d y).before = s.before := by cases d <;> rfl

/-- The bytes of a push that go behind the server's. -/
def fromServer (d : IncomingDirection) (y : List UInt8) : List UInt8 :=
  match d with
  | .fromServer => y
  | .fromClient => []

@[simp] theorem extend_serverInbuf :
    (s.extend d y).serverInbuf = s.serverInbuf ++ fromServer d y := by
  cases d with
  | fromServer => rfl
  | fromClient => exact (List.append_nil s.serverInbuf).symm

theorem Scanned.extend (hs : Scanned s) : Scanned (s.extend d y) where
  counter_le := by
    rw [extend_counter, extend_serverInbuf, List.length_append]
    exact Nat.le_add_right_of_le hs.counter_le
  searched := by
    rw [extend_counter, extend_serverInbuf, extend_crlfState,
      List.take_append_of_le_length hs.counter_le]
    exact hs.searched
  idle h := by
    rw [extend_counter]
    rw [extend_state] at h
    exact hs.idle h

theorem rescan_extend : (s.extend d y).rescan = s.rescan.extend d y := by cases d <;> rfl

theorem sendTunnelRequest_extend :
    (s.extend d y).sendTunnelRequest impl = (s.sendTunnelRequest impl).map (extend d y) := by
  have hr : (s.extend d y).tunnelRequest impl = s.tunnelRequest impl := by cases d <;> rfl
  unfold sendTunnelRequest
  rw [hr]
  cases s.tunnelRequest impl with
  | error e => rfl
  | ok p => cases d <;> rfl

/-- What a call on the longer input does, by what the call on the shorter one did. -/
def Follows (impl : HttpImpl δ) (d : IncomingDirection) (y : List UInt8) (s : HttpConnection δ) :
    Except HttpError (Turn δ) → Prop
  | .error e => (s.extend d y).turn impl = .error e
  | .ok (.again m) => (s.extend d y).turn impl = .ok (.again (m.extend d y))
  | .ok (.done m) =>
    (m.state = .Reset → ∃ m', (s.extend d y).turn impl = .ok (.done m') ∧ m'.state = .Reset) ∧
    (m.state ≠ .Reset → (m.extend d y).turn impl = (s.extend d y).turn impl) ∧
    (d = .fromClient → ∃ m', (s.extend d y).turn impl = .ok (.done m') ∧ m'.state = m.state)

theorem reconnect_extend (challenge : δ) :
    (s.extend d y).reconnect impl challenge =
      (s.reconnect impl challenge).map fun m =>
        { m with clientInbuf := (s.extend d y).clientInbuf } := by
  have hr : tunnelRequest impl { s.extend d y with
      digestState := some challenge, before := true, serverInbuf := [], serverOutbuf := [] } =
      tunnelRequest impl { s with
        digestState := some challenge, before := true, serverInbuf := [], serverOutbuf := [] } := by
    cases d <;> rfl
  unfold reconnect sendTunnelRequest
  rw [hr]
  cases tunnelRequest impl { s with
    digestState := some challenge, before := true, serverInbuf := [], serverOutbuf := [] } with
  | error e => rfl
  | ok p => cases d <;> rfl

theorem reconnect_state {challenge : δ} (h : s.reconnect impl challenge = .ok m) :
    m.state = .Reset := by
  unfold reconnect at h
  split at h
  · cases h
  · cases h
    rfl

/-- A response is answered the same way when bytes follow it. -/
theorem follows_onResponse {headerSize len : Nat} {head : ResponseHead} {s₀ : HttpConnection δ}
    (hle : headerSize ≤ s.serverInbuf.length)
    (hturn : (s₀.extend d y).turn impl = (s.extend d y).onResponse impl headerSize len head) :
    Follows impl d y s₀ (s.onResponse impl headerSize len head) := by
  unfold onResponse at hturn ⊢
  rw [extend_before] at hturn
  cases hv : verdict impl s.before head with
  | error e =>
    rw [hv] at hturn
    exact hturn
  | ok v =>
    rw [hv] at hturn
    cases v with
    | tunnel =>
      show (s₀.extend d y).turn impl = _
      rw [hturn]
      cases d with
      | fromServer =>
        have hdrop : (s.serverInbuf ++ y).drop headerSize =
            s.serverInbuf.drop headerSize ++ y := List.drop_append_of_le_length hle
        show Except.ok (Turn.again { s with
          state := _, serverInbuf := (s.serverInbuf ++ y).drop headerSize }) = _
        rw [hdrop]
        rfl
      | fromClient => rfl
    | retry challenge n =>
      show (s₀.extend d y).turn impl = _
      rw [hturn]
      cases d <;> rfl
    | reconnect challenge =>
      have hturn : (s₀.extend d y).turn impl =
        ((s.extend d y).reconnect impl challenge).map .done := hturn
      rw [reconnect_extend] at hturn
      show Follows impl d y s₀ ((s.reconnect impl challenge).map .done)
      cases hr : s.reconnect impl challenge with
      | error e =>
        rw [hr] at hturn
        exact hturn
      | ok m =>
        have hm := reconnect_state hr
        rw [hr] at hturn
        exact ⟨fun _ => ⟨_, hturn, hm⟩, fun h => absurd hm h, fun _ => ⟨_, hturn, rfl⟩⟩

theorem turn_headers (hst : s.state = .ExpectResponseHeaders) :
    s.turn impl = s.expectResponseHeaders impl := by
  unfold turn
  rw [hst]

theorem expectResponseHeaders_more {c : Nat}
    (h : run countLineFeeds s.crlfState (s.serverInbuf.drop s.counter) = .inl c) :
    s.expectResponseHeaders impl = .ok (.done { s with
      crlfState := c, counter := s.counter + (s.serverInbuf.drop s.counter).length }) := by
  unfold expectResponseHeaders
  simp only [h]

theorem expectResponseHeaders_found {u : Unit} {n : Nat}
    (h : run countLineFeeds s.crlfState (s.serverInbuf.drop s.counter) = .inr (u, n)) :
    s.expectResponseHeaders impl = s.rescan.onHeaders impl (s.counter + n) := by
  unfold expectResponseHeaders
  simp only [h]

section Response

variable {headerSize len : Nat} {head : ResponseHead}

theorem onHeaders_unfinished (h : impl.parse s.serverInbuf = .unfinished) :
    s.onHeaders impl headerSize = .ok (.done s) := by
  unfold onHeaders
  rw [h]

theorem onHeaders_complete (h : impl.parse s.serverInbuf = .complete len head) :
    s.onHeaders impl headerSize = s.onResponse impl headerSize len head := by
  unfold onHeaders
  rw [h]

theorem onResponse_tunnel (h : verdict impl s.before head = .ok .tunnel) :
    s.onResponse impl headerSize len head = .ok (.again { s with
      state := .Established, serverInbuf := s.serverInbuf.drop headerSize }) := by
  unfold onResponse
  rw [h]

theorem onResponse_retry {challenge : δ} {n : Nat}
    (h : verdict impl s.before head = .ok (.retry challenge n)) :
    s.onResponse impl headerSize len head = .ok (.again { s with
      digestState := some challenge, before := true, state := .ExpectResponse,
      skip := (n + len) % impl.usizeValues }) := by
  unfold onResponse
  rw [h]

end Response

/-- The search has reached the end of the buffer. -/
theorem Scanned.more (hs : Scanned s) (hst : s.state = .ExpectResponseHeaders) {c : Nat}
    (h : run countLineFeeds s.crlfState (s.serverInbuf.drop s.counter) = .inl c) :
    Scanned { s with
      crlfState := c, counter := s.counter + (s.serverInbuf.drop s.counter).length } := by
  have hlen : s.counter + (s.serverInbuf.drop s.counter).length = s.serverInbuf.length := by
    rw [List.length_drop]
    have := hs.counter_le
    omega
  refine ⟨Nat.le_of_eq hlen, ?_, fun hne => absurd hst hne⟩
  show run countLineFeeds 0 (s.serverInbuf.take _) = .inl c
  rw [hlen, List.take_length, hs.run_eq, h]
  rfl

theorem follows_headers (hparse : PrefixMonotone impl.parse) (hs : Scanned s)
    (hst : s.state = .ExpectResponseHeaders) :
    Follows impl d y s (s.expectResponseHeaders impl) := by
  have hst' : (s.extend d y).state = .ExpectResponseHeaders := (extend_state d y).trans hst
  have hdrop : (s.extend d y).serverInbuf.drop (s.extend d y).counter =
      s.serverInbuf.drop s.counter ++ fromServer d y := by
    rw [extend_counter, extend_serverInbuf, List.drop_append_of_le_length hs.counter_le]
  have hnotReset : ∀ m : HttpConnection δ, m.state = s.state → m.state ≠ .Reset := by
    intro m hm
    rw [hm, hst]
    exact nofun
  cases hrun : run countLineFeeds s.crlfState (s.serverInbuf.drop s.counter) with
  | inl c =>
    rw [expectResponseHeaders_more hrun]
    refine ⟨fun h => absurd h (hnotReset _ rfl), fun _ => ?_, ?_⟩
    · rw [← turn_rescan ((hs.more hst hrun).extend d y) ((extend_state d y).trans hst),
        ← turn_rescan (hs.extend d y) hst']
      cases d <;> rfl
    · intro hd
      subst hd
      have hrun' : run countLineFeeds (s.extend .fromClient y).crlfState
        ((s.extend .fromClient y).serverInbuf.drop (s.extend .fromClient y).counter) =
          .inl c := hrun
      rw [turn_headers hst', expectResponseHeaders_more hrun']
      exact ⟨_, rfl, rfl⟩
  | inr p =>
    obtain ⟨u, n⟩ := p
    have hrun' : run countLineFeeds (s.extend d y).crlfState
        ((s.extend d y).serverInbuf.drop (s.extend d y).counter) = .inr (u, n) := by
      rw [hdrop, extend_crlfState]
      exact Scanner.run_found_append hrun _
    have hturn : (s.extend d y).turn impl =
        (s.rescan.extend d y).onHeaders impl (s.counter + n) := by
      rw [turn_headers hst', expectResponseHeaders_found hrun', rescan_extend, extend_counter]
    have hle : s.counter + n ≤ s.rescan.serverInbuf.length := by
      have h := Scanner.run_found_le hrun
      rw [List.length_drop] at h
      have := hs.counter_le
      show _ ≤ s.serverInbuf.length
      omega
    rw [expectResponseHeaders_found hrun]
    unfold onHeaders at hturn ⊢
    rw [extend_serverInbuf] at hturn
    cases hp : impl.parse s.rescan.serverInbuf with
    | failed e =>
      rw [hparse.failed hp] at hturn
      exact hturn
    | complete len head =>
      rw [hparse.complete hp] at hturn
      exact follows_onResponse d y hle hturn
    | unfinished =>
      refine ⟨fun h => absurd h (hnotReset _ rfl), fun _ => ?_, ?_⟩
      · rw [← rescan_extend, turn_rescan (hs.extend d y) hst']
      · intro hd
        subst hd
        have hnil : s.rescan.serverInbuf ++ fromServer .fromClient y = s.rescan.serverInbuf :=
          List.append_nil _
        rw [hnil, hp] at hturn
        exact ⟨_, hturn, rfl⟩

/-! ### Bodies -/

theorem turn_body (hst : s.state = .ExpectResponse) : s.turn impl = s.expectResponse impl := by
  unfold turn
  rw [hst]

/-- All bytes to skip are there. -/
theorem skipBody_extend_of_le (h : s.skip ≤ s.serverInbuf.length) :
    (s.extend d y).skipBody = s.skipBody.extend d y := by
  cases d with
  | fromClient => rfl
  | fromServer =>
    have h' : s.skip ≤ (s.serverInbuf ++ y).length := by
      rw [List.length_append]
      exact Nat.le_add_right_of_le h
    show { s with
      serverInbuf := (s.serverInbuf ++ y).drop (min s.skip (s.serverInbuf ++ y).length)
      skip := s.skip - min s.skip (s.serverInbuf ++ y).length } = { s with
      serverInbuf := s.serverInbuf.drop (min s.skip s.serverInbuf.length) ++ y
      skip := s.skip - min s.skip s.serverInbuf.length }
    rw [Nat.min_eq_left h, Nat.min_eq_left h', List.drop_append_of_le_length h]

/-- Some bytes to skip are still to come. -/
theorem skipBody_extend_of_lt (h : s.serverInbuf.length < s.skip) :
    (s.skipBody.extend d y).skipBody = (s.extend d y).skipBody := by
  have hmin : min s.skip s.serverInbuf.length = s.serverInbuf.length :=
    Nat.min_eq_right (Nat.le_of_lt h)
  have hs : s.skipBody = { s with serverInbuf := [], skip := s.skip - s.serverInbuf.length } := by
    unfold skipBody
    simp only [hmin, List.drop_length]
  rw [hs]
  cases d with
  | fromClient => simp [extend, skipBody, hmin]
  | fromServer =>
    have hcut : min s.skip (s.serverInbuf.length + y.length) =
        s.serverInbuf.length + min (s.skip - s.serverInbuf.length) y.length := by
      omega
    simp only [extend, skipBody, List.nil_append, List.length_append, hcut, Nat.sub_add_eq,
      List.drop_append, List.drop_eq_nil_of_le (Nat.le_add_right _ _), Nat.add_sub_cancel_left]

theorem skipBody_skip_eq_zero : s.skipBody.skip = 0 ↔ s.skip ≤ s.serverInbuf.length := by
  show s.skip - min s.skip s.serverInbuf.length = 0 ↔ _
  omega

theorem follows_body (hst : s.state = .ExpectResponse) :
    Follows impl d y s (s.expectResponse impl) := by
  have hturn : (s.extend d y).turn impl = (s.extend d y).expectResponse impl :=
    turn_body ((extend_state d y).trans hst)
  unfold expectResponse at hturn ⊢
  by_cases hle : s.skip ≤ s.serverInbuf.length
  · have h0 := skipBody_skip_eq_zero.mpr hle
    rw [skipBody_extend_of_le d y hle, extend_skip, if_pos h0, sendTunnelRequest_extend] at hturn
    rw [if_pos h0]
    cases hr : s.skipBody.sendTunnelRequest impl with
    | error e =>
      rw [hr] at hturn
      exact hturn
    | ok m =>
      rw [hr] at hturn
      show (s.extend d y).turn impl = _
      rw [hturn]
      cases d <;> rfl
  · have h0 : s.skipBody.skip ≠ 0 := fun h => hle (skipBody_skip_eq_zero.mp h)
    have hst' : (s.skipBody.extend d y).state = .ExpectResponse := (extend_state d y).trans hst
    rw [if_neg h0]
    refine ⟨fun h => ?_, fun _ => ?_, fun hd => ?_⟩
    · have h : s.state = .Reset := h
      rw [hst] at h
      cases h
    · rw [hturn, turn_body hst']
      unfold expectResponse
      rw [skipBody_extend_of_lt d y (Nat.lt_of_not_le hle)]
    · subst hd
      have hsk : (s.extend .fromClient y).skipBody = s.skipBody.extend .fromClient y := rfl
      rw [hsk, extend_skip, if_neg h0] at hturn
      exact ⟨_, hturn, extend_state _ _⟩

/-- **A call on the longer input follows the call on the shorter one.** -/
theorem turn_follows (hparse : PrefixMonotone impl.parse) (hs : Scanned s) :
    Follows impl d y s (s.turn impl) := by
  cases hst : s.state with
  | ExpectResponseHeaders =>
    rw [turn_headers hst]
    exact follows_headers d y hparse hs hst
  | ExpectResponse =>
    rw [turn_body hst]
    exact follows_body d y hst
  | Reset =>
    simp only [turn, hst]
    show (s.extend d y).turn impl = _
    simp only [turn, extend_state, hst]
    cases d <;> rfl
  | Established =>
    have hext : (s.extend d y).turn impl = .ok (.done (s.extend d y).relay) := by
      simp only [turn, extend_state, hst]
    simp only [turn, hst]
    refine ⟨fun h => (nomatch h.symm.trans hst), fun _ => ?_,
      fun _ => ⟨_, hext, extend_state d y⟩⟩
    rw [hext]
    simp only [turn, extend_state, relay, hst]
    cases d <;> simp [extend]
  | SendRequest =>
    have hext : (s.extend d y).turn impl = .ok (.done (s.extend d y)) := by
      simp only [turn, extend_state, hst]
    simp only [turn, hst]
    exact ⟨fun h => (nomatch h.symm.trans hst), fun _ => rfl,
      fun _ => ⟨_, hext, extend_state d y⟩⟩

end Extend

/-! ## 3. One call on the longer input -/

/-- **What a call can do**, by the state it is made in. -/
inductive TurnCase (impl : HttpImpl δ) (s : HttpConnection δ) : Turn δ → Prop
  | searched (hst : s.state = .ExpectResponseHeaders) {c : Nat}
      (hrun : run countLineFeeds s.crlfState (s.serverInbuf.drop s.counter) = .inl c) :
      TurnCase impl s (.done { s with
        crlfState := c, counter := s.counter + (s.serverInbuf.drop s.counter).length })
  | unfinished (hst : s.state = .ExpectResponseHeaders) : TurnCase impl s (.done s.rescan)
  | tunnel (hst : s.state = .ExpectResponseHeaders) (headerSize : Nat) :
      TurnCase impl s (.again { s.rescan with
        state := .Established, serverInbuf := s.serverInbuf.drop headerSize })
  | retry (hst : s.state = .ExpectResponseHeaders) {len n : Nat} {head : ResponseHead}
      {challenge : δ} (hparse : impl.parse s.serverInbuf = .complete len head)
      (hverdict : verdict impl s.before head = .ok (.retry challenge n)) :
      TurnCase impl s (.again { s.rescan with
        digestState := some challenge, before := true, state := .ExpectResponse,
        skip := (n + len) % impl.usizeValues })
  | reconnected (hst : s.state = .ExpectResponseHeaders) {challenge : δ} {m : HttpConnection δ}
      (h : s.rescan.reconnect impl challenge = .ok m) : TurnCase impl s (.done m)
  | skipped (hst : s.state = .ExpectResponse) : TurnCase impl s (.done s.skipBody)
  | resent (hst : s.state = .ExpectResponse) (hskip : s.skipBody.skip = 0) {m : HttpConnection δ}
      (hsend : s.skipBody.sendTunnelRequest impl = .ok m) :
      TurnCase impl s (.again { m with state := .ExpectResponseHeaders })
  | reset (hst : s.state = .Reset) :
      TurnCase impl s (.again { s with state := .ExpectResponseHeaders })
  | relayed (hst : s.state = .Established) : TurnCase impl s (.done s.relay)
  | idle (hst : s.state = .SendRequest) : TurnCase impl s (.done s)

theorem turn_cases {t : Turn δ} (h : s.turn impl = .ok t) : TurnCase impl s t := by
  cases hst : s.state with
  | ExpectResponseHeaders =>
    rw [turn_headers hst] at h
    cases hrun : run countLineFeeds s.crlfState (s.serverInbuf.drop s.counter) with
    | inl c =>
      rw [expectResponseHeaders_more hrun] at h
      cases h
      exact .searched hst hrun
    | inr p =>
      rw [expectResponseHeaders_found hrun] at h
      unfold onHeaders onResponse at h
      split at h
      · cases h
      · cases h
        exact .unfinished hst
      · rename_i hparse
        split at h
        · cases h
        · cases h
          exact .tunnel hst _
        · cases hr : s.rescan.reconnect impl _ with
          | error e => rw [hr] at h; cases h
          | ok m => rw [hr] at h; cases h; exact .reconnected hst hr
        · rename_i hverdict
          cases h
          exact .retry hst hparse hverdict
  | ExpectResponse =>
    rw [turn_body hst] at h
    unfold expectResponse at h
    split at h
    · rename_i hskip
      split at h
      · cases h
      · rename_i hsend
        cases h
        exact .resent hst hskip hsend
    · cases h
      exact .skipped hst
  | Reset | Established | SendRequest =>
    unfold turn at h
    rw [hst] at h
    cases h
    first | exact .reset hst | exact .relayed hst | exact .idle hst

theorem sendTunnelRequest_fields (h : s.sendTunnelRequest impl = .ok m) :
    m.serverInbuf = s.serverInbuf ∧ m.counter = s.counter ∧ m.crlfState = s.crlfState := by
  unfold sendTunnelRequest at h
  split at h
  · cases h
  · cases h
    exact ⟨rfl, rfl, rfl⟩

/-- Outside of a head the search stands at the front of the buffer. -/
theorem Scanned.moved (hs : Scanned s) (hst : s.state ≠ .ExpectResponseHeaders)
    (hc : m.counter = s.counter) (hl : m.crlfState = s.crlfState) : Scanned m :=
  scanned_of_zero (hc.trans (hs.idle hst)) (hl.trans (hs.crlfState_eq (hs.idle hst)))

/-- The next call finds the search at the front of the buffer. -/
theorem Scanned.again (hs : Scanned s) (h : s.turn impl = .ok (.again m)) : Scanned m := by
  cases turn_cases h with
  | tunnel | retry => exact scanned_of_zero rfl rfl
  | resent hst _ hsend =>
    obtain ⟨-, hc, hl⟩ := sendTunnelRequest_fields hsend
    exact hs.moved (by rw [hst]; nofun) hc hl
  | reset hst => exact hs.moved (by rw [hst]; nofun) rfl rfl

/-! ### Calls followed to their end -/

/-- The calls on `T s` are those on `s`, up to the last one. -/
structure Tracks (impl : HttpImpl δ) (T : HttpConnection δ → HttpConnection δ)
    (Good : HttpConnection δ → Prop) : Prop where
  error : ∀ {s e}, Good s → s.turn impl = .error e → (T s).turn impl = .error e
  again : ∀ {s m}, Good s → s.turn impl = .ok (.again m) →
    Good m ∧ (T s).turn impl = .ok (.again (T m))

section Tracks

variable {T : HttpConnection δ → HttpConnection δ} {Good : HttpConnection δ → Prop}
  {r : Except HttpError (HttpConnection δ)}

/-- The call returns if the ones it makes on the same connection do. -/
theorem exists_returns (h : ∀ m, s.turn impl = .ok (.again m) → ∃ r, Returns impl m r) :
    ∃ r, Returns impl s r := by
  cases ht : s.turn impl with
  | error e => exact ⟨_, (returns_of_error ht).mpr rfl⟩
  | ok t =>
    cases t with
    | done m => exact ⟨_, (returns_of_done ht).mpr rfl⟩
    | again m => exact (exists_congr fun r => returns_of_again ht).mpr (h m ht)

theorem Tracks.returns_error (hT : Tracks impl T Good) (hg : Good s) {e : HttpError}
    (h : Returns impl s (.error e)) : Returns impl (T s) (.error e) := by
  obtain ⟨fuel, hf⟩ := h
  induction fuel generalizing s with
  | zero => cases hf
  | succ fuel ih =>
    rw [stateChange] at hf
    cases ht : s.turn impl with
    | error e' =>
      rw [ht] at hf
      cases hf
      exact (returns_of_error (hT.error hg ht)).mpr rfl
    | ok t =>
      rw [ht] at hf
      cases t with
      | done m => cases hf
      | again m =>
        obtain ⟨hgm, htm⟩ := hT.again hg ht
        exact (returns_of_again htm).mpr (ih hgm hf)

/-- Where the calls on `s` come to an end, those on `T s` have one more to make. -/
theorem Tracks.last_call (hT : Tracks impl T Good) (hg : Good s) (h : Returns impl s (.ok m)) :
    ∃ s₁, Good s₁ ∧ s₁.turn impl = .ok (.done m) ∧
      ∀ r, Returns impl (T s) r ↔ Returns impl (T s₁) r := by
  obtain ⟨fuel, hf⟩ := h
  induction fuel generalizing s with
  | zero => cases hf
  | succ fuel ih =>
    rw [stateChange] at hf
    cases ht : s.turn impl with
    | error e' =>
      rw [ht] at hf
      cases hf
    | ok t =>
      rw [ht] at hf
      cases t with
      | done m =>
        cases hf
        exact ⟨s, hg, ht, fun r => Iff.rfl⟩
      | again m =>
        obtain ⟨hgm, htm⟩ := hT.again hg ht
        obtain ⟨s₁, hg₁, ht₁, hr⟩ := ih hgm hf
        exact ⟨s₁, hg₁, ht₁, fun r => (returns_of_again htm).trans (hr r)⟩

/-- If the calls on `T s` come to an end, so do those on `s`. -/
theorem Tracks.returns (hT : Tracks impl T Good) (hg : Good s) (h : Returns impl (T s) r) :
    ∃ r', Returns impl s r' := by
  obtain ⟨fuel, hf⟩ := h
  induction fuel generalizing s with
  | zero => cases hf
  | succ fuel ih =>
    refine exists_returns fun m ht => ?_
    obtain ⟨hgm, htm⟩ := hT.again hg ht
    rw [stateChange, htm] at hf
    exact ih hgm hf

end Tracks

/-! ### Pushing more bytes -/

section Extend

variable {d : IncomingDirection} {y : List UInt8} {r : Except HttpError (HttpConnection δ)}

theorem tracks_extend (hparse : PrefixMonotone impl.parse) (d : IncomingDirection)
    (y : List UInt8) : Tracks impl (extend d y) Scanned where
  error hs ht := by
    have h := turn_follows d y hparse hs
    rw [ht] at h
    exact h
  again hs ht := by
    have h := turn_follows d y hparse hs
    rw [ht] at h
    exact ⟨hs.again ht, h⟩

/-- **Bytes pushed after a call that waits count as if they had been there before it.** -/
theorem returns_extend (hparse : PrefixMonotone impl.parse) (hs : Scanned s)
    (h : Returns impl s (.ok m)) (hst : m.state ≠ .Reset) :
    Returns impl (m.extend d y) r ↔ Returns impl (s.extend d y) r := by
  obtain ⟨s₁, hs₁, ht, hr⟩ := (tracks_extend hparse d y).last_call hs h
  have hf := turn_follows d y hparse hs₁
  rw [ht] at hf
  rw [hr, returns_congr (hf.2.1 hst)]

/-- A reset is not changed by bytes behind it. -/
theorem returns_extend_reset (hparse : PrefixMonotone impl.parse) (hs : Scanned s)
    (h : Returns impl s (.ok m)) (hst : m.state = .Reset) (d : IncomingDirection)
    (y : List UInt8) : ∃ m', Returns impl (s.extend d y) (.ok m') ∧ m'.state = .Reset := by
  obtain ⟨s₁, hs₁, ht, hr⟩ := (tracks_extend hparse d y).last_call hs h
  have hf := turn_follows d y hparse hs₁
  rw [ht] at hf
  obtain ⟨m', hm', hst'⟩ := hf.1 hst
  exact ⟨m', (hr _).mpr ((returns_of_done hm').mpr rfl), hst'⟩

/-- What the client sends does not make a handshake reset. -/
theorem reset_of_extend_client (hparse : PrefixMonotone impl.parse) (hs : Scanned s)
    (h : Returns impl (s.extend .fromClient y) (.ok m)) (hst : m.state = .Reset) :
    ∃ m', Returns impl s (.ok m') ∧ m'.state = .Reset := by
  have hT := tracks_extend hparse .fromClient y
  obtain ⟨r, hr⟩ := hT.returns hs h
  cases r with
  | error e => cases (hT.returns_error hs hr).unique h
  | ok m₀ =>
    obtain ⟨s₁, hs₁, ht, hr₁⟩ := hT.last_call hs hr
    have hf := turn_follows .fromClient y hparse hs₁
    rw [ht] at hf
    obtain ⟨m', hm', hst'⟩ := hf.2.2 rfl
    have hu := ((hr₁ _).mpr ((returns_of_done hm').mpr rfl)).unique h
    cases hu
    exact ⟨m₀, hr, hst'.symm.trans hst⟩

end Extend

/-! ## 4. Bytes taken out of the queues -/

/-- The bytes taken out of the two queues so far. -/
structure Taken where
  toServer : List UInt8 := []
  toClient : List UInt8 := []
  deriving DecidableEq, Repr

def Taken.add (dir : OutgoingDirection) (bytes : List UInt8) (t : Taken) : Taken :=
  match dir with
  | .toServer => { t with toServer := t.toServer ++ bytes }
  | .toClient => { t with toClient := t.toClient ++ bytes }

/-- The connection with the bytes put back. -/
def restore (t : Taken) (s : HttpConnection δ) : HttpConnection δ :=
  { s with
    serverOutbuf := t.toServer ++ s.serverOutbuf
    clientOutbuf := t.toClient ++ s.clientOutbuf }

theorem restore_consumeData (t : Taken) (dir : OutgoingDirection) (size : Nat) :
    (s.consumeData dir size).restore (t.add dir ((s.peekData dir).take size)) = s.restore t := by
  cases dir <;> simp [restore, consumeData, peekData, Taken.add]

theorem restore_extend (t : Taken) (d : IncomingDirection) (y : List UInt8) :
    (s.extend d y).restore t = (s.restore t).extend d y := by
  cases d <;> rfl

/-- A call on the connection with the bytes put back. A reset drops those for the server. -/
def Turn.restore (t : Taken) : Turn δ → Turn δ
  | .again m => .again (m.restore t)
  | .done m => .done (m.restore (if m.state = .Reset then { t with toServer := [] } else t))

/-- **No call looks into the queues.** -/
theorem turn_restore (impl : HttpImpl δ) (t : Taken) (s : HttpConnection δ) :
    (s.restore t).turn impl = (s.turn impl).map (Turn.restore t) := by
  unfold turn
  rw [show (s.restore t).state = s.state from rfl]
  cases hst : s.state with
  | ExpectResponseHeaders =>
    have hrun : run countLineFeeds (s.restore t).crlfState
        ((s.restore t).serverInbuf.drop (s.restore t).counter) =
          run countLineFeeds s.crlfState (s.serverInbuf.drop s.counter) := rfl
    simp only [expectResponseHeaders, hrun]
    cases run countLineFeeds s.crlfState (s.serverInbuf.drop s.counter) with
    | inl c => simp [Except.map, Turn.restore, restore, hst]
    | inr p =>
      simp only [onHeaders, onResponse, reconnect, sendTunnelRequest]
      rw [show (s.restore t).rescan = s.rescan.restore t from rfl,
        show (s.rescan.restore t).serverInbuf = s.rescan.serverInbuf from rfl,
        show (s.rescan.restore t).before = s.rescan.before from rfl]
      cases impl.parse s.rescan.serverInbuf with
      | failed e => rfl
      | unfinished => simp [Except.map, Turn.restore, rescan, hst]
      | complete len head =>
        dsimp only
        cases verdict impl s.rescan.before head with
        | error e => rfl
        | ok v =>
          cases v with
          | tunnel => rfl
          | retry challenge n => rfl
          | reconnect challenge =>
            dsimp only
            rw [show tunnelRequest impl { s.rescan.restore t with
                digestState := some challenge, before := true, serverInbuf := [],
                serverOutbuf := [] } = tunnelRequest impl { s.rescan with
                digestState := some challenge, before := true, serverInbuf := [],
                serverOutbuf := [] } from rfl]
            cases tunnelRequest impl { s.rescan with
              digestState := some challenge, before := true, serverInbuf := [],
              serverOutbuf := [] } <;> rfl
  | ExpectResponse =>
    simp only [expectResponse, sendTunnelRequest]
    rw [show (s.restore t).skipBody = s.skipBody.restore t from rfl,
      show (s.skipBody.restore t).skip = s.skipBody.skip from rfl,
      show (s.skipBody.restore t).tunnelRequest impl = s.skipBody.tunnelRequest impl from rfl]
    split
    · cases s.skipBody.tunnelRequest impl <;> simp [Except.map, Turn.restore, restore]
    · simp [Except.map, Turn.restore, skipBody, hst]
  | Reset => rfl
  | Established => simp [Except.map, Turn.restore, restore, relay, hst]
  | SendRequest => simp [Except.map, Turn.restore, hst]

theorem tracks_restore (t : Taken) : Tracks impl (restore t) (fun _ => True) where
  error _ ht := by rw [turn_restore, ht]; rfl
  again _ ht := ⟨trivial, by rw [turn_restore, ht]; rfl⟩

theorem returns_restore (t : Taken) (h : Returns impl s (.ok m)) :
    Returns impl (s.restore t)
      (.ok (m.restore (if m.state = .Reset then { t with toServer := [] } else t))) := by
  obtain ⟨s₁, -, ht, hr⟩ := (tracks_restore t).last_call trivial h
  refine (hr _).mpr ((returns_of_done ?_).mpr rfl)
  rw [turn_restore, ht]
  rfl

/-! ## 5. Runs -/

/-- A call of the session to the handler. -/
inductive Event where
  | push (direction : IncomingDirection) (buffer : List UInt8)
  | consume (dir : OutgoingDirection) (size : Nat)
  deriving DecidableEq, Repr

/-- The calls return, one after the other, up to the first error. -/
inductive Runs (impl : HttpImpl δ) : List Event → HttpConnection δ → Taken →
    Except HttpError (HttpConnection δ × Taken) → Prop
  | stop (s t) : Runs impl [] s t (.ok (s, t))
  | fails {s t d x e events} (h : Returns impl (s.extend d x) (.error e)) :
      Runs impl (.push d x :: events) s t (.error e)
  | push {s t d x m events r} (h : Returns impl (s.extend d x) (.ok m))
      (rest : Runs impl events m t r) : Runs impl (.push d x :: events) s t r
  | consume {s t dir size events r}
      (rest : Runs impl events (s.consumeData dir size)
        (t.add dir ((s.peekData dir).take size)) r) :
      Runs impl (.consume dir size :: events) s t r

/-- The bytes pushed from one side, in order. -/
def pushed (d : IncomingDirection) : List Event → List UInt8
  | [] => []
  | .push d' x :: events => if d' = d then x ++ pushed d events else pushed d events
  | .consume _ _ :: events => pushed d events

/-- The connection with all the bytes of a run in its buffers. -/
def loaded (events : List Event) (s : HttpConnection δ) : HttpConnection δ :=
  (s.extend .fromServer (pushed .fromServer events)).extend .fromClient (pushed .fromClient events)

theorem loaded_nil : s.loaded [] = s := by
  show { s with serverInbuf := s.serverInbuf ++ [], clientInbuf := s.clientInbuf ++ [] } = s
  rw [List.append_nil, List.append_nil]

theorem loaded_push (d : IncomingDirection) (x : List UInt8) (events : List Event) :
    s.loaded (.push d x :: events) = (s.extend d x).loaded events := by
  cases d <;> simp [loaded, extend, pushed]

variable {t : Taken} {events : List Event}

/-- An error of a call is the result of the call on all the bytes. -/
theorem returns_loaded_error (hparse : PrefixMonotone impl.parse) (hs : Scanned s) {e : HttpError}
    (h : Returns impl s (.error e)) (events : List Event) :
    Returns impl (s.loaded events) (.error e) :=
  (tracks_extend hparse _ _).returns_error (hs.extend _ _)
    ((tracks_extend hparse _ _).returns_error hs h)

theorem returns_loaded_reset (hparse : PrefixMonotone impl.parse) (hs : Scanned s)
    (h : Returns impl s (.ok m)) (hst : m.state = .Reset) (events : List Event) :
    ∃ m', Returns impl (s.loaded events) (.ok m') ∧ m'.state = .Reset := by
  obtain ⟨m₁, h₁, hst₁⟩ := returns_extend_reset hparse hs h hst .fromServer
    (pushed .fromServer events)
  exact returns_extend_reset hparse (hs.extend _ _) h₁ hst₁ .fromClient (pushed .fromClient events)

/-- The call on all the bytes does not end in a reset. -/
def NoReset (impl : HttpImpl δ) (s : HttpConnection δ) : Prop :=
  ∀ m, Returns impl s (.ok m) → m.state ≠ .Reset

/-- One push of a run: the call on the bytes so far. -/
theorem returns_push (hparse : PrefixMonotone impl.parse) {s₀ : HttpConnection δ}
    (hs : Scanned s₀) (hnow : Returns impl s₀ (.ok (s.restore t))) {d : IncomingDirection}
    {x : List UInt8} (hno : NoReset impl (s₀.loaded (.push d x :: events))) :
    (∀ e, Returns impl (s.extend d x) (.error e) → Returns impl (s₀.extend d x) (.error e)) ∧
    (∀ m, Returns impl (s.extend d x) (.ok m) →
      Returns impl (s₀.extend d x) (.ok (m.restore t))) ∧
    (∀ r, Returns impl (s₀.extend d x) r → ∃ r', Returns impl (s.extend d x) r') := by
  have hst : (s.restore t).state ≠ .Reset := fun hst =>
    have ⟨m', hm', hst'⟩ := returns_loaded_reset hparse hs hnow hst (.push d x :: events)
    hno m' hm' hst'
  have hiff : ∀ r, Returns impl ((s.extend d x).restore t) r ↔ Returns impl (s₀.extend d x) r := by
    intro r
    rw [restore_extend]
    exact returns_extend hparse hs hnow hst
  refine ⟨fun e h => ?_, fun m h => ?_, fun r h => ?_⟩
  · exact (hiff _).mp ((tracks_restore t).returns_error trivial h)
  · have hmore := (hiff _).mp (returns_restore t h)
    have hm : m.state ≠ .Reset := by
      intro hm
      obtain ⟨m₂, h₂, hm₂⟩ := returns_loaded_reset hparse (hs.extend d x) hmore hm events
      rw [← loaded_push] at h₂
      exact hno m₂ h₂ hm₂
    rwa [if_neg hm] at hmore
  · exact (tracks_restore t).returns trivial ((hiff r).mpr h)

/-- **A run returns what one call on all its bytes returns.** -/
theorem Runs.returns (hparse : PrefixMonotone impl.parse) {r} (h : Runs impl events s t r)
    {s₀ : HttpConnection δ} (hs : Scanned s₀) (hnow : Returns impl s₀ (.ok (s.restore t)))
    (hno : NoReset impl (s₀.loaded events)) :
    Returns impl (s₀.loaded events) (r.map fun p => p.1.restore p.2) := by
  induction h generalizing s₀ with
  | stop s t =>
    rw [loaded_nil]
    exact hnow
  | fails h =>
    rw [loaded_push]
    exact returns_loaded_error hparse (hs.extend _ _)
      ((returns_push hparse hs hnow hno).1 _ h) _
  | push h rest ih =>
    rw [loaded_push] at hno ⊢
    exact ih (hs.extend _ _)
      ((returns_push hparse hs hnow (by rw [loaded_push]; exact hno)).2.1 _ h) hno
  | consume rest ih => exact ih hs (by rw [restore_consumeData]; exact hnow) hno

/-- **If the one call returns, so does the run.** -/
theorem runs_of_returns (hparse : PrefixMonotone impl.parse) {s₀ : HttpConnection δ}
    (hs : Scanned s₀) (hnow : Returns impl s₀ (.ok (s.restore t)))
    (hno : NoReset impl (s₀.loaded events)) {r₀ : Except HttpError (HttpConnection δ)}
    (h : Returns impl (s₀.loaded events) r₀) : ∃ r, Runs impl events s t r := by
  induction events generalizing s₀ s t with
  | nil => exact ⟨_, .stop s t⟩
  | cons event events ih =>
    cases event with
    | consume dir size =>
      rw [← restore_consumeData t dir size] at hnow
      obtain ⟨r, hr⟩ := ih hs hnow hno h
      exact ⟨r, .consume hr⟩
    | push d x =>
      obtain ⟨-, hok, hret⟩ := returns_push hparse hs hnow hno
      rw [loaded_push] at h hno
      -- the calls on fewer bytes return as well
      obtain ⟨r₁, h₁⟩ := (tracks_extend hparse _ _).returns ((hs.extend d x).extend _ _) h
      obtain ⟨r₂, h₂⟩ := (tracks_extend hparse _ _).returns (hs.extend d x) h₁
      obtain ⟨r₃, h₃⟩ := hret r₂ h₂
      cases r₃ with
      | error e => exact ⟨_, .fails h₃⟩
      | ok m =>
        obtain ⟨r, hr⟩ := ih (hs.extend d x) (hok m h₃) hno h
        exact ⟨r, .push h₃ hr⟩

/-! ## 6. Calls that return -/

/-- The connections that `state_change` calls itself on. -/
abbrev Passes (impl : HttpImpl δ) : HttpConnection δ → HttpConnection δ → Prop :=
  Relation.ReflTransGen fun a b => a.turn impl = .ok (.again b)

/-- For every challenge the call answers on the connection, the lengths of its head and of its body
    add up to a `usize`. -/
def LengthsFit (impl : HttpImpl δ) (s : HttpConnection δ) : Prop :=
  ∀ m, Passes impl s m → m.state = .ExpectResponseHeaders → ∀ len n head challenge,
    impl.parse m.serverInbuf = .complete len head →
    verdict impl m.before head = .ok (.retry challenge n) → n + len < impl.usizeValues

theorem LengthsFit.again (hfits : LengthsFit impl s) (h : s.turn impl = .ok (.again m)) :
    LengthsFit impl m := fun m' hm' => hfits m' (.head h hm')

/-- **The calls come to an end where the lengths fit**: each challenge takes bytes out of the
    buffer. -/
theorem returns_of_lengthsFit (hheads : ReadsHeads impl.parse)
    (hst : s.state = .ExpectResponseHeaders) (hfits : LengthsFit impl s) :
    ∃ r, Returns impl s r := by
  induction hn : s.serverInbuf.length using Nat.strong_induction_on generalizing s with
  | _ size ih =>
    refine exists_returns fun m hturn => ?_
    have hnext := hfits.again hturn
    cases turn_cases hturn with
    | tunnel => exact ⟨_, (returns_of_done rfl).mpr rfl⟩
    | resent hst' | reset hst' => cases hst.symm.trans hst'
    | @retry _ len n head challenge hparse hverdict =>
      have hlen := hheads.len_pos hparse
      have hskip : (n + len) % impl.usizeValues = n + len :=
        Nat.mod_eq_of_lt (hfits s .refl hst len n head challenge hparse hverdict)
      generalize hm : ({ s.rescan with
        digestState := some challenge, before := true, state := .ExpectResponse,
        skip := (n + len) % impl.usizeValues } : HttpConnection δ) = m at hnext
      have hbuf : m.serverInbuf = s.serverInbuf := by rw [← hm]; rfl
      have hms : m.skip = n + len := by rw [← hm]; exact hskip
      refine exists_returns fun m' hturn' => ?_
      have hlast := hnext.again hturn'
      cases turn_cases hturn' with
      | @resent _ hzero sent hsend =>
        have hle := skipBody_skip_eq_zero.mp hzero
        have hsent : sent.serverInbuf.length < s.serverInbuf.length := by
          rw [(sendTunnelRequest_fields hsend).1, skipBody, List.length_drop]
          rw [hbuf, hms] at hle ⊢
          omega
        exact ih _ (hn ▸ hsent) rfl hlast rfl
      | tunnel hst' | retry hst' | reset hst' =>
        rw [← hm] at hst'
        cases hst'

theorem returns_extend_client (hparse : PrefixMonotone impl.parse) (hs : Scanned s)
    {r : Except HttpError (HttpConnection δ)} (h : Returns impl s r) (y : List UInt8) :
    ∃ r, Returns impl (s.extend .fromClient y) r := by
  have hT := tracks_extend hparse .fromClient y
  cases r with
  | error e => exact ⟨_, hT.returns_error hs h⟩
  | ok m =>
    obtain ⟨s₁, hs₁, ht, hr⟩ := hT.last_call hs h
    have hf := turn_follows .fromClient y hparse hs₁
    rw [ht] at hf
    obtain ⟨m', hm', -⟩ := hf.2.2 rfl
    exact ⟨_, (hr _).mpr ((returns_of_done hm').mpr rfl)⟩

/-- The lengths fit in all of the calls, which are fewer than `fuel`. -/
def fitsWithin (impl : HttpImpl δ) : Nat → HttpConnection δ → Bool
  | 0, _ => false
  | fuel + 1, s =>
    (match impl.parse s.serverInbuf with
      | .complete len head =>
        match verdict impl s.before head with
        | .ok (.retry _ n) => decide (n + len < impl.usizeValues)
        | _ => true
      | _ => true) &&
    match s.turn impl with
    | .ok (.again m) => fitsWithin impl fuel m
    | _ => true

theorem lengthsFit_of_fitsWithin {fuel : Nat} (h : fitsWithin impl fuel s = true) :
    LengthsFit impl s := by
  induction fuel generalizing s with
  | zero => cases h
  | succ fuel ih =>
    obtain ⟨hhere, hlater⟩ := Bool.and_eq_true_iff.mp h
    intro m hm hst len n head challenge hparse hverdict
    rcases Relation.ReflTransGen.cases_head hm with rfl | ⟨m', hturn, hm'⟩
    · rw [hparse] at hhere
      dsimp only at hhere
      rw [hverdict] at hhere
      exact of_decide_eq_true hhere
    · rw [hturn] at hlater
      exact ih hlater m hm' hst len n head challenge hparse hverdict

/-! ## 7. Fragmentation -/

/-- A connection that has sent its request and waits. -/
structure Fresh (c : HttpConnection δ) : Prop where
  state : c.state = .ExpectResponseHeaders
  serverInbuf : c.serverInbuf = []
  clientOutbuf : c.clientOutbuf = []
  counter : c.counter = 0
  crlfState : c.crlfState = 0

variable {c : HttpConnection δ} {info : SessionInfo} {domainName : Option Str}
  {credentials : Option UserKey} {digestState : Option δ}

theorem fresh_new (h : new impl info domainName credentials digestState = .ok c) : Fresh c := by
  unfold new sendTunnelRequest at h
  split at h
  · cases h
  · cases h
    exact ⟨rfl, rfl, rfl, rfl, rfl⟩

theorem Fresh.scanned (hc : Fresh c) : Scanned c := scanned_of_zero hc.counter hc.crlfState

/-- With nothing to read, a call changes nothing. -/
theorem Fresh.returns (hc : Fresh c) : Returns impl c (.ok (c.restore {})) := by
  obtain ⟨state, clientInbuf, serverInbuf, clientOutbuf, serverOutbuf, crlfState, counter⟩ := c
  obtain ⟨hstate, hserver, hclient, hcounter, hcrlf⟩ := hc
  dsimp only at hstate hserver hclient hcounter hcrlf
  subst hstate hserver hclient hcounter hcrlf
  exact ⟨1, rfl⟩

theorem Fresh.noReset_loaded (hparse : PrefixMonotone impl.parse) (hc : Fresh c)
    (hno : NoReset impl (c.extend .fromServer (pushed .fromServer events))) :
    NoReset impl (c.loaded events) := by
  intro m hm hst
  obtain ⟨m', hm', hst'⟩ := reset_of_extend_client hparse (hc.scanned.extend _ _) hm hst
  exact hno m' hm' hst'

/-- Two runs end alike: same state, same bytes waiting, same number of bytes to skip, and the same
    bytes queued in all for the server and for the client. -/
structure SameEnd (s : HttpConnection δ) (t : Taken) (s' : HttpConnection δ) (t' : Taken) :
    Prop where
  state : s.state = s'.state
  serverInbuf : s.serverInbuf = s'.serverInbuf
  clientInbuf : s.clientInbuf = s'.clientInbuf
  skip : s.skip = s'.skip
  toServer : t.toServer ++ s.serverOutbuf = t'.toServer ++ s'.serverOutbuf
  toClient : t.toClient ++ s.clientOutbuf = t'.toClient ++ s'.clientOutbuf

theorem sameEnd_of_restore {s s' : HttpConnection δ} {t t' : Taken}
    (h : s.restore t = s'.restore t') : SameEnd s t s' t' where
  state := congrArg (·.state) h
  serverInbuf := congrArg (·.serverInbuf) h
  clientInbuf := congrArg (·.clientInbuf) h
  skip := congrArg (·.skip) h
  toServer := congrArg (·.serverOutbuf) h
  toClient := congrArg (·.clientOutbuf) h

/-- Both runs fail with the same error, or both end alike. -/
def EndAlike (impl : HttpImpl δ) (c : HttpConnection δ) (events events' : List Event) : Prop :=
  (∃ e, Runs impl events c {} (.error e) ∧ Runs impl events' c {} (.error e)) ∨
  ∃ s t s' t', Runs impl events c {} (.ok (s, t)) ∧ Runs impl events' c {} (.ok (s', t')) ∧
    SameEnd s t s' t'

/-- **The handler does not see where its input is cut.** Two runs in which each side sends the
    same bytes, with no response that takes the reset path, fail with the same error or end alike,
    if the lengths of the challenges in the stream fit. They do so exactly where one call on all
    the bytes returns. -/
theorem fragmentation_independent (hparse : PrefixMonotone impl.parse)
    (hheads : ReadsHeads impl.parse)
    (hnew : new impl info domainName credentials digestState = .ok c) {events events' : List Event}
    (hserver : pushed .fromServer events = pushed .fromServer events')
    (hclient : pushed .fromClient events = pushed .fromClient events')
    (hno : NoReset impl (c.extend .fromServer (pushed .fromServer events))) :
    (LengthsFit impl (c.extend .fromServer (pushed .fromServer events)) →
      EndAlike impl c events events') ∧
    (EndAlike impl c events events' ↔ ∃ r, Returns impl (c.loaded events) r) := by
  have hc := fresh_new hnew
  have hloaded : c.loaded events = c.loaded events' := by
    unfold loaded
    rw [hserver, hclient]
  have hno₁ := hc.noReset_loaded hparse hno
  have hno₂ : NoReset impl (c.loaded events') := hloaded ▸ hno₁
  have halike : (∃ r, Returns impl (c.loaded events) r) → EndAlike impl c events events' := by
    rintro ⟨r₀, h₀⟩
    obtain ⟨r, hr⟩ := runs_of_returns hparse hc.scanned hc.returns hno₁ h₀
    obtain ⟨r', hr'⟩ := runs_of_returns hparse hc.scanned hc.returns hno₂ (hloaded ▸ h₀)
    have heq := (hr.returns hparse hc.scanned hc.returns hno₁).unique
      (hloaded ▸ hr'.returns hparse hc.scanned hc.returns hno₂)
    cases r with
    | error e =>
      cases r' with
      | error e' =>
        cases heq
        exact .inl ⟨e, hr, hr'⟩
      | ok p' => cases heq
    | ok p =>
      cases r' with
      | error e' => cases heq
      | ok p' =>
        obtain ⟨s, t⟩ := p
        obtain ⟨s', t'⟩ := p'
        exact .inr ⟨s, t, s', t', hr, hr', sameEnd_of_restore (Except.ok.inj heq)⟩
  refine ⟨fun hfits => halike ?_, fun h => ?_, halike⟩
  · have hstate : (c.extend .fromServer (pushed .fromServer events)).state =
        .ExpectResponseHeaders := hc.state
    obtain ⟨r, hr⟩ := returns_of_lengthsFit hheads hstate hfits
    exact returns_extend_client hparse (hc.scanned.extend _ _) hr _
  · rcases h with ⟨e, hr, -⟩ | ⟨s, t, s', t', hr, -⟩
    · exact ⟨_, hr.returns hparse hc.scanned hc.returns hno₁⟩
    · exact ⟨_, hr.returns hparse hc.scanned hc.returns hno₁⟩

/-! ### A dialogue -/

section Sample

/-- The grammar of heads and the challenges of digest_auth, on a 64-bit target. What is computed
    from credentials is left open: the runs below have none. -/
def sampleImpl : HttpImpl WwwAuthenticateHeader where
  usizeValues := 2 ^ 64
  parse := responseHead
  parseChallenge := WwwAuthenticateHeader.parse
  stale challenge := challenge.stale
  respond challenge _ := .ok ("Digest".toList, challenge)
  base64 _ := []

def sampleInfo : SessionInfo := ⟨.v4 0x0A000002#32 4000, .v4 0xC0000201#32 443⟩

/-- The connection `new` gives. -/
def sampleConnection : HttpConnection WwwAuthenticateHeader where
  state := .ExpectResponseHeaders
  clientInbuf := []
  serverInbuf := []
  clientOutbuf := []
  serverOutbuf :=
    Str.asBytes "CONNECT 192.0.2.1:443 HTTP/1.1\r\nHost: 192.0.2.1:443\r\n\r\n".toList
  crlfState := 0
  counter := 0
  skip := 0
  digestState := none
  before := false
  credentials := none
  info := sampleInfo
  domainName := none

theorem new_sample : new sampleImpl sampleInfo none none none = .ok sampleConnection := by
  decide +kernel

/-- A challenge with a body, its retry accepted, and the first bytes of the tunnel. -/
def sampleStream : List UInt8 :=
  Str.asBytes ("HTTP/1.1 407 No\r\nProxy-Authenticate: Digest realm=\"r\", ".toList ++
    "nonce=\"n\"\r\nContent-Length: 2\r\n\r\nnoHTTP/1.1 200 OK\r\n\r\nhi".toList)

/-- Cut inside the first head and at its end, with a client that talks in between. -/
def sampleEvents : List Event :=
  [.push .fromServer (sampleStream.take 20), .push .fromClient [1], .consume .toServer 7,
    .push .fromServer (sampleStream.drop 20), .push .fromClient [2]]

/-- All at once. -/
def sampleEvents' : List Event := [.push .fromClient [1, 2], .push .fromServer sampleStream]

theorem noReset_sample : NoReset sampleImpl (sampleConnection.extend .fromServer sampleStream) := by
  have hret : ((stateChange sampleImpl 5 (sampleConnection.extend .fromServer sampleStream)).map
      fun r => r.map (·.state)) = some (.ok .Established) := by
    decide +kernel
  obtain ⟨r, hr, hstate⟩ := Option.map_eq_some_iff.mp hret
  intro m hm hst
  cases Returns.unique ⟨5, hr⟩ hm
  have hstate : Except.ok m.state = Except.ok HttpState.Established := hstate
  rw [hst] at hstate
  cases hstate

theorem sample_fragmentation_independent :
    EndAlike sampleImpl sampleConnection sampleEvents sampleEvents' := by
  have hserver : pushed .fromServer sampleEvents = sampleStream := by
    show sampleStream.take 20 ++ (sampleStream.drop 20 ++ []) = _
    rw [List.append_nil, List.take_append_drop]
  have hserver' : pushed .fromServer sampleEvents' = sampleStream := List.append_nil _
  have hfits : fitsWithin sampleImpl 5 (sampleConnection.extend .fromServer sampleStream) =
      true := by
    decide +kernel
  refine (fragmentation_independent prefixMonotone_responseHead readsHeads_responseHead new_sample
    (hserver.trans hserver'.symm) rfl ?_).1 ?_
  · rw [hserver]
    exact noReset_sample
  · rw [hserver]
    exact lengthsFit_of_fitsWithin hfits

/-! ### A response that is read again and again -/

/-- The length of this body and of this head, 118 bytes, are together 2 to the 64. -/
def wrappedResponse : List UInt8 :=
  Str.asBytes ("HTTP/1.1 407 No\r\nProxy-Authenticate: Digest realm=\"r\", nonce=\"n\", ".toList ++
    "stale=true\r\nContent-Length: 18446744073709551498\r\n\r\n".toList)

def staleChallenge : WwwAuthenticateHeader := ⟨['r'], ['n'], true⟩

def wrappedHead : ResponseHead where
  version := some 1
  code := some 407
  reason := some "No".toList
  headers := [⟨"Proxy-Authenticate".toList,
      Str.asBytes "Digest realm=\"r\", nonce=\"n\", stale=true".toList⟩,
    ⟨"Content-Length".toList, Str.asBytes "18446744073709551498".toList⟩]

/-- The connection at the head, after any number of requests. -/
def atHead (before : Bool) (digestState : Option WwwAuthenticateHeader) (out : List UInt8) :
    HttpConnection WwwAuthenticateHeader :=
  { sampleConnection with serverInbuf := wrappedResponse, before, digestState, serverOutbuf := out }

/-- The connection behind the head, with nothing to skip. -/
def atBody (out : List UInt8) : HttpConnection WwwAuthenticateHeader :=
  { atHead true (some staleChallenge) out with state := .ExpectResponse }

theorem turn_atHead (before : Bool) (digestState : Option WwwAuthenticateHeader)
    (out : List UInt8) :
    (atHead before digestState out).turn sampleImpl = .ok (.again (atBody out)) := by
  have hrun : run countLineFeeds 0 wrappedResponse = .inr ((), 118) := by decide +kernel
  have hparse : sampleImpl.parse wrappedResponse = .complete 118 wrappedHead := by decide +kernel
  have hverdict : verdict sampleImpl before wrappedHead =
      .ok (.retry staleChallenge 18446744073709551498) := by
    cases before <;> decide +kernel
  have hsearch : run countLineFeeds (atHead before digestState out).crlfState
      ((atHead before digestState out).serverInbuf.drop (atHead before digestState out).counter) =
        .inr ((), 118) := by
    unfold atHead sampleConnection
    rw [List.drop_zero, hrun]
  have hskip : (18446744073709551498 + 118) % sampleImpl.usizeValues = 0 := by decide +kernel
  have hparse' : sampleImpl.parse (atHead before digestState out).rescan.serverInbuf =
      .complete 118 wrappedHead := by
    unfold atHead rescan
    dsimp only
    exact hparse
  rw [turn_headers rfl, expectResponseHeaders_found hsearch, onHeaders_complete hparse',
    onResponse_retry (show verdict sampleImpl (atHead before digestState out).rescan.before
      wrappedHead = _ from hverdict), hskip]
  unfold atBody atHead rescan
  rfl

theorem turn_atBody (out : List UInt8) : (atBody out).turn sampleImpl =
    .ok (.again (atHead true (some staleChallenge) (out ++ sampleConnection.serverOutbuf))) := by
  have hskip : (atBody out).skipBody = atBody out := by
    simp [skipBody, atBody, atHead, sampleConnection]
  have hrequest : (atBody out).tunnelRequest sampleImpl =
      .ok (sampleConnection.serverOutbuf, some staleChallenge) := by
    show tunnelRequest sampleImpl { sampleConnection with digestState := some staleChallenge } = _
    decide +kernel
  rw [turn_body rfl]
  unfold expectResponse sendTunnelRequest
  rw [hskip, if_pos (show (atBody out).skip = 0 from rfl), hrequest]
  rfl

theorem stateChange_atHead (fuel : Nat) : ∀ before digestState out,
    stateChange sampleImpl fuel (atHead before digestState out) = none ∧
      stateChange sampleImpl fuel (atBody out) = none := by
  induction fuel with
  | zero => exact fun _ _ _ => ⟨rfl, rfl⟩
  | succ fuel ih =>
    intro before digestState out
    rw [stateChange, stateChange, turn_atHead, turn_atBody]
    exact ⟨(ih true none out).2, (ih true (some staleChallenge) _).1⟩

/-- **The calls may have no end.** The length in this challenge wraps the number of bytes to skip
    to 0, so the same bytes are read as the answer to every retry: a handshake that neither fails
    nor ends in any state. -/
theorem wrapped_length_never_returns :
    PrefixMonotone sampleImpl.parse ∧
      new sampleImpl sampleInfo none none none = .ok sampleConnection ∧
      NoReset sampleImpl (sampleConnection.extend .fromServer wrappedResponse) ∧
      ∀ r, ¬ Runs sampleImpl [.push .fromServer wrappedResponse] sampleConnection {} r := by
  have hnone : ∀ r,
      ¬ Returns sampleImpl (sampleConnection.extend .fromServer wrappedResponse) r := by
    intro r hr
    obtain ⟨fuel, hf⟩ := hr
    have hnone := (stateChange_atHead fuel false none sampleConnection.serverOutbuf).1
    have heq : sampleConnection.extend .fromServer wrappedResponse =
        atHead false none sampleConnection.serverOutbuf := by
      unfold extend atHead sampleConnection
      dsimp only
      rw [List.nil_append]
    rw [heq, hnone] at hf
    cases hf
  refine ⟨prefixMonotone_responseHead, new_sample, fun m hm => absurd hm (hnone _), fun r hr => ?_⟩
  cases hr with
  | fails h => exact hnone _ h
  | push h rest => exact hnone _ h

end Sample

end HttpConnection

end Tun2Proxy
