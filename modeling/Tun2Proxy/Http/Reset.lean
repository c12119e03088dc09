/-
  File:      Tun2Proxy/Http/Reset.lean
  Subject:   What becomes of a connection the HTTP handler wants reset.

  A 407 after which the connection cannot be used again puts the handler in `Reset`, with the
  retried request queued. `reset_connection` reports that state and nobody asks for it: the session
  writes the request to the connection at hand and reads the answer from it.

  Whether a reset is honoured shows after a push, in the middle of the loop of
  `handle_proxy_session`. `Point` is a place in that loop, `Point.step` goes to the next one, and
  `Point.outcome_of_reaches` says that these are the places `proxyLoop` passes.
-/
import Mathlib.Logic.Relation
import Tun2Proxy.Http.Fragmentation

namespace Tun2Proxy

/-! ## 1. The places of the session's loop -/

/-- The head of the loop, and the place right behind `push_data`. -/
inductive Point (σ : Type) where
  | head (launched : Bool) (reads : List ReadResult) (x : Exchange σ)
  | pushed (reads : List ReadResult) (x : Exchange σ)

namespace Point

variable {σ : Type} (methods : ProxyHandler σ)

def exchange : Point σ → Exchange σ
  | head _ _ x => x
  | pushed _ x => x

/-- What is on the connection when the session goes on from here or ends. -/
def written : Point σ → List UInt8
  | head _ _ x => x.server.written
  | pushed _ x => (x.server.writeAll (methods.peekData .toServer x.handler)).1.written

def behindPush : Point σ → Bool
  | head _ _ _ => false
  | pushed _ _ => true

/-- Where a session begins. -/
def start (handler : σ) (reads : List ReadResult) (server : Writer) : Point σ :=
  head false reads ⟨handler, reads, server, 0, 0⟩

/-- On to the next place, or out of the loop. -/
def step : Point σ → Except Stop (Exchange σ) ⊕ Point σ
  | head launched reads x =>
    if methods.connectionEstablished x.handler then .inl (.ok { x with reads })
    else
      match if launched then .ok x else x.launch methods with
      | .error e => .inl (.error (.error e))
      | .ok x =>
        match reads with
        | [] => .inl (.error .blocked)
        | .error e :: _ => .inl (.error (.error e))
        | .ok buffer :: reads =>
          if buffer.length = 0 then
            .inl (.error (.error (.string "server closed accidentially")))
          else
            match methods.pushData .fromServer buffer x.handler with
            | .error e => .inl (.error (.error e))
            | .ok handler =>
              .inr (pushed reads { x with handler, rx := x.rx + buffer.length })
  | pushed reads x =>
    match x.answer methods with
    | .error e => .inl (.error (.error e))
    | .ok x => .inr (head true reads x)

/-- What the loop returns from here. -/
def outcome : Point σ → Except Stop (Exchange σ)
  | head launched reads x => proxyLoop methods launched reads x
  | pushed reads x =>
    match x.answer methods with
    | .error e => .error (.error e)
    | .ok x => proxyLoop methods true reads x

/-- The session gets from one place to the other. -/
def Reaches : Point σ → Point σ → Prop :=
  Relation.ReflTransGen fun p q => p.step methods = .inr q

variable {methods} {p q : Point σ}

/-- **The places are those of `proxyLoop`.** -/
theorem outcome_step (p : Point σ) :
    p.outcome methods = (p.step methods).elim id (outcome methods) := by
  cases p with
  | head launched reads x =>
    rw [outcome, proxyLoop, step]
    by_cases hest : methods.connectionEstablished x.handler = true
    · rw [if_pos hest, if_pos hest]
      rfl
    rw [if_neg hest, if_neg hest]
    generalize (if launched = true then Except.ok x else x.launch methods) = launch
    cases launch with
    | error e => rfl
    | ok x =>
      rcases reads with _ | ⟨e | buffer, reads⟩
      · rfl
      · rfl
      dsimp only
      by_cases hlen : buffer.length = 0
      · rw [if_pos hlen, if_pos hlen]
        rfl
      rw [if_neg hlen, if_neg hlen]
      cases methods.pushData .fromServer buffer x.handler with
      | error e => rfl
      | ok handler => rfl
  | pushed reads x =>
    rw [outcome, step]
    cases x.answer methods with
    | error e => rfl
    | ok x => rfl

theorem outcome_of_reaches (h : Reaches methods p q) : p.outcome methods = q.outcome methods := by
  induction h with
  | refl => rfl
  | tail _ hstep ih =>
    rw [ih, outcome_step, hstep]
    rfl

/-- From the head the session goes on behind a push. -/
theorem step_head {launched : Bool} {reads : List ReadResult} {x : Exchange σ}
    (h : (head launched reads x).step methods = .inr q) :
    ∃ buffer rest handler, ∃ y : Exchange σ, reads = .ok buffer :: rest ∧
      methods.pushData .fromServer buffer y.handler = .ok handler ∧
      q = pushed rest { y with handler, rx := y.rx + buffer.length } := by
  rw [step] at h
  split at h
  · cases h
  split at h
  · cases h
  rename_i y hlaunch
  split at h
  · cases h
  · cases h
  rename_i buffer rest
  split at h
  · cases h
  split at h
  · cases h
  rename_i handler hpush
  exact ⟨buffer, rest, handler, y, rfl, hpush, (Sum.inr.inj h).symm⟩

theorem step_pushed {reads : List ReadResult} {x : Exchange σ}
    (h : (pushed reads x).step methods = .inr q) :
    ∃ y, x.answer methods = .ok y ∧ q = head true reads y := by
  rw [step] at h
  split at h
  · cases h
  rename_i y hanswer
  exact ⟨y, hanswer, (Sum.inr.inj h).symm⟩

/-- Behind a push the handler is what the push has left. -/
theorem pushed_of_reaches {handler : σ} {reads reads' : List ReadResult} {server : Writer}
    {x : Exchange σ} (h : Reaches methods (start handler reads server) (pushed reads' x)) :
    ∃ buffer before, methods.pushData .fromServer buffer before = .ok x.handler := by
  obtain ⟨q, -, hstep⟩ := (Relation.ReflTransGen.cases_tail h).resolve_left nofun
  cases q with
  | head launched reads y =>
    obtain ⟨buffer, rest, after, y, -, hpush, hq⟩ := step_head hstep
    cases hq
    exact ⟨buffer, y.handler, hpush⟩
  | pushed reads y =>
    obtain ⟨y, -, hq⟩ := step_pushed hstep
    cases hq

/-- Where the write fails the session stays. -/
theorem eq_of_reaches {reads : List ReadResult} {x : Exchange σ} {e : Error}
    (hanswer : x.answer methods = .error e) (h : Reaches methods (pushed reads x) q) :
    q = pushed reads x := by
  rcases Relation.ReflTransGen.cases_head h with h | ⟨q', hstep, -⟩
  · exact h.symm
  obtain ⟨y, hy, -⟩ := step_pushed hstep
  rw [hanswer] at hy
  cases hy

end Point

/-- The session returns what its loop returns from the first place. -/
theorem handleProxySession_eq {σ : Type} (methods : ProxyHandler σ) (handler : σ)
    (reads : List ReadResult) (server : Writer) :
    handleProxySession methods handler reads server =
      ((Point.start handler reads server).outcome methods).map fun x =>
        (methods.getUdpAssociate x.handler, x) := by
  unfold handleProxySession Point.start
  rw [Point.outcome]
  cases proxyLoop methods false reads ⟨handler, reads, server, 0, 0⟩ with
  | error stop => rfl
  | ok x => rfl

/-! ## 2. Writes that fail -/

/-- The next write to the stream fails before a byte of it has gone out. -/
def Writer.Refuses (self : Writer) : Prop := ∃ e rest, self.outcomes = .error (0, e) :: rest

section Answer

variable {σ : Type} {methods : ProxyHandler σ} {x : Exchange σ} {w : Writer} {data : List UInt8}

theorem Writer.writeAll_refused (hdata : data ≠ []) (h : w.Refuses) :
    ∃ e, (w.writeAll data).2 = .error e ∧ (w.writeAll data).1.written = w.written := by
  obtain ⟨e, rest, hw⟩ := h
  cases data with
  | nil => exact absurd rfl hdata
  | cons b data =>
    rw [writeAll, hw]
    exact ⟨e, rfl, List.append_nil _⟩

/-- Any other write leaves something on the connection. -/
theorem Writer.writeAll_taken (hdata : data ≠ [])
    (h : (w.writeAll data).1.written = w.written) : w.Refuses := by
  cases data with
  | nil => exact absurd rfl hdata
  | cons b data =>
    rcases hw : w.outcomes with _ | ⟨⟨n, e⟩ | u, rest⟩ <;> rw [writeAll, hw] at h
    · exact absurd (List.append_right_eq_self.mp h) hdata
    · have hnone := List.append_right_eq_self.mp h
      rw [List.take_eq_nil_iff] at hnone
      exact ⟨e, rest, by rw [hw, hnone.resolve_right hdata]⟩
    · exact absurd (List.append_right_eq_self.mp h) hdata

theorem Exchange.answer_refused (hdata : methods.peekData .toServer x.handler ≠ [])
    (h : x.server.Refuses) : ∃ e, x.answer methods = .error e := by
  obtain ⟨e, he, -⟩ := Writer.writeAll_refused hdata h
  refine ⟨e, ?_⟩
  rw [answer, if_pos (List.length_pos_iff.mpr hdata), flush]
  split
  · rename_i hwrite
    rw [hwrite] at he
    rw [Except.error.inj he]
  · rename_i hwrite
    rw [hwrite] at he
    cases he

end Answer

/-! ## 3. The HTTP handler in a session -/

/-- An error of the handler as `push_data` returns it. -/
def HttpError.toIo : HttpError → Error
  | httparse e => .io .other ("httparse::Error " ++ e)
  | digestAuth e => .io .other ("digest_auth::Error " ++ e)
  | utf8 => .io .other "std::str::Utf8Error"
  | intParse => .io .other "std::num::ParseIntError"
  | string text => .io .other text

namespace HttpConnection

variable {δ : Type} {impl : HttpImpl δ} {s m : HttpConnection δ}

/-- The handler's methods, if each `state_change` returns within `fuel` calls. A push that does not
    ends the session: nothing more is read or written. -/
def methods (impl : HttpImpl δ) (fuel : Nat) : ProxyHandler (HttpConnection δ) where
  pushData direction buffer self :=
    match self.pushData impl fuel direction buffer with
    | none => .error (.string "state_change does not return")
    | some (.error e) => .error e.toIo
    | some (.ok s) => .ok s
  consumeData := consumeData
  peekData := peekData
  connectionEstablished := connectionEstablished
  getUdpAssociate _ := none

/-- A request is never empty. -/
theorem tunnelRequest_ne_nil {request : List UInt8} {digestState : Option δ}
    (h : s.tunnelRequest impl = .ok (request, digestState)) : request ≠ [] := by
  unfold tunnelRequest at h
  dsimp only at h
  split at h
  · cases h
  rename_i auth digest _
  cases h
  -- The first byte is that of the method.
  intro hnil
  have hc : String.utf8EncodeChar 'C' = [] :=
    List.flatMap_eq_nil_iff.mp hnil 'C' (by simp)
  exact absurd hc (by decide)

theorem reconnect_queued {challenge : δ} (h : s.reconnect impl challenge = .ok m) :
    m.serverOutbuf ≠ [] := by
  unfold reconnect sendTunnelRequest at h
  dsimp only at h
  split at h
  · cases h
  rename_i s' hsend
  split at hsend
  · cases hsend
  rename_i request digestState hrequest
  cases hsend
  cases h
  exact tunnelRequest_ne_nil hrequest

/-- A call that leaves the handler in `Reset` has queued the request once more. -/
theorem queued_of_reset (h : s.turn impl = .ok (.done m)) (hreset : m.state = .Reset) :
    m.serverOutbuf ≠ [] := by
  cases turn_cases h with
  | reconnected _ hr => exact reconnect_queued hr
  | searched hst | unfinished hst | skipped hst | relayed hst | idle hst =>
    cases hst.symm.trans hreset

theorem stateChange_reset {fuel : Nat} (h : stateChange impl fuel s = some (.ok m))
    (hreset : m.state = .Reset) : m.serverOutbuf ≠ [] := by
  induction fuel generalizing s with
  | zero => cases h
  | succ fuel ih =>
    rw [stateChange] at h
    split at h
    · cases h
    · rename_i hturn
      cases h
      exact queued_of_reset hturn hreset
    · exact ih h

theorem push_reset {fuel : Nat} {buffer : List UInt8}
    (h : (methods impl fuel).pushData .fromServer buffer s = .ok m)
    (hreset : m.resetConnection = true) : (methods impl fuel).peekData .toServer m ≠ [] := by
  have h : (match s.pushData impl fuel .fromServer buffer with
    | none => .error (.string "state_change does not return")
    | some (.error e) => .error e.toIo
    | some (.ok s) => .ok s) = Except.ok m := h
  split at h
  · cases h
  · cases h
  · rename_i hpush
    cases h
    exact stateChange_reset hpush (eq_of_beq hreset)

/-! ## 4. Resets -/

/-- A session **honours a reset**: once a push has left the handler in `Reset`, nothing more is
    written to the connection, not even by a write that fails, and nothing more that is read from
    it is pushed. -/
def ResetHonoured (impl : HttpImpl δ) (fuel : Nat) (start : Point (HttpConnection δ)) : Prop :=
  ∀ reads x, Point.Reaches (methods impl fuel) start (.pushed reads x) →
    x.handler.resetConnection = true →
      ∀ q, Point.Reaches (methods impl fuel) (.pushed reads x) q →
        q.written (methods impl fuel) = x.server.written ∧
          (q.behindPush = true → q = .pushed reads x)

section Reset

variable {fuel : Nat} {c : HttpConnection δ} {reads reads' : List ReadResult} {server : Writer}
  {x : Exchange (HttpConnection δ)}

theorem queued_behind_push
    (hx : Point.Reaches (methods impl fuel) (.start c reads server) (.pushed reads' x))
    (hreset : x.handler.resetConnection = true) :
    (methods impl fuel).peekData .toServer x.handler ≠ [] := by
  obtain ⟨buffer, before, hpush⟩ := Point.pushed_of_reaches hx
  exact push_reset hpush hreset

/-- The write of the retried request fails, and with it the session. -/
theorem session_refused
    (hx : Point.Reaches (methods impl fuel) (.start c reads server) (.pushed reads' x))
    (hreset : x.handler.resetConnection = true) (hrefused : x.server.Refuses) :
    ∃ e, x.answer (methods impl fuel) = .error e ∧
      handleProxySession (methods impl fuel) c reads server = .error (.error e) := by
  obtain ⟨e, he⟩ := Exchange.answer_refused (queued_behind_push hx hreset) hrefused
  refine ⟨e, he, ?_⟩
  rw [handleProxySession_eq, Point.outcome_of_reaches hx, Point.outcome, he]
  rfl

/-- A connection that takes any of the write is sent the request again. -/
theorem ResetHonoured.refuses (h : ResetHonoured impl fuel (.start c reads server))
    (hx : Point.Reaches (methods impl fuel) (.start c reads server) (.pushed reads' x))
    (hreset : x.handler.resetConnection = true) : x.server.Refuses :=
  Writer.writeAll_taken (queued_behind_push hx hreset) (h reads' x hx hreset _ .refl).1

end Reset

/-- **A reset is honoured exactly where the connection refuses the retried request**, all of it,
    which ends the session. -/
theorem reset_honoured_iff_refused (impl : HttpImpl δ) (fuel : Nat) (c : HttpConnection δ)
    (reads : List ReadResult) (server : Writer) :
    (ResetHonoured impl fuel (.start c reads server) ↔
      ∀ reads' x, Point.Reaches (methods impl fuel) (.start c reads server) (.pushed reads' x) →
        x.handler.resetConnection = true → x.server.Refuses) ∧
    ∀ reads' x, Point.Reaches (methods impl fuel) (.start c reads server) (.pushed reads' x) →
      x.handler.resetConnection = true → x.server.Refuses →
        ∃ e, handleProxySession (methods impl fuel) c reads server = .error (.error e) := by
  refine ⟨⟨fun h reads' x hx hreset => h.refuses hx hreset, fun h reads' x hx hreset q hq => ?_⟩,
    fun reads' x hx hreset hrefused => ?_⟩
  · have hrefused := h reads' x hx hreset
    obtain ⟨e, he, -⟩ := session_refused hx hreset hrefused
    obtain ⟨-, -, hwritten⟩ := Writer.writeAll_refused (queued_behind_push hx hreset) hrefused
    have hstay := Point.eq_of_reaches he hq
    rw [hstay]
    exact ⟨hwritten, fun _ => rfl⟩
  · obtain ⟨e, -, hend⟩ := session_refused hx hreset hrefused
    exact ⟨e, hend⟩

/-- A 407 of HTTP/1.0, and then a 200. -/
def resetReads : List ReadResult :=
  [.ok (Str.asBytes ("HTTP/1.0 407 N\r\nProxy-Authenticate: ".toList ++
      "Digest realm=\"r\", nonce=\"n\"\r\n\r\n".toList)),
    .ok (Str.asBytes "HTTP/1.1 200 OK\r\n\r\n".toList)]

/-- The first push leaves the handler in `Reset`, on a connection that takes every write. -/
theorem resets_sample :
    ∃ reads x, Point.Reaches (methods sampleImpl 5) (.start sampleConnection resetReads {})
      (.pushed reads x) ∧ x.handler.resetConnection = true ∧ ¬ x.server.Refuses := by
  have hstep : ((Point.start sampleConnection resetReads {}).step (methods sampleImpl 5)).elim
      (fun _ => none) (fun q => some (q.behindPush, q.exchange.handler.resetConnection,
        q.exchange.server.outcomes.length)) = some (true, true, 0) := by
    decide +kernel
  cases hq : (Point.start sampleConnection resetReads {}).step (methods sampleImpl 5) with
  | inl r =>
    rw [hq] at hstep
    cases hstep
  | inr q =>
    rw [hq] at hstep
    have hq' := Option.some.inj hstep
    simp only [Prod.mk.injEq] at hq'
    obtain ⟨hpush, hreset, houtcomes⟩ := hq'
    cases q with
    | head launched reads x => cases hpush
    | pushed reads x =>
      refine ⟨reads, x, .single hq, hreset, ?_⟩
      rintro ⟨e, rest, hrefuses⟩
      have hlen : x.server.outcomes.length = 0 := houtcomes
      rw [hrefuses] at hlen
      cases hlen

/-- **The retried request goes out on the connection the 407 came in on, and the answer from there
    opens the tunnel.** -/
theorem reset_ignored :
    ¬ ResetHonoured sampleImpl 5 (.start sampleConnection resetReads {}) ∧
    (handleProxySession (methods sampleImpl 5) sampleConnection resetReads {}).map
        (fun r => (r.2.handler.state, r.2.server.written)) =
      .ok (.Established, sampleConnection.serverOutbuf ++ sampleConnection.serverOutbuf) := by
  obtain ⟨reads, x, hx, hreset, htaken⟩ := resets_sample
  exact ⟨fun h => htaken (h.refuses hx hreset), by decide +kernel⟩

end HttpConnection

end Tun2Proxy
