/-
  File:      Tun2Proxy/Proxy/Handler.lean
  Subject:   Proxy handlers (src/proxy_handler.rs) and the session that drives one through its
             handshake (`handle_proxy_session` of src/lib.rs).

  A handler is a byte machine without I/O: bytes from the server and from the client are pushed
  into it, and it queues bytes for both. `handleProxySession` connects it to a TCP stream.

  A stream is what its reads and writes return. A read that returns no bytes is the end of the
  stream, and reads that run out are a peer that stays silent: the call does not return
  (`Stop.blocked`). A read returns at most the size of its buffer, 4096 bytes here; nothing
  depends on the size.
-/
import Tun2Proxy.Net.SocketAddr

namespace Tun2Proxy

/-! ## 1. Handlers -/

inductive IncomingDirection where
  | fromServer
  | fromClient
  deriving DecidableEq, Repr

inductive OutgoingDirection where
  | toServer
  | toClient
  deriving DecidableEq, Repr

/-- `SessionInfo`. Its protocol and serial number are left out: they appear in the log only. -/
structure SessionInfo where
  src : SocketAddr
  dst : SocketAddr
  deriving DecidableEq, Repr

/-- The methods of `ProxyHandler` a session calls. -/
structure ProxyHandler (σ : Type) where
  pushData : IncomingDirection → List UInt8 → σ → Except Error σ
  consumeData : OutgoingDirection → Nat → σ → σ
  peekData : OutgoingDirection → σ → List UInt8
  connectionEstablished : σ → Bool
  getUdpAssociate : σ → Option SocketAddr

/-! ## 2. Streams -/

/-- What one read of a stream returns; no bytes at its end. -/
abbrev ReadResult := Except Error (List UInt8)

/-- The writing side of a stream: the outcomes of the writes to come, which succeed where none is
    given, and the bytes written so far. A failing write has written so many bytes before. -/
structure Writer where
  outcomes : List (Except (Nat × Error) Unit) := []
  written : List UInt8 := []

def Writer.writeAll (self : Writer) (data : List UInt8) : Writer × Except Error Unit :=
  if data.isEmpty then (self, .ok ())
  else
    match self.outcomes with
    | [] => ({ self with written := self.written ++ data }, .ok ())
    | .ok _ :: outcomes => (⟨outcomes, self.written ++ data⟩, .ok ())
    | .error (n, e) :: outcomes => (⟨outcomes, self.written ++ data.take n⟩, .error e)

theorem Writer.writeAll_ok (written data : List UInt8) :
    Writer.writeAll ⟨[], written⟩ data = (⟨[], written ++ data⟩, .ok ()) := by
  cases data with
  | nil => simp [writeAll]
  | cons b data => rfl

/-- Why a call has no result: it returned an error, or it still waits. -/
inductive Stop where
  | error (e : Error)
  | blocked
  deriving DecidableEq, Repr

/-! ## 3. The session -/

/-- The variables of `handle_proxy_session`, and the reads left to its caller. -/
structure Exchange (σ : Type) where
  handler : σ
  reads : List ReadResult
  server : Writer
  tx : Nat
  rx : Nat

section Session

variable {σ : Type} (methods : ProxyHandler σ)

/-- Writes what the handler has queued to the server. -/
def Exchange.flush (x : Exchange σ) : Except Error (Exchange σ) :=
  let data := methods.peekData .toServer x.handler
  match x.server.writeAll data with
  | (_, .error e) => .error e
  | (server, .ok _) =>
    .ok { x with
      server
      handler := methods.consumeData .toServer data.length x.handler
      tx := x.tx + data.length }

/-- The first write of a session. -/
def Exchange.launch (x : Exchange σ) : Except Error (Exchange σ) :=
  if (methods.peekData .toServer x.handler).length = 0 then
    .error (.string "proxy_handler launched went wrong")
  else x.flush methods

/-- The write after a push, if there is something to write. -/
def Exchange.answer (x : Exchange σ) : Except Error (Exchange σ) :=
  if 0 < (methods.peekData .toServer x.handler).length then x.flush methods else .ok x

/-- The loop of `handle_proxy_session`. -/
def proxyLoop : Bool → List ReadResult → Exchange σ → Except Stop (Exchange σ)
  | launched, reads, x =>
    if methods.connectionEstablished x.handler then .ok { x with reads }
    else
      match if launched then .ok x else x.launch methods with
      | .error e => .error (.error e)
      | .ok x =>
        match reads with
        | [] => .error .blocked
        | .error e :: _ => .error (.error e)
        | .ok buffer :: reads =>
          if buffer.length = 0 then .error (.error (.string "server closed accidentially"))
          else
            match methods.pushData .fromServer buffer x.handler with
            | .error e => .error (.error e)
            | .ok handler =>
              let x := { x with handler, rx := x.rx + buffer.length }
              match x.answer methods with
              | .error e => .error (.error e)
              | .ok x => proxyLoop true reads x
  termination_by structural _ reads => reads

/-- `handle_proxy_session`: the UDP associate address, and what the session leaves behind. -/
def handleProxySession (handler : σ) (reads : List ReadResult) (server : Writer) :
    Except Stop (Option SocketAddr × Exchange σ) :=
  match proxyLoop methods false reads ⟨handler, reads, server, 0, 0⟩ with
  | .error stop => .error stop
  | .ok x => .ok (methods.getUdpAssociate x.handler, x)

/-! ## 4. One turn of the loop -/

variable {methods} {x x' : Exchange σ} {reads : List ReadResult}

theorem proxyLoop_established (launched : Bool)
    (h : methods.connectionEstablished x.handler = true) :
    proxyLoop methods launched reads x = .ok { x with reads } := by
  unfold proxyLoop
  rw [if_pos h]

theorem proxyLoop_launch (h : methods.connectionEstablished x.handler = false)
    (hlaunch : x.launch methods = .ok x')
    (h' : methods.connectionEstablished x'.handler = false) :
    proxyLoop methods false reads x = proxyLoop methods true reads x' := by
  rw [proxyLoop, proxyLoop, h, h', if_neg Bool.false_ne_true, if_neg Bool.false_ne_true,
    if_neg Bool.false_ne_true, if_pos rfl, hlaunch]

theorem proxyLoop_push (h : methods.connectionEstablished x.handler = false)
    {buffer : List UInt8} (hne : buffer ≠ []) {handler : σ}
    (hpush : methods.pushData .fromServer buffer x.handler = .ok handler)
    (hanswer : Exchange.answer methods { x with handler, rx := x.rx + buffer.length } = .ok x') :
    proxyLoop methods true (.ok buffer :: reads) x = proxyLoop methods true reads x' := by
  have hlen : ¬ buffer.length = 0 := fun e => hne (List.eq_nil_of_length_eq_zero e)
  rw [proxyLoop, h, if_neg Bool.false_ne_true, if_pos rfl]
  simp only [if_neg hlen, hpush, hanswer]

end Session

end Tun2Proxy
