/-
  File:      Tun2Proxy/Http/Connection.lean
  Subject:   The HTTP CONNECT handler (src/http.rs).

  `turn` is one call of `state_change` up to its recursive call. The calls do not always come to
  an end: the number of bytes to skip is computed in `usize` and wraps, and a response that wraps
  it to 0 is read again and again. So `stateChange` takes the number of calls it may make, and
  `Returns` says that some number suffices.

  Parsing heads, the Digest scheme and Base64 are the work of other crates and are parameters, with
  the number of values a `usize` has (`HttpImpl`). `WwwAuthenticateHeader.parse` is how digest_auth
  reads a challenge; the concrete runs of the development use it. The digest state is shared by the
  connections of a manager; here it is a field of the one connection. An error ends a connection,
  so it carries no state.
-/
import Tun2Proxy.Http.Response
import Tun2Proxy.Proxy.Handler
import Tun2Proxy.Socks.Messages

namespace Tun2Proxy

/-! ## 1. What other crates do -/

/-- The fields of `digest_auth::AuthContext`; the method is CONNECT and there is no body. -/
structure AuthContext where
  username : Str
  password : Str
  uri : Str
  deriving DecidableEq, Repr

/-- httparse, digest_auth and base64easy, and the target. `δ` is
    `digest_auth::WwwAuthenticateHeader`. -/
structure HttpImpl (δ : Type) where
  /-- The number of values of `usize`. -/
  usizeValues : Nat
  parse : List UInt8 → Parsed
  parseChallenge : Str → Except String δ
  stale : δ → Bool
  /-- `respond` and `to_header_string`; it counts the uses of the nonce in the challenge. -/
  respond : δ → AuthContext → Except String (Str × δ)
  base64 : List UInt8 → Str

/-- The errors of the handler. Those of `from_utf8` and `parse` are kept without their details. -/
inductive HttpError where
  | httparse (e : String)
  | digestAuth (e : String)
  | utf8
  | intParse
  | string (text : String)
  deriving DecidableEq, Repr

/-! ## 2. The state -/

inductive AuthenticationScheme where
  | None
  | Basic
  | Digest
  deriving DecidableEq, Repr

inductive HttpState where
  | SendRequest
  | ExpectResponseHeaders
  | ExpectResponse
  | Reset
  | Established
  deriving DecidableEq, Repr

/-- `HttpConnection` without the address of the server, which it only hands out. -/
structure HttpConnection (δ : Type) where
  state : HttpState
  clientInbuf : List UInt8
  serverInbuf : List UInt8
  clientOutbuf : List UInt8
  serverOutbuf : List UInt8
  crlfState : Nat
  counter : Nat
  skip : Nat
  digestState : Option δ
  before : Bool
  credentials : Option UserKey
  info : SessionInfo
  domainName : Option Str
  deriving DecidableEq, Repr

/-! ## 3. Header values -/

def asciiLower (b : UInt8) : UInt8 := if 65 ≤ b && b ≤ 90 then b + 32 else b

/-- `eq_ignore_ascii_case` of byte strings. -/
def eqIgnoreAsciiCase (a b : List UInt8) : Bool := a.map asciiLower == b.map asciiLower

def isDigestScheme (authData : List UInt8) : Bool :=
  6 ≤ authData.length && eqIgnoreAsciiCase (authData.take 6) (Str.asBytes "digest".toList)

/-- The array of 16 headers, of which those behind the parsed ones are empty. -/
def headerArray (head : ResponseHead) : List Header :=
  head.headers ++ List.replicate (16 - head.headers.length) ⟨[], []⟩

/-- `headers_map.get`: names are compared without case, and the last of several headers of one
    name is in the map. -/
def headersGet (headers : List Header) (name : String) : Option (List UInt8) :=
  (headers.reverse.find? fun h =>
    h.name.toAsciiLowercase == Str.toAsciiLowercase name.toList).map (·.value)

/-- `str::parse::<usize>`: digits, after an optional plus sign. -/
def parseUsize (usizeValues : Nat) (s : Str) : Option Nat :=
  let digits := match s with
    | '+' :: rest => rest
    | _ => s
  if digits.isEmpty || !digits.all Char.isDigit then none
  else
    let n := digits.foldl (fun acc c => acc * 10 + (c.toNat - 48)) 0
    if n < usizeValues then some n else none

/-- The loop over the other members of a list of lengths. -/
def checkSame (f : Nat) : List (Option Nat) → Except HttpError Nat
  | [] => .ok f
  | none :: _ => .error .intParse
  | some k :: it => if k ≠ f then .error (.string "Malformed response") else checkSame f it

def contentLength (usizeValues : Nat) (value : List UInt8) : Except HttpError Nat :=
  match Str.fromUtf8 value with
  | none => .error .utf8
  | some value =>
    match parseUsize usizeValues value with
    | some x => .ok x
    | none =>
      match (value.splitOn ',').map (parseUsize usizeValues) with
      | [] => .error (.string "Malformed response")
      | none :: _ => .error .intParse
      | some f :: it => checkSame f it

/-! ## 4. Requests -/

namespace HttpConnection

variable {δ : Type} (impl : HttpImpl δ)

def host (self : HttpConnection δ) : Str :=
  match self.domainName with
  | some domain => domain ++ ':' :: displayDec self.info.dst.port.toNat
  | none => self.info.dst.display

def basicAuthHeaderValue (credentials : UserKey) : Str :=
  "Basic ".toList ++
    impl.base64 (Str.asBytes (credentials.username ++ ':' :: credentials.password))

/-- The header `send_auth_data` appends, and the digest state it leaves. -/
def authData (scheme : AuthenticationScheme) (self : HttpConnection δ) :
    Except HttpError (Str × Option δ) :=
  match self.credentials with
  | none => .ok ([], self.digestState)
  | some credentials =>
    match scheme with
    | .Digest =>
      match self.digestState with
      | none => .error (.string "Digest auth state is missing")
      | some state =>
        match impl.respond state ⟨credentials.username, credentials.password, self.host⟩ with
        | .error e => .error (.string ("Digest auth response failed: " ++ e))
        | .ok (response, state) =>
          .ok ("Proxy-Authorization: ".toList ++ response ++ "\r\n".toList, some state)
    | .Basic =>
      .ok ("Proxy-Authorization: ".toList ++ basicAuthHeaderValue impl credentials ++
        "\r\n".toList, self.digestState)
    | .None => .ok ([], self.digestState)

/-- The bytes `send_tunnel_request` appends, and the digest state it leaves. -/
def tunnelRequest (self : HttpConnection δ) : Except HttpError (List UInt8 × Option δ) :=
  let line := "CONNECT ".toList ++ self.host ++ " HTTP/1.1\r\nHost: ".toList ++ self.host ++
    "\r\n".toList
  let scheme : AuthenticationScheme := if self.digestState.isNone then .Basic else .Digest
  match self.authData impl scheme with
  | .error e => .error e
  | .ok (auth, digestState) => .ok (Str.asBytes (line ++ auth ++ "\r\n".toList), digestState)

def sendTunnelRequest (self : HttpConnection δ) : Except HttpError (HttpConnection δ) :=
  match self.tunnelRequest impl with
  | .error e => .error e
  | .ok (request, digestState) =>
    .ok { self with serverOutbuf := self.serverOutbuf ++ request, digestState }

def new (info : SessionInfo) (domainName : Option Str) (credentials : Option UserKey)
    (digestState : Option δ) : Except HttpError (HttpConnection δ) :=
  sendTunnelRequest impl
    { state := .ExpectResponseHeaders, clientInbuf := [], serverInbuf := [], clientOutbuf := [],
      serverOutbuf := [], crlfState := 0, counter := 0, skip := 0, digestState, before := false,
      credentials, info, domainName }

/-! ## 5. Responses -/

/-- One byte of the search for the end of the headers: two line feeds with nothing but carriage
    returns between them. -/
def countLineFeeds (crlfState : Nat) (b : UInt8) : Nat ⊕ Unit :=
  let crlfState := if b = LF then crlfState + 1 else if b ≠ CR then 0 else crlfState
  if crlfState = 2 then .inr () else .inl crlfState

/-- What a response asks for. -/
inductive Verdict (δ : Type) where
  /-- 200: the tunnel is open. -/
  | tunnel
  /-- 407 on a connection that cannot be used again. -/
  | reconnect (challenge : δ)
  /-- 407 with a body of this length. -/
  | retry (challenge : δ) (contentLength : Nat)
  deriving DecidableEq, Repr

/-- The checks of a challenge, in the order of the source. -/
def challengeVerdict (before : Bool) (version : Nat) (headers : List Header) :
    Except HttpError (Verdict δ) :=
  match headersGet headers "Proxy-Authenticate" with
  | none => .error (.string "Proxy requires auth but didn't send authentication details")
  | some auth =>
    if !isDigestScheme auth then
      .error (.string "Proxy authentication method is not supported; only Digest is supported")
    else
      match Str.fromUtf8 auth with
      | none => .error .utf8
      | some data =>
        match impl.parseChallenge data with
        | .error e => .error (.digestAuth e)
        | .ok state =>
          if before && !impl.stale state then .error (.string "Bad credentials")
          else if ((headersGet headers "Connection").any fun value =>
              eqIgnoreAsciiCase value (Str.asBytes "close".toList)) || version == 0 then
            .ok (.reconnect state)
          else if (headersGet headers "Transfer-Encoding").isSome then
            .error (.string "Header Transfer-Encoding not supported")
          else
            match headersGet headers "Content-Length" with
            | none => .ok (.reconnect state)
            | some value =>
              match contentLength impl.usizeValues value with
              | .error e => .error e
              | .ok n => .ok (.retry state n)

def verdict (before : Bool) (head : ResponseHead) : Except HttpError (Verdict δ) :=
  match head.code, head.version with
  | none, _ => .error (.string "Malformed HTTP proxy response: missing status code")
  | some _, none => .error (.string "Malformed HTTP proxy response: missing HTTP version")
  | some code, some version =>
    if code = 200 then .ok .tunnel
    else if code ≠ 407 then
      match head.reason with
      | none => .error (.string "Malformed HTTP proxy response: missing reason phrase")
      | some reason =>
        .error (.string ("Expected success status code. Server replied with " ++
          String.ofList (displayDec code) ++ " [Reason: " ++ String.ofList reason ++ "]."))
    else challengeVerdict impl before version (headerArray head)

/-- The search for the end of the headers starts over. -/
def rescan (self : HttpConnection δ) : HttpConnection δ :=
  { self with counter := 0, crlfState := 0 }

/-- How a call of `state_change` ends: it returns, or it calls itself. -/
inductive Turn (δ : Type) where
  | done (s : HttpConnection δ)
  | again (s : HttpConnection δ)
  deriving DecidableEq, Repr

/-- A new connection is needed: the buffers are dropped and the request is made again. -/
def reconnect (challenge : δ) (self : HttpConnection δ) : Except HttpError (HttpConnection δ) :=
  match sendTunnelRequest impl { self with
    digestState := some challenge
    before := true
    serverInbuf := []
    serverOutbuf := [] } with
  | .error e => .error e
  | .ok s => .ok { s with state := .Reset }

/-- The response `head` has arrived: the search found `headerSize` bytes, the parser `len`. -/
def onResponse (headerSize len : Nat) (head : ResponseHead) (self : HttpConnection δ) :
    Except HttpError (Turn δ) :=
  match verdict impl self.before head with
  | .error e => .error e
  | .ok .tunnel =>
    .ok (.again { self with
      state := .Established
      serverInbuf := self.serverInbuf.drop headerSize })
  | .ok (.reconnect challenge) => (self.reconnect impl challenge).map .done
  | .ok (.retry challenge contentLength) =>
    .ok (.again { self with
      digestState := some challenge
      before := true
      state := .ExpectResponse
      skip := (contentLength + len) % impl.usizeValues })

/-- The end of the headers has been found. -/
def onHeaders (headerSize : Nat) (self : HttpConnection δ) : Except HttpError (Turn δ) :=
  match impl.parse self.serverInbuf with
  | .failed e => .error (.httparse e)
  | .unfinished => .ok (.done self)
  | .complete len head => self.onResponse impl headerSize len head

def expectResponseHeaders (self : HttpConnection δ) : Except HttpError (Turn δ) :=
  let unread := self.serverInbuf.drop self.counter
  match Scanner.run countLineFeeds self.crlfState unread with
  | .inl crlfState =>
    .ok (.done { self with crlfState, counter := self.counter + unread.length })
  | .inr (_, n) => self.rescan.onHeaders impl (self.counter + n)

/-- Drops what has arrived of the bytes to skip. -/
def skipBody (self : HttpConnection δ) : HttpConnection δ :=
  let cnt := min self.skip self.serverInbuf.length
  { self with serverInbuf := self.serverInbuf.drop cnt, skip := self.skip - cnt }

def expectResponse (self : HttpConnection δ) : Except HttpError (Turn δ) :=
  if self.skipBody.skip = 0 then
    match self.skipBody.sendTunnelRequest impl with
    | .error e => .error e
    | .ok s => .ok (.again { s with state := .ExpectResponseHeaders })
  else .ok (.done self.skipBody)

def relay (self : HttpConnection δ) : HttpConnection δ :=
  { self with
    clientOutbuf := self.clientOutbuf ++ self.serverInbuf
    serverOutbuf := self.serverOutbuf ++ self.clientInbuf
    serverInbuf := []
    clientInbuf := [] }

def turn (self : HttpConnection δ) : Except HttpError (Turn δ) :=
  match self.state with
  | .ExpectResponseHeaders => self.expectResponseHeaders impl
  | .ExpectResponse => self.expectResponse impl
  | .Established => .ok (.done self.relay)
  | .Reset => .ok (.again { self with state := .ExpectResponseHeaders })
  | .SendRequest => .ok (.done self)

/-- `state_change`, if it returns within `fuel` calls. -/
def stateChange : Nat → HttpConnection δ → Option (Except HttpError (HttpConnection δ))
  | 0, _ => none
  | fuel + 1, self =>
    match self.turn impl with
    | .error e => some (.error e)
    | .ok (.done s) => some (.ok s)
    | .ok (.again s) => stateChange fuel s

/-! ## 6. The handler's methods -/

/-- The bytes of a push behind those that wait. -/
def extend (direction : IncomingDirection) (buffer : List UInt8) (self : HttpConnection δ) :
    HttpConnection δ :=
  match direction with
  | .fromServer => { self with serverInbuf := self.serverInbuf ++ buffer }
  | .fromClient => { self with clientInbuf := self.clientInbuf ++ buffer }

def pushData (fuel : Nat) (direction : IncomingDirection) (buffer : List UInt8)
    (self : HttpConnection δ) : Option (Except HttpError (HttpConnection δ)) :=
  stateChange impl fuel (self.extend direction buffer)

def consumeData (dir : OutgoingDirection) (size : Nat) (self : HttpConnection δ) :
    HttpConnection δ :=
  match dir with
  | .toServer => { self with serverOutbuf := self.serverOutbuf.drop size }
  | .toClient => { self with clientOutbuf := self.clientOutbuf.drop size }

def peekData (dir : OutgoingDirection) (self : HttpConnection δ) : List UInt8 :=
  match dir with
  | .toServer => self.serverOutbuf
  | .toClient => self.clientOutbuf

def connectionEstablished (self : HttpConnection δ) : Bool := self.state == .Established

def resetConnection (self : HttpConnection δ) : Bool := self.state == .Reset

/-! ## 7. Results -/

section Returns

variable {impl} {s s' : HttpConnection δ} {r r' : Except HttpError (HttpConnection δ)}

/-- `state_change` returns `r`. -/
def Returns (impl : HttpImpl δ) (s : HttpConnection δ)
    (r : Except HttpError (HttpConnection δ)) : Prop :=
  ∃ fuel, stateChange impl fuel s = some r

theorem returns_iff : Returns impl s r ↔ ∃ fuel, stateChange impl (fuel + 1) s = some r :=
  ⟨fun | ⟨fuel + 1, h⟩ => ⟨fuel, h⟩, fun ⟨fuel, h⟩ => ⟨fuel + 1, h⟩⟩

theorem returns_of_error {e : HttpError} (h : s.turn impl = .error e) :
    Returns impl s r ↔ r = .error e := by
  simp [returns_iff, stateChange, h, eq_comm]

theorem returns_of_done (h : s.turn impl = .ok (.done s')) :
    Returns impl s r ↔ r = .ok s' := by
  simp [returns_iff, stateChange, h, eq_comm]

theorem returns_of_again (h : s.turn impl = .ok (.again s')) :
    Returns impl s r ↔ Returns impl s' r := by
  rw [returns_iff]
  simp only [stateChange, h, Returns]

theorem returns_congr (h : s.turn impl = s'.turn impl) : Returns impl s r ↔ Returns impl s' r := by
  cases ht : s'.turn impl with
  | error e => rw [returns_of_error (h.trans ht), returns_of_error ht]
  | ok t =>
    cases t with
    | done m => rw [returns_of_done (h.trans ht), returns_of_done ht]
    | again m => rw [returns_of_again (h.trans ht), returns_of_again ht]

/-- **There is at most one result.** -/
theorem Returns.unique (h : Returns impl s r) (h' : Returns impl s r') : r = r' := by
  obtain ⟨fuel, hf⟩ := h
  induction fuel generalizing s with
  | zero => cases hf
  | succ fuel ih =>
    cases ht : s.turn impl with
    | error e => rw [(returns_of_error ht).mp ⟨_, hf⟩, (returns_of_error ht).mp h']
    | ok t =>
      cases t with
      | done m => rw [(returns_of_done ht).mp ⟨_, hf⟩, (returns_of_done ht).mp h']
      | again m =>
        rw [stateChange, ht] at hf
        exact ih ((returns_of_again ht).mp h') hf

end Returns

end HttpConnection

/-! ## 8. The challenges of digest_auth -/

/-- Where `parse_header_map` stands, with the name and the value it has read of a parameter. -/
inductive MapState where
  | white
  | name (token : Str)
  | valueBegin (token : Str)
  | valueQuoted (token value : Str)
  | nextLiteral (token value : Str)
  | valuePlain (token value : Str)
  deriving DecidableEq, Repr

/-- One character of `parse_header_map`; the parameters found come last one first. -/
def MapState.next : MapState → List (Str × Str) → Char → MapState × List (Str × Str)
  | .white, parsed, c => (if c.isAlpha then .name [c] else .white, parsed)
  | .name token, parsed, c => (if c = '=' then .valueBegin token else .name (token ++ [c]), parsed)
  | .valueBegin token, parsed, c =>
    (if c = '"' then .valueQuoted token [] else .valuePlain token [c], parsed)
  | .valueQuoted token value, parsed, c =>
    if c = '"' then (.white, (token, value) :: parsed)
    else if c = '\\' then (.nextLiteral token value, parsed)
    else (.valueQuoted token (value ++ [c]), parsed)
  | .nextLiteral token value, parsed, c => (.valueQuoted token (value ++ [c]), parsed)
  | .valuePlain token value, parsed, c =>
    if c = ',' ∨ c.isWhitespace then (.white, (token, value) :: parsed)
    else (.valuePlain token (value ++ [c]), parsed)

def parseHeaderMap (input : Str) : Except String (List (Str × Str)) :=
  match input.foldl (fun s c => s.1.next s.2 c) (MapState.white, []) with
  | (.white, parsed) => .ok parsed
  | (.valuePlain token value, parsed) => .ok ((token, value) :: parsed)
  | _ => .error "invalid header syntax"

/-- The fields of a challenge that the handler needs to be there, and the one it reads. The other
    parameters are optional and left out. -/
structure WwwAuthenticateHeader where
  realm : Str
  nonce : Str
  stale : Bool
  deriving DecidableEq, Repr

/-- `WwwAuthenticateHeader::parse`: a realm and a nonce are required. -/
def WwwAuthenticateHeader.parse (input : Str) : Except String WwwAuthenticateHeader := do
  let input := ((input.dropWhile Char.isWhitespace).rdropWhile Char.isWhitespace)
  let input := if "Digest".toList.isPrefixOf input then input.drop 6 else input
  let kv ← parseHeaderMap input
  match kv.lookup "realm".toList, kv.lookup "nonce".toList with
  | none, _ => .error "missing realm"
  | some _, none => .error "missing nonce"
  | some realm, some nonce =>
    .ok ⟨realm, nonce, (kv.lookup "stale".toList).any (·.toAsciiLowercase == "true".toList)⟩

end Tun2Proxy
