/-
  File:      Tun2Proxy/Http/HeaderOrder.lean
  Subject:   The order of header fields in a 407 response (src/http.rs).

  The fields of a response go into a map under their names, and the last of several fields of one
  name stays. By reordering the fields, any one of each name can be made the one that stays
  (`exists_order`), so the order decides what happens as soon as fields of one name are not all
  alike to the handler's checks. `DecidedAlike` and `OneScheme` are what the fields need to have in
  common, and they are exact (`header_order_irrelevant`). A proxy that offers Basic and Digest does
  not meet them.
-/
import Tun2Proxy.Http.Fragmentation

namespace Tun2Proxy

/-! ## 1. The map -/

def Header.isNamed (name : String) (h : Header) : Bool :=
  h.name.toAsciiLowercase == Str.toAsciiLowercase name.toList

/-- The values of the fields of a name. -/
def valuesOf (name : String) (headers : List Header) : List (List UInt8) :=
  (headers.filter (Header.isNamed name)).map Header.value

/-- A value the map may have under a name: one of the fields', or none if there is no such field. -/
def Choice (headers : List Header) (name : String) (value : Option (List UInt8)) : Prop :=
  value.elim (valuesOf name headers = []) (· ∈ valuesOf name headers)

section Map

variable {headers headers' : List Header} {name : String} {value : Option (List UInt8)}

theorem headersGet_eq_getLast? (headers : List Header) (name : String) :
    headersGet headers name = (valuesOf name headers).getLast? := by
  unfold headersGet valuesOf
  rw [List.getLast?_map, List.getLast?_eq_head?_reverse, ← List.filter_reverse,
    List.head?_filter]
  rfl

theorem choice_headersGet (headers : List Header) (name : String) :
    Choice headers name (headersGet headers name) := by
  rw [headersGet_eq_getLast?]
  cases h : (valuesOf name headers).getLast? with
  | none => exact List.getLast?_eq_none_iff.mp h
  | some value => exact List.mem_of_getLast? h

theorem valuesOf_perm (name : String) (h : headers'.Perm headers) :
    (valuesOf name headers').Perm (valuesOf name headers) :=
  (h.filter _).map _

theorem Choice.perm (h : Choice headers' name value) (hperm : headers'.Perm headers) :
    Choice headers name value := by
  have hvalues := valuesOf_perm name hperm
  cases value with
  | none => exact (hvalues.symm.trans (.of_eq h)).eq_nil
  | some value => exact hvalues.subset h

/-- **Any field can be made the last of its name**, and the fields of other names stay in order. -/
theorem Choice.exists_last (h : Choice headers name value) :
    ∃ headers', headers'.Perm headers ∧ headersGet headers' name = value ∧
      ∀ other : String, Str.toAsciiLowercase other.toList ≠ Str.toAsciiLowercase name.toList →
        headersGet headers' other = headersGet headers other := by
  cases value with
  | none =>
    refine ⟨headers, .refl headers, ?_, fun _ _ => rfl⟩
    rw [headersGet_eq_getLast?]
    exact List.getLast?_eq_none_iff.mpr h
  | some value =>
    obtain ⟨field, hfield, rfl⟩ := List.mem_map.mp h
    obtain ⟨hmem, hnamed⟩ := List.mem_filter.mp hfield
    obtain ⟨before, after, rfl⟩ := List.append_of_mem hmem
    refine ⟨before ++ after ++ [field], ?_, ?_, fun other hother => ?_⟩
    · rw [List.append_assoc]
      exact List.perm_append_comm.append_left before
    · rw [headersGet_eq_getLast?, valuesOf, List.filter_append, List.filter_cons_of_pos hnamed,
        List.map_append]
      exact List.getLast?_concat
    · have hnot : Header.isNamed other field ≠ true := by
        intro h
        exact hother ((beq_iff_eq.mp h).symm.trans (beq_iff_eq.mp hnamed))
      rw [headersGet_eq_getLast?, headersGet_eq_getLast?]
      simp only [valuesOf, List.filter_append, List.filter_cons_of_neg hnot, List.filter_nil,
        List.append_nil]

/-- The fields of three names can be chosen one by one. -/
theorem exists_order {auth conn length : Option (List UInt8)}
    (hauth : Choice headers "Proxy-Authenticate" auth) (hconn : Choice headers "Connection" conn)
    (hlength : Choice headers "Content-Length" length) :
    ∃ headers', headers'.Perm headers ∧ headersGet headers' "Proxy-Authenticate" = auth ∧
      headersGet headers' "Connection" = conn ∧ headersGet headers' "Content-Length" = length := by
  obtain ⟨first, hfirst, hgetAuth, -⟩ := hauth.exists_last
  obtain ⟨second, hsecond, hgetConn, hkeep⟩ := (hconn.perm hfirst.symm).exists_last
  obtain ⟨third, hthird, hgetLength, hkeep'⟩ :=
    (hlength.perm (hsecond.trans hfirst).symm).exists_last
  refine ⟨third, hthird.trans (hsecond.trans hfirst), ?_, ?_, hgetLength⟩
  · rw [hkeep' _ (by decide), hkeep _ (by decide), hgetAuth]
  · rw [hkeep' _ (by decide), hgetConn]

theorem forall_choice {p : Option (List UInt8) → Prop} :
    (∀ value, Choice headers name value → p value) ↔
      (valuesOf name headers = [] → p none) ∧ ∀ value ∈ valuesOf name headers, p (some value) :=
  ⟨fun h => ⟨h none, fun value => h (some value)⟩, fun h value =>
    match value with
    | none => h.1
    | some value => h.2 value⟩

/-- The empty fields behind the parsed ones have no name. -/
theorem headersGet_headerArray {head : ResponseHead}
    (hname : Header.isNamed name ⟨[], []⟩ = false) :
    headersGet (headerArray head) name = headersGet head.headers name := by
  have hblank : (List.replicate (16 - head.headers.length) (⟨[], []⟩ : Header)).filter
      (Header.isNamed name) = [] := by
    rw [List.filter_replicate, if_neg (by rw [hname]; exact Bool.false_ne_true)]
  rw [headersGet_eq_getLast?, headersGet_eq_getLast?, valuesOf, headerArray, List.filter_append,
    hblank, List.append_nil, valuesOf]

end Map

/-! ## 2. What the checks look at -/

namespace HttpConnection

variable {δ : Type} {impl : HttpImpl δ}

/-- The text of the error for a scheme that is not Digest. -/
def unsupportedMethod : HttpError :=
  .string "Proxy authentication method is not supported; only Digest is supported"

theorem contentLength_ne_unsupported (usizeValues : Nat) (value : List UInt8) :
    contentLength usizeValues value ≠ .error unsupportedMethod := by
  have hother : ∀ text, text = "Malformed response" →
      HttpError.string text ≠ unsupportedMethod := by
    rintro text rfl
    decide
  have hsame : ∀ f lengths, checkSame f lengths ≠ .error unsupportedMethod := by
    intro f lengths
    induction lengths with
    | nil => nofun
    | cons first lengths ih =>
      cases first with
      | none => nofun
      | some k =>
        rw [checkSame]
        split
        · exact fun h => hother _ rfl (Except.error.inj h)
        · exact ih
  unfold contentLength
  split
  · nofun
  · split
    · nofun
    · split
      · exact fun h => hother _ rfl (Except.error.inj h)
      · nofun
      · exact hsame _ _

/-- A Digest challenge in the map is not rejected as unsupported, whatever else is wrong. -/
theorem challengeVerdict_supported {headers : List Header} {auth : List UInt8}
    (hget : headersGet headers "Proxy-Authenticate" = some auth)
    (hdigest : isDigestScheme auth = true) (before : Bool) (version : Nat) :
    challengeVerdict impl before version headers ≠ .error unsupportedMethod := by
  have hbad : HttpError.string "Bad credentials" ≠ unsupportedMethod := by decide
  have hcoding : HttpError.string "Header Transfer-Encoding not supported" ≠ unsupportedMethod := by
    decide
  unfold challengeVerdict
  simp only [hget, hdigest, Bool.not_true, Bool.false_eq_true, if_false]
  split
  · nofun
  · split
    · nofun
    · split
      · exact fun h => hbad (Except.error.inj h)
      · split
        · nofun
        · split
          · exact fun h => hcoding (Except.error.inj h)
          · split
            · nofun
            · rename_i value _
              have hlength := contentLength_ne_unsupported impl.usizeValues value
              split
              · rename_i e hlen
                rw [hlen] at hlength
                exact fun h => hlength (congrArg Except.error (Except.error.inj h))
              · nofun

/-- The challenge a value of `Proxy-Authenticate` offers, if it is a well-formed Digest one. -/
def offered (impl : HttpImpl δ) (auth : List UInt8) : Option δ :=
  if isDigestScheme auth then
    (Str.fromUtf8 auth).bind fun data => (impl.parseChallenge data).toOption
  else none

/-- The handler can answer it: it has not yet been asked, or its answer was stale. -/
def usable (impl : HttpImpl δ) (before : Bool) (auth : List UInt8) : Bool :=
  (offered impl auth).any fun state => !before || impl.stale state

def closes (value : List UInt8) : Bool := eqIgnoreAsciiCase value (Str.asBytes "close".toList)

def readable (impl : HttpImpl δ) (value : List UInt8) : Bool :=
  (contentLength impl.usizeValues value).toOption.isSome

/-- The handler knows where the body ends. -/
def Delimited (impl : HttpImpl δ) (version : Nat) (coding : Bool)
    (conn length : Option (List UInt8)) : Prop :=
  conn.any closes = true ∨ version = 0 ∨ coding = false ∧ length.all (readable impl) = true

/-- **When a challenge is accepted.** -/
theorem challengeVerdict_isOk (before : Bool) (version : Nat) (headers : List Header) :
    (∃ v, challengeVerdict impl before version headers = .ok v) ↔
      (headersGet headers "Proxy-Authenticate").any (usable impl before) = true ∧
      Delimited impl version (headersGet headers "Transfer-Encoding").isSome
        (headersGet headers "Connection") (headersGet headers "Content-Length") := by
  unfold challengeVerdict Delimited
  cases headersGet headers "Proxy-Authenticate" with
  | none => simp
  | some auth =>
    dsimp only [Option.any_some]
    unfold usable offered
    cases isDigestScheme auth with
    | false => simp
    | true =>
      cases Str.fromUtf8 auth with
      | none => simp
      | some data =>
        cases hparse : impl.parseChallenge data with
        | error e => simp [hparse, Except.toOption]
        | ok state =>
          have husable : (!before || impl.stale state) = !(before && !impl.stale state) := by
            cases before <;> simp
          have hcloses : (fun value => eqIgnoreAsciiCase value (Str.asBytes "close".toList)) =
            closes := rfl
          simp only [Bool.not_true, Bool.false_eq_true, if_false, if_true, Option.bind_some,
            hparse, Except.toOption, Option.any_some, husable, hcloses]
          cases before && !impl.stale state with
          | true => simp
          | false =>
            cases (headersGet headers "Connection").any closes with
            | true => simp
            | false =>
              by_cases hversion : version = 0
              · simp [hversion]
              · cases headersGet headers "Transfer-Encoding" with
                | some coding => simp [hversion]
                | none =>
                  cases headersGet headers "Content-Length" with
                  | none => simp [hversion]
                  | some value =>
                    unfold readable
                    cases hlength : contentLength impl.usizeValues value <;>
                      simp [hversion, hlength, Except.toOption]

theorem verdict_challenge {head : ResponseHead} {version : Nat} (hcode : head.code = some 407)
    (hversion : head.version = some version) (before : Bool) :
    verdict impl before head = challengeVerdict impl before version (headerArray head) := by
  unfold verdict
  rw [hcode, hversion]
  rfl

/-! ## 3. Orders -/

/-- Whichever fields of the names are chosen: the challenge is usable and the end of the body is
    known, or the challenge is not usable, or the end of the body is not known. -/
def DecidedAlike (impl : HttpImpl δ) (before : Bool) (version : Nat) (headers : List Header) :
    Prop :=
  let coding := !(valuesOf "Transfer-Encoding" headers).isEmpty
  (∀ auth, Choice headers "Proxy-Authenticate" auth → auth.any (usable impl before) = true) ∧
      (∀ conn length, Choice headers "Connection" conn → Choice headers "Content-Length" length →
        Delimited impl version coding conn length) ∨
    (∀ auth, Choice headers "Proxy-Authenticate" auth → auth.any (usable impl before) = false) ∨
    ∀ conn length, Choice headers "Connection" conn → Choice headers "Content-Length" length →
      ¬ Delimited impl version coding conn length

/-- Beside a well-formed Digest challenge no other scheme is offered. -/
def OneScheme (impl : HttpImpl δ) (headers : List Header) : Prop :=
  (∃ auth ∈ valuesOf "Proxy-Authenticate" headers, (offered impl auth).isSome = true) →
    ∀ auth ∈ valuesOf "Proxy-Authenticate" headers, isDigestScheme auth = true

section Orders

variable {before : Bool} {version : Nat} {headers headers' : List Header}

/-- A challenge with these fields is accepted. -/
def Accepts (impl : HttpImpl δ) (before : Bool) (version : Nat) (headers : List Header)
    (auth conn length : Option (List UInt8)) : Prop :=
  auth.any (usable impl before) = true ∧
    Delimited impl version (!(valuesOf "Transfer-Encoding" headers).isEmpty) conn length

theorem isSome_headersGet (hperm : headers'.Perm headers) (name : String) :
    (headersGet headers' name).isSome = !(valuesOf name headers).isEmpty := by
  have hvalues := valuesOf_perm name hperm
  rw [headersGet_eq_getLast?]
  cases h : valuesOf name headers with
  | nil =>
    rw [h] at hvalues
    rw [hvalues.eq_nil]
    rfl
  | cons value values =>
    rw [h] at hvalues
    rw [List.getLast?_isSome.mpr fun hnil => ?_]
    · rfl
    · rw [hnil] at hvalues
      exact List.cons_ne_nil _ _ hvalues.symm.eq_nil

theorem accepted_iff (hperm : headers'.Perm headers) :
    (∃ v, challengeVerdict impl before version headers' = .ok v) ↔
      Accepts impl before version headers (headersGet headers' "Proxy-Authenticate")
        (headersGet headers' "Connection") (headersGet headers' "Content-Length") := by
  rw [challengeVerdict_isOk, isSome_headersGet hperm]
  rfl

/-- **All orders are accepted or all rejected** exactly if the fields are alike to the checks. -/
theorem accepted_alike_iff :
    (∀ headers', headers'.Perm headers →
      ((∃ v, challengeVerdict impl before version headers' = .ok v) ↔
        ∃ v, challengeVerdict impl before version headers = .ok v)) ↔
    DecidedAlike impl before version headers := by
  constructor
  · intro h
    -- Every choice of fields is an order, so the choices are all accepted or all rejected.
    have hchoice : ∀ auth conn length auth' conn' length',
        Choice headers "Proxy-Authenticate" auth → Choice headers "Connection" conn →
        Choice headers "Content-Length" length → Choice headers "Proxy-Authenticate" auth' →
        Choice headers "Connection" conn' → Choice headers "Content-Length" length' →
        Accepts impl before version headers auth conn length →
        Accepts impl before version headers auth' conn' length' := by
      intro auth conn length auth' conn' length' ha hc hl ha' hc' hl' haccepts
      obtain ⟨first, hfirst, rfl, rfl, rfl⟩ := exists_order ha hc hl
      obtain ⟨second, hsecond, rfl, rfl, rfl⟩ := exists_order ha' hc' hl'
      exact (accepted_iff hsecond).mp
        (((h second hsecond).trans (h first hfirst).symm).mpr ((accepted_iff hfirst).mpr haccepts))
    by_cases hnone : ∀ auth, Choice headers "Proxy-Authenticate" auth →
      auth.any (usable impl before) = false
    · exact .inr (.inl hnone)
    push Not at hnone
    obtain ⟨auth, hauth, husable⟩ := hnone
    rw [ne_eq, Bool.not_eq_false] at husable
    by_cases hdelimited : ∀ conn length, Choice headers "Connection" conn →
      Choice headers "Content-Length" length →
        ¬ Delimited impl version (!(valuesOf "Transfer-Encoding" headers).isEmpty) conn length
    · exact .inr (.inr hdelimited)
    push Not at hdelimited
    obtain ⟨conn, length, hconn, hlength, hd⟩ := hdelimited
    have hall := fun auth' conn' length' ha' hc' hl' =>
      hchoice auth conn length auth' conn' length' hauth hconn hlength ha' hc' hl' ⟨husable, hd⟩
    exact .inl ⟨fun auth' ha' => (hall auth' conn length ha' hconn hlength).1,
      fun conn' length' hc' hl' => (hall auth conn' length' hauth hc' hl').2⟩
  · intro h headers' hperm
    rw [accepted_iff hperm, accepted_iff (.refl headers)]
    have ha' := (choice_headersGet headers' "Proxy-Authenticate").perm hperm
    have hc' := (choice_headersGet headers' "Connection").perm hperm
    have hl' := (choice_headersGet headers' "Content-Length").perm hperm
    have ha := choice_headersGet headers "Proxy-Authenticate"
    have hc := choice_headersGet headers "Connection"
    have hl := choice_headersGet headers "Content-Length"
    rcases h with ⟨husable, hdelimited⟩ | hnone | hnever
    · exact iff_of_true ⟨husable _ ha', hdelimited _ _ hc' hl'⟩
        ⟨husable _ ha, hdelimited _ _ hc hl⟩
    · exact iff_of_false (fun h => absurd h.1 (by rw [hnone _ ha']; exact Bool.false_ne_true))
        fun h => absurd h.1 (by rw [hnone _ ha]; exact Bool.false_ne_true)
    · exact iff_of_false (fun h => hnever _ _ hc' hl' h.2) fun h => hnever _ _ hc hl h.2

/-- **No order is rejected as unsupported** exactly if only the Digest scheme is offered. -/
theorem supported_iff :
    (∀ headers', headers'.Perm headers →
      challengeVerdict impl before version headers' ≠ .error unsupportedMethod) ↔
    ∀ auth ∈ valuesOf "Proxy-Authenticate" headers, isDigestScheme auth = true := by
  constructor
  · intro h auth hauth
    by_contra hscheme
    rw [Bool.not_eq_true] at hscheme
    have hchoice : Choice headers "Proxy-Authenticate" (some auth) := hauth
    obtain ⟨headers', hperm, hget, -, -⟩ :=
      exists_order hchoice (choice_headersGet _ _) (choice_headersGet _ _)
    refine h headers' hperm ?_
    unfold challengeVerdict
    rw [hget]
    dsimp only
    rw [hscheme]
    rfl
  · intro h headers' hperm
    have hauth := (choice_headersGet headers' "Proxy-Authenticate").perm hperm
    cases hget : headersGet headers' "Proxy-Authenticate" with
    | none =>
      unfold challengeVerdict
      rw [hget]
      exact fun h => absurd (Except.error.inj h) (by decide)
    | some auth =>
      rw [hget] at hauth
      exact challengeVerdict_supported hget (h auth hauth) before version

end Orders

/-- The response with its fields in another order. -/
def reordered (head : ResponseHead) (headers : List Header) : ResponseHead := { head with headers }

/-- The checks see the parsed fields only. -/
theorem verdict_reordered {head : ResponseHead} {version : Nat} (hcode : head.code = some 407)
    (hversion : head.version = some version) (before : Bool) (headers : List Header) :
    verdict impl before (reordered head headers) =
      challengeVerdict impl before version headers := by
  have hget : ∀ name, Header.isNamed name ⟨[], []⟩ = false →
      headersGet (headerArray (reordered head headers)) name = headersGet headers name :=
    fun _ => headersGet_headerArray
  have hcode' : (reordered head headers).code = some 407 := hcode
  rw [verdict_challenge hcode' hversion]
  unfold challengeVerdict
  rw [hget "Proxy-Authenticate" (by decide), hget "Connection" (by decide),
    hget "Transfer-Encoding" (by decide), hget "Content-Length" (by decide)]

/-- **The order of the fields does not matter** exactly if the fields of a name are alike to the
    checks: then a 407 response is accepted in all orders or rejected in all, and one with a
    well-formed Digest challenge is rejected as unsupported in none. -/
theorem header_order_irrelevant (impl : HttpImpl δ) (before : Bool) (head : ResponseHead)
    (version : Nat) (hcode : head.code = some 407) (hversion : head.version = some version) :
    ((∀ headers, headers.Perm head.headers →
        ((∃ v, verdict impl before (reordered head headers) = .ok v) ↔
          ∃ v, verdict impl before head = .ok v)) ∧
      ((∃ field ∈ head.headers, field.isNamed "Proxy-Authenticate" = true ∧
          (offered impl field.value).isSome = true) →
        ∀ headers, headers.Perm head.headers →
          verdict impl before (reordered head headers) ≠ .error unsupportedMethod)) ↔
    DecidedAlike impl before version head.headers ∧ OneScheme impl head.headers := by
  have hverdict := fun headers =>
    @verdict_reordered _ impl _ _ hcode hversion before headers
  have hself : verdict impl before head = challengeVerdict impl before version head.headers :=
    hverdict head.headers
  simp only [hverdict, hself]
  rw [accepted_alike_iff, supported_iff, OneScheme]
  refine and_congr_right fun _ => imp_congr_left ?_
  simp only [valuesOf, List.mem_map, List.mem_filter]
  constructor
  · rintro ⟨field, hmem, hnamed, hoffered⟩
    exact ⟨_, ⟨field, ⟨hmem, hnamed⟩, rfl⟩, hoffered⟩
  · rintro ⟨_, ⟨field, ⟨hmem, hnamed⟩, rfl⟩, hoffered⟩
    exact ⟨field, hmem, hnamed, hoffered⟩

/-- A 407 response with these fields. -/
def challengeHead (headers : List Header) : ResponseHead where
  version := some 1
  code := some 407
  reason := some "No".toList
  headers

def authenticateField (value : String) : Header :=
  ⟨"Proxy-Authenticate".toList, Str.asBytes value.toList⟩

def digestField : Header := authenticateField "Digest realm=\"r\", nonce=\"n\""

def basicField : Header := authenticateField "Basic realm=\"r\""

def emptyBodyField : Header := ⟨"Content-Length".toList, Str.asBytes "0".toList⟩

/-- Two Digest challenges and two lengths. -/
def sampleFields : List Header :=
  [digestField, authenticateField "Digest nonce=\"m\", realm=\"s\"", emptyBodyField,
    ⟨"content-length".toList, Str.asBytes "00".toList⟩]

/-- The last fields are taken, and every other order is accepted too. -/
theorem sample_header_order_irrelevant :
    verdict sampleImpl false (challengeHead sampleFields) =
        .ok (.retry ⟨['s'], ['m'], false⟩ 0) ∧
      ∀ headers, headers.Perm sampleFields →
        ∃ v, verdict sampleImpl false (reordered (challengeHead sampleFields) headers) = .ok v := by
  have hverdict : verdict sampleImpl false (challengeHead sampleFields) =
      .ok (.retry ⟨['s'], ['m'], false⟩ 0) := by decide +kernel
  have hauth : ∀ auth, Choice sampleFields "Proxy-Authenticate" auth →
      auth.any (usable sampleImpl false) = true := forall_choice.mpr (by decide +kernel)
  have hlength : ∀ length, Choice sampleFields "Content-Length" length →
      length.all (readable sampleImpl) = true := forall_choice.mpr (by decide +kernel)
  have horders := ((header_order_irrelevant sampleImpl false (challengeHead sampleFields) 1 rfl
    rfl).mpr ⟨.inl ⟨hauth, fun _ length _ hl => .inr (.inr ⟨rfl, hlength length hl⟩)⟩,
      fun _ => by decide +kernel⟩).1
  exact ⟨hverdict, fun headers hperm => (horders headers hperm).mpr ⟨_, hverdict⟩⟩

/-- Basic behind Digest: the response is rejected as unsupported. Digest behind Basic: the same
    fields are taken as a Digest challenge. -/
theorem basic_hides_digest :
    (challengeHead [digestField, basicField, emptyBodyField]).headers.Perm
        (challengeHead [basicField, digestField, emptyBodyField]).headers ∧
      offered sampleImpl digestField.value = some ⟨['r'], ['n'], false⟩ ∧
      verdict sampleImpl false (challengeHead [digestField, basicField, emptyBodyField]) =
        .error unsupportedMethod ∧
      verdict sampleImpl false (challengeHead [basicField, digestField, emptyBodyField]) =
        .ok (.retry ⟨['r'], ['n'], false⟩ 0) :=
  ⟨.swap _ _ _, by decide +kernel, by decide +kernel, by decide +kernel⟩

end HttpConnection

end Tun2Proxy
