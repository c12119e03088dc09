/-
  File:      Tun2Proxy/Http/ContentLength.lean
  Subject:   Which lengths of a challenge's body the HTTP handler accepts.

  A challenge on a connection that is kept alive has a body, and its length is a number or a list
  of equal numbers. `LengthList` is the grammar of such lists: digit strings with commas between
  them, and spaces or tabs around the commas. The handler cuts the value at the commas and hands
  each piece to `parse::<usize>` as it is, so it takes the lists of `SignedList`
  (`contentLength_eq_ok`): no spaces, but plus signs.

  The two are the same for a value exactly if it is neither a list of the grammar with a space or
  a tab in it, nor a list of the handler with a plus sign (`content_length_grammar`).
-/
import Tun2Proxy.Http.Fragmentation

namespace Tun2Proxy

/-! ## 1. The grammar and what the handler takes -/

/-- A digit string, and the number it denotes. -/
structure Denotes (n : Nat) (digits : Str) : Prop where
  ne_nil : digits ≠ []
  isDigit : ∀ c ∈ digits, c.isDigit = true
  value : digits.foldl (fun acc c => acc * 10 + (c.toNat - 48)) 0 = n

/-- Optional spaces and tabs. -/
def IsOws (s : Str) : Prop := ∀ c ∈ s, c = ' ' ∨ c = '\t'

/-- Digit strings that denote `n`, with commas between them. -/
inductive LengthList (n : Nat) : Str → Prop
  | one {digits : Str} (h : Denotes n digits) : LengthList n digits
  | more {digits before after rest : Str} (h : Denotes n digits) (hbefore : IsOws before)
      (hafter : IsOws after) (hrest : LengthList n rest) :
      LengthList n (digits ++ before ++ ',' :: (after ++ rest))

/-- A header value that is such a list, of a number `usize` has. -/
def IsLength (usizeValues n : Nat) (value : List UInt8) : Prop :=
  ∃ text, Str.asBytes text = value ∧ LengthList n text ∧ n < usizeValues

/-- A digit string, with or without a plus sign. -/
def Signed (n : Nat) (part : Str) : Prop :=
  ∃ digits, (part = digits ∨ part = '+' :: digits) ∧ Denotes n digits

/-- Such strings with commas between them, and nothing else. -/
inductive SignedList (n : Nat) : Str → Prop
  | one {part : Str} (h : Signed n part) : SignedList n part
  | more {part rest : Str} (h : Signed n part) (hrest : SignedList n rest) :
      SignedList n (part ++ ',' :: rest)

section Lists

variable {n : Nat} {text part : Str}

theorem Denotes.not_mem (h : Denotes n text) {c : Char} (hc : c.isDigit = false) : c ∉ text := by
  intro hm
  rw [h.isDigit c hm] at hc
  cases hc

theorem Signed.not_mem (h : Signed n part) {c : Char} (hc : c.isDigit = false) (hplus : c ≠ '+') :
    c ∉ part := by
  obtain ⟨digits, rfl | rfl, hd⟩ := h
  · exact hd.not_mem hc
  · rw [List.mem_cons, not_or]
    exact ⟨hplus, hd.not_mem hc⟩

theorem LengthList.plus_not_mem (h : LengthList n text) : '+' ∉ text := by
  have hows : ∀ {s : Str}, IsOws s → '+' ∉ s := by
    intro s hs hm
    exact (hs _ hm).elim (by decide) (by decide)
  induction h with
  | one h => exact h.not_mem rfl
  | more h hbefore hafter _ ih => simp [h.not_mem (c := '+') rfl, hows hbefore, hows hafter, ih]

theorem SignedList.space_not_mem (h : SignedList n text) : ' ' ∉ text ∧ '\t' ∉ text := by
  induction h with
  | one h => exact ⟨h.not_mem rfl (by decide), h.not_mem rfl (by decide)⟩
  | more h _ ih =>
    simp [h.not_mem (c := ' ') rfl (by decide), h.not_mem (c := '\t') rfl (by decide), ih]

/-- Without spaces a list of the grammar is one of the handler. -/
theorem LengthList.signed (h : LengthList n text) (hspace : ' ' ∉ text) (htab : '\t' ∉ text) :
    SignedList n text := by
  induction h with
  | one h => exact .one ⟨_, .inl rfl, h⟩
  | @more digits before after rest h hbefore hafter hrest ih =>
    have hnil : ∀ ows : Str, IsOws ows →
        (∀ c ∈ ows, c ∈ digits ++ before ++ ',' :: (after ++ rest)) → ows = [] := by
      intro ows hows hsub
      refine List.eq_nil_iff_forall_not_mem.mpr fun c hc => ?_
      rcases hows c hc with rfl | rfl
      · exact hspace (hsub _ hc)
      · exact htab (hsub _ hc)
    obtain rfl := hnil before hbefore fun c hc => by simp [hc]
    obtain rfl := hnil after hafter fun c hc => by simp [hc]
    rw [List.append_nil, List.nil_append]
    exact .more ⟨_, .inl rfl, h⟩
      (ih (fun hm => hspace (by simp [hm])) (fun hm => htab (by simp [hm])))

/-- Without plus signs a list of the handler is one of the grammar. -/
theorem SignedList.grammar (h : SignedList n text) (hplus : '+' ∉ text) : LengthList n text := by
  have hdigits : ∀ {part : Str}, Signed n part → '+' ∉ part → Denotes n part := by
    rintro part ⟨digits, rfl | rfl, hd⟩ hnot
    · exact hd
    · exact absurd List.mem_cons_self hnot
  induction h with
  | one h => exact .one (hdigits h hplus)
  | @more part rest h _ ih =>
    have hnot := fun hm => hplus (List.mem_append_left _ hm)
    have hlist := @LengthList.more n part [] [] rest (hdigits h hnot) nofun nofun
      (ih fun hm => hplus (by simp [hm]))
    rwa [List.append_nil, List.nil_append] at hlist

/-- The parts of a list of the handler are what its commas cut it into. -/
theorem signedList_iff : SignedList n text ↔ ∀ part ∈ text.splitOn ',', Signed n part := by
  have hcomma : ∀ {part : Str}, Signed n part → ∀ c ∈ part, (c == ',') = false := by
    intro part h c hc
    exact beq_eq_false_iff_ne.mpr fun e => h.not_mem (c := ',') rfl (by decide) (e ▸ hc)
  constructor
  · intro h
    induction h with
    | one h =>
      rw [List.splitOn, List.splitOnP_eq_singleton (hcomma h)]
      exact List.forall_mem_singleton.mpr h
    | more h _ ih =>
      rw [List.splitOn, List.splitOnP_append_cons_of_forall_mem (hcomma h) _ (by decide)]
      exact List.forall_mem_cons.mpr ⟨h, ih⟩
  · intro h
    have hlist : ∀ parts : List Str, parts ≠ [] → (∀ part ∈ parts, Signed n part) →
        SignedList n ([','].intercalate parts) := by
      intro parts hne hparts
      induction parts with
      | nil => exact absurd rfl hne
      | cons part parts ih =>
        obtain ⟨hpart, hparts⟩ := List.forall_mem_cons.mp hparts
        cases parts with
        | nil => simpa [List.intercalate] using .one hpart
        | cons next parts =>
          rw [List.intercalate_cons_cons, List.append_assoc]
          exact .more hpart (ih (List.cons_ne_nil _ _) hparts)
    have hall := hlist _ (List.splitOn_ne_nil ',' text) h
    rwa [List.intercalate_splitOn] at hall

end Lists

/-! ## 2. The two compared -/

section Compared

variable {usizeValues n : Nat} {value : List UInt8}

/-- `parse::<usize>` takes digit strings, with or without a plus sign. -/
theorem parseUsize_eq_some {s : Str} :
    parseUsize usizeValues s = some n ↔ Signed n s ∧ n < usizeValues := by
  have key : ∀ digits : Str,
      (if digits.isEmpty || !digits.all Char.isDigit then none
        else if digits.foldl (fun acc c => acc * 10 + (c.toNat - 48)) 0 < usizeValues then
          some (digits.foldl (fun acc c => acc * 10 + (c.toNat - 48)) 0)
        else none) = some n ↔ Denotes n digits ∧ n < usizeValues := by
    intro digits
    constructor
    · intro h
      split_ifs at h with hbad hlt
      cases h
      simp only [Bool.or_eq_true, Bool.not_eq_true', not_or, Bool.not_eq_false,
        List.isEmpty_iff, List.all_eq_true] at hbad
      exact ⟨⟨hbad.1, hbad.2, rfl⟩, hlt⟩
    · rintro ⟨⟨hne, hdigit, rfl⟩, hlt⟩
      have hgood : (digits.isEmpty || !digits.all Char.isDigit) = false := by
        rw [Bool.or_eq_false_iff, Bool.not_eq_false', List.all_eq_true]
        exact ⟨by simpa using hne, hdigit⟩
      rw [hgood, if_neg Bool.false_ne_true, if_pos hlt]
  unfold parseUsize
  constructor
  · intro h
    split at h
    · obtain ⟨hd, hlt⟩ := (key _).mp h
      exact ⟨⟨_, .inr rfl, hd⟩, hlt⟩
    · obtain ⟨hd, hlt⟩ := (key _).mp h
      exact ⟨⟨_, .inl rfl, hd⟩, hlt⟩
  · rintro ⟨⟨digits, rfl | rfl, hd⟩, hlt⟩
    · split
      · exact absurd List.mem_cons_self (hd.not_mem (c := '+') rfl)
      · exact (key _).mpr ⟨hd, hlt⟩
    · exact (key _).mpr ⟨hd, hlt⟩

theorem checkSame_eq_ok {f : Nat} {it : List (Option Nat)} :
    checkSame f it = .ok n ↔ f = n ∧ ∀ k ∈ it, k = some f := by
  induction it with
  | nil => exact ⟨fun h => ⟨Except.ok.inj h, List.forall_mem_nil _⟩, fun h => congrArg _ h.1⟩
  | cons k it ih =>
    cases k with
    | none => exact ⟨nofun, fun h => nomatch h.2 _ List.mem_cons_self⟩
    | some k =>
      unfold checkSame
      split_ifs with hk
      · exact ⟨nofun, fun h => absurd (Option.some.inj (h.2 _ List.mem_cons_self)) hk⟩
      · rw [ih, List.forall_mem_cons, not_ne_iff.mp hk]
        exact ⟨fun h => ⟨h.1, rfl, h.2⟩, fun h => ⟨h.1, h.2.2⟩⟩

/-- A number has no commas, so the value that is one is the only piece. -/
theorem splitOn_of_parseUsize {s : Str} (h : parseUsize usizeValues s = some n) :
    s.splitOn ',' = [s] := by
  obtain ⟨hs, -⟩ := parseUsize_eq_some.mp h
  refine List.splitOnP_eq_singleton fun c hc => ?_
  exact beq_eq_false_iff_ne.mpr fun e => hs.not_mem (c := ',') rfl (by decide) (e ▸ hc)

theorem contentLength_asBytes {text : Str} :
    contentLength usizeValues (Str.asBytes text) = .ok n ↔
      ∀ part ∈ text.splitOn ',', parseUsize usizeValues part = some n := by
  unfold contentLength
  rw [Str.fromUtf8_asBytes]
  dsimp only
  cases hwhole : parseUsize usizeValues text with
  | some x =>
    rw [splitOn_of_parseUsize hwhole, List.forall_mem_singleton, hwhole]
    exact ⟨fun h => congrArg _ (Except.ok.inj h), fun h => congrArg _ (Option.some.inj h)⟩
  | none =>
    cases hparts : text.splitOn ',' with
    | nil => exact absurd hparts (List.splitOn_ne_nil _ _)
    | cons part parts =>
      rw [List.map_cons, List.forall_mem_cons]
      cases hpart : parseUsize usizeValues part with
      | none => exact ⟨nofun, fun h => nomatch h.1⟩
      | some f =>
        dsimp only
        rw [checkSame_eq_ok, List.forall_mem_map]
        constructor
        · rintro ⟨rfl, h⟩
          exact ⟨rfl, h⟩
        · rintro ⟨hf, h⟩
          cases hf
          exact ⟨rfl, h⟩

/-- **The handler cuts the value at its commas, and every piece has to be the number.** -/
theorem contentLength_eq_ok :
    contentLength usizeValues value = .ok n ↔
      ∃ text, Str.asBytes text = value ∧ SignedList n text ∧ n < usizeValues := by
  constructor
  · intro h
    cases htext : Str.fromUtf8 value with
    | none =>
      unfold contentLength at h
      rw [htext] at h
      cases h
    | some text =>
      obtain rfl := Str.asBytes_of_fromUtf8 htext
      have hparts := fun part hm => parseUsize_eq_some.mp (contentLength_asBytes.mp h part hm)
      obtain ⟨part, parts, hcons⟩ := List.exists_cons_of_ne_nil (List.splitOn_ne_nil ',' text)
      exact ⟨text, rfl, signedList_iff.mpr fun part hm => (hparts part hm).1,
        (hparts part (by rw [hcons]; exact List.mem_cons_self)).2⟩
  · rintro ⟨text, rfl, hlist, hlt⟩
    exact contentLength_asBytes.mpr fun part hm =>
      parseUsize_eq_some.mpr ⟨signedList_iff.mp hlist part hm, hlt⟩

/-- The value is no list of the grammar with a space or a tab in it, and no list of the handler
    with a plus sign. -/
def PlainLength (usizeValues : Nat) (value : List UInt8) : Prop :=
  ∀ text n, Str.asBytes text = value → n < usizeValues →
    (LengthList n text → ' ' ∉ text ∧ '\t' ∉ text) ∧ (SignedList n text → '+' ∉ text)

/-- **The handler decides as the grammar exactly on the plain values.** -/
theorem contentLength_iff_grammar :
    (∀ n, contentLength usizeValues value = .ok n ↔ IsLength usizeValues n value) ↔
      PlainLength usizeValues value := by
  have hsame : ∀ {a b : Str}, Str.asBytes a = Str.asBytes b → a = b := by
    intro a b hab
    have h := congrArg Str.fromUtf8 hab
    rwa [Str.fromUtf8_asBytes, Str.fromUtf8_asBytes, Option.some.injEq] at h
  constructor
  · rintro h text n rfl hlt
    refine ⟨fun hlist => ?_, fun hlist => ?_⟩
    · obtain ⟨text', htext, hsigned, -⟩ :=
        contentLength_eq_ok.mp ((h n).mpr ⟨text, rfl, hlist, hlt⟩)
      rw [hsame htext] at hsigned
      exact hsigned.space_not_mem
    · obtain ⟨text', htext, hlength, -⟩ :=
        (h n).mp (contentLength_eq_ok.mpr ⟨text, rfl, hlist, hlt⟩)
      rw [hsame htext] at hlength
      exact hlength.plus_not_mem
  · intro h n
    rw [contentLength_eq_ok]
    refine exists_congr fun text => and_congr_right fun htext => and_congr_left fun hlt => ?_
    obtain ⟨hspaces, hplus⟩ := h text n htext hlt
    exact ⟨fun hlist => hlist.grammar (hplus hlist),
      fun hlist => hlist.signed (hspaces hlist).1 (hspaces hlist).2⟩

end Compared

/-! ## 3. Challenges on a connection that is kept alive -/

namespace HttpConnection

variable {δ : Type} {impl : HttpImpl δ} {before : Bool} {head : ResponseHead} {challenge : δ}
  {value : List UInt8}

/-- A 407 with a Digest challenge the handler answers on the same connection, if it can make out
    the length of the body from `value`. -/
structure KeepAlive (impl : HttpImpl δ) (before : Bool) (head : ResponseHead) (challenge : δ)
    (value : List UInt8) : Prop where
  code : head.code = some 407
  version : ∃ version, head.version = some version ∧ version ≠ 0
  authenticate : ∃ auth data, headersGet (headerArray head) "Proxy-Authenticate" = some auth ∧
    isDigestScheme auth = true ∧ Str.fromUtf8 auth = some data ∧
    impl.parseChallenge data = .ok challenge
  fresh : before = true → impl.stale challenge = true
  connection : ∀ v, headersGet (headerArray head) "Connection" = some v →
    eqIgnoreAsciiCase v (Str.asBytes "close".toList) = false
  transferEncoding : headersGet (headerArray head) "Transfer-Encoding" = none
  contentLength : headersGet (headerArray head) "Content-Length" = some value

/-- **Only the length is left to decide.** -/
theorem KeepAlive.verdict_eq (h : KeepAlive impl before head challenge value) :
    verdict impl before head =
      (Tun2Proxy.contentLength impl.usizeValues value).map (.retry challenge) := by
  obtain ⟨version, hversion, hne⟩ := h.version
  obtain ⟨auth, data, hauth, hdigest, hdata, hparse⟩ := h.authenticate
  have hclose : ((headersGet (headerArray head) "Connection").any fun v =>
      eqIgnoreAsciiCase v (Str.asBytes "close".toList)) = false := by
    cases hc : headersGet (headerArray head) "Connection" with
    | none => rfl
    | some v => exact h.connection v hc
  have hbad : (before && !impl.stale challenge) = false := by
    cases hb : before with
    | false => rfl
    | true =>
      rw [h.fresh hb]
      rfl
  unfold verdict challengeVerdict
  simp only [h.code, hversion, hauth, hdigest, hdata, hparse, hclose, hbad, h.transferEncoding,
    h.contentLength]
  simp only [beq_eq_false_iff_ne.mpr hne, Bool.or_self, Bool.false_eq_true, if_false,
    Option.isSome_none, Bool.not_true, Nat.reduceEqDiff, ne_eq, not_true_eq_false]
  cases Tun2Proxy.contentLength impl.usizeValues value <;> rfl

/-- **The lengths the handler accepts are those of the grammar**, with the number the list denotes,
    and it rejects all other values, exactly if the value is a plain one. -/
theorem content_length_grammar (h : KeepAlive impl before head challenge value) :
    ((∀ n, verdict impl before head = .ok (.retry challenge n) ↔
        IsLength impl.usizeValues n value) ∧
      ((∃ e, verdict impl before head = .error e) ↔ ¬ ∃ n, IsLength impl.usizeValues n value)) ↔
    PlainLength impl.usizeValues value := by
  have hok : ∀ n, verdict impl before head = .ok (.retry challenge n) ↔
      Tun2Proxy.contentLength impl.usizeValues value = .ok n := by
    intro n
    rw [h.verdict_eq]
    cases Tun2Proxy.contentLength impl.usizeValues value with
    | error e => exact ⟨nofun, nofun⟩
    | ok m => exact ⟨fun h => by cases h; rfl, fun h => by cases h; rfl⟩
  have herror : (∃ e, verdict impl before head = .error e) ↔
      ¬ ∃ n, verdict impl before head = .ok (.retry challenge n) := by
    rw [h.verdict_eq]
    cases Tun2Proxy.contentLength impl.usizeValues value with
    | error e => exact ⟨fun _ => nofun, fun _ => ⟨e, rfl⟩⟩
    | ok m => exact ⟨nofun, fun hno => absurd ⟨m, rfl⟩ hno⟩
  rw [← contentLength_iff_grammar]
  constructor
  · exact fun h n => (hok n).symm.trans (h.1 n)
  · intro hiff
    have haccepts := fun n => (hok n).trans (hiff n)
    exact ⟨haccepts, herror.trans (not_congr (exists_congr haccepts))⟩

section Sample

def sampleChallenge : WwwAuthenticateHeader := ⟨['r'], ['n'], false⟩

/-- A challenge with this length. -/
def lengthHead (value : String) : ResponseHead where
  version := some 1
  code := some 407
  reason := some "No".toList
  headers := [⟨"Proxy-Authenticate".toList,
      Str.asBytes "Digest realm=\"r\", nonce=\"n\"".toList⟩,
    ⟨"Content-Length".toList, Str.asBytes value.toList⟩]

theorem keepAlive_lengthHead (value : String) :
    KeepAlive sampleImpl false (lengthHead value) sampleChallenge
      (Str.asBytes value.toList) where
  code := rfl
  version := ⟨1, rfl, by decide⟩
  authenticate := ⟨_, "Digest realm=\"r\", nonce=\"n\"".toList, rfl, by decide,
    Str.fromUtf8_asBytes _, by decide +kernel⟩
  fresh := nofun
  connection := nofun
  transferEncoding := rfl
  contentLength := rfl

theorem plainLength_of_not_mem {usizeValues : Nat} {text : Str} (hspace : ' ' ∉ text)
    (htab : '\t' ∉ text) (hplus : '+' ∉ text) : PlainLength usizeValues (Str.asBytes text) := by
  intro text' n htext _
  have h := congrArg Str.fromUtf8 htext
  rw [Str.fromUtf8_asBytes, Str.fromUtf8_asBytes, Option.some.injEq] at h
  rw [h]
  exact ⟨fun _ => ⟨hspace, htab⟩, fun _ => hplus⟩

/-- Two spellings of one number. -/
theorem sample_content_length_grammar :
    (∀ n, verdict sampleImpl false (lengthHead "7,007") = .ok (.retry sampleChallenge n) ↔
      IsLength (2 ^ 64) n (Str.asBytes "7,007".toList)) ∧
    ((∃ e, verdict sampleImpl false (lengthHead "7,007") = .error e) ↔
      ¬ ∃ n, IsLength (2 ^ 64) n (Str.asBytes "7,007".toList)) :=
  (content_length_grammar (keepAlive_lengthHead "7,007")).mpr
    (plainLength_of_not_mem (by decide) (by decide) (by decide))

/-- **The handler differs from the grammar.** It rejects a list with a space behind the comma, and
    accepts a plus sign. -/
theorem content_length_differs :
    (KeepAlive sampleImpl false (lengthHead "5, 5") sampleChallenge
        (Str.asBytes "5, 5".toList) ∧
      IsLength (2 ^ 64) 5 (Str.asBytes "5, 5".toList) ∧
      verdict sampleImpl false (lengthHead "5, 5") = .error .intParse) ∧
    (KeepAlive sampleImpl false (lengthHead "+5") sampleChallenge (Str.asBytes "+5".toList) ∧
      (∀ n, ¬ IsLength (2 ^ 64) n (Str.asBytes "+5".toList)) ∧
      verdict sampleImpl false (lengthHead "+5") = .ok (.retry sampleChallenge 5)) := by
  have hdigit : ∀ c ∈ "5".toList, c.isDigit = true := by
    intro c hc
    obtain rfl := List.mem_singleton.mp hc
    rfl
  have hfive : Denotes 5 "5".toList := ⟨nofun, hdigit, rfl⟩
  have hspace : IsOws " ".toList := by
    intro c hc
    exact .inl (List.mem_singleton.mp hc)
  refine ⟨⟨keepAlive_lengthHead _, ⟨_, rfl, ?_, by norm_num⟩, by decide +kernel⟩,
    ⟨keepAlive_lengthHead _, ?_, by decide +kernel⟩⟩
  · have hlist : LengthList 5 ("5".toList ++ [] ++ ',' :: (" ".toList ++ "5".toList)) :=
      .more hfive nofun hspace (.one hfive)
    exact hlist
  · rintro n ⟨text, heq, hlist, -⟩
    have htext := congrArg Str.fromUtf8 heq
    rw [Str.fromUtf8_asBytes, Str.fromUtf8_asBytes, Option.some.injEq] at htext
    rw [htext] at hlist
    exact hlist.plus_not_mem (by decide)

end Sample

end HttpConnection

end Tun2Proxy
