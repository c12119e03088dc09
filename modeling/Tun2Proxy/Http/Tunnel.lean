/-
  File:      Tun2Proxy/Http/Tunnel.lean
  Subject:   What the HTTP handler hands over when the proxy accepts.

  On 200 the handler drops as many bytes as its own search for two line feeds read, not as many as
  the parser consumed. On the lines of a head the two agree (`run_lines`), but the search also
  counts the empty lines in front of the status line, which httparse skips: with at most one of
  them the search ends at the end of the head, with two it ends before the status line
  (`run_head`), and the head itself is handed to the application (`head_is_forwarded`).
-/
import Tun2Proxy.Http.Fragmentation

namespace Tun2Proxy

namespace HttpConnection

open Scanner (run)

variable {δ : Type} {impl : HttpImpl δ}

/-! ## 1. The search on the lines of a head -/

theorem countLineFeeds_text {c : Nat} {b : UInt8} (hlf : b ≠ LF) (hcr : b ≠ CR) :
    countLineFeeds c b = .inl 0 := by
  unfold countLineFeeds
  rw [if_neg hlf, if_pos hcr]
  rfl

/-- Inside a line nothing is counted. -/
theorem run_content {content : List UInt8} (h : LF ∉ content) :
    run countLineFeeds 0 content = .inl 0 := by
  induction content with
  | nil => rfl
  | cons b content ih =>
    have hlf : b ≠ LF := fun e => h (by rw [e]; exact List.mem_cons_self)
    have hnext : countLineFeeds 0 b = .inl 0 := by
      by_cases hcr : b = CR
      · rw [hcr]
        rfl
      · exact countLineFeeds_text hlf hcr
    rw [Scanner.run_cons_more hnext, ih (fun hm => h (List.mem_cons_of_mem b hm))]
    rfl

theorem run_lineEnd {lineEnd : List UInt8} (h : IsLineEnd lineEnd) :
    run countLineFeeds 0 lineEnd = .inl 1 := by
  rcases h with rfl | rfl <;> rfl

theorem run_lineEnd_second {lineEnd : List UInt8} (h : IsLineEnd lineEnd) :
    run countLineFeeds 1 lineEnd = .inr ((), lineEnd.length) := by
  rcases h with rfl | rfl <;> rfl

theorem run_textLine {c : Nat} {line : List UInt8} (h : IsTextLine line) :
    run countLineFeeds c line = .inl 1 := by
  obtain ⟨first, content, lineEnd, hlf, hcr, hc, he, rfl⟩ := h
  rw [List.cons_append, Scanner.run_cons_more (countLineFeeds_text hlf hcr),
    Scanner.run_more_append (run_content hc), run_lineEnd he]
  rfl

/-- **Behind every line one line feed has been counted.** -/
theorem run_lines {c : Nat} {lines : List (List UInt8)} (hne : lines ≠ [])
    (h : ∀ l ∈ lines, IsTextLine l) : run countLineFeeds c lines.flatten = .inl 1 := by
  induction lines generalizing c with
  | nil => exact absurd rfl hne
  | cons line lines ih =>
    have hline := run_textLine (c := c) (h line List.mem_cons_self)
    rw [List.flatten_cons, Scanner.run_more_append hline]
    by_cases hl : lines = []
    · subst hl
      rfl
    · rw [ih hl fun l hm => h l (List.mem_cons_of_mem line hm)]
      rfl

/-! ## 2. Empty lines in front -/

theorem emptyLines_lineEnd {lineEnd rest : List UInt8} (h : IsLineEnd lineEnd) :
    emptyLines (lineEnd ++ rest) = emptyLines rest + 1 := by
  rcases h with rfl | rfl <;> rfl

theorem emptyLines_textLine {line rest : List UInt8} (h : IsTextLine line) :
    emptyLines (line ++ rest) = 0 := by
  obtain ⟨first, content, lineEnd, hlf, hcr, -, -, rfl⟩ := h
  rw [List.cons_append, List.cons_append]
  unfold emptyLines
  split
  · rename_i heq
    exact absurd (List.cons.inj heq).1 hlf
  · rename_i heq
    exact absurd (List.cons.inj heq).1 hcr
  · rfl

/-- The empty lines of a head are those in front of its first line. -/
theorem emptyLines_head {front lines : List (List UInt8)} (rest : List UInt8)
    (hf : ∀ l ∈ front, IsLineEnd l) (hne : lines ≠ []) (hl : ∀ l ∈ lines, IsTextLine l) :
    emptyLines (front.flatten ++ (lines.flatten ++ rest)) = front.length := by
  induction front with
  | nil =>
    cases lines with
    | nil => exact absurd rfl hne
    | cons line lines =>
      rw [List.flatten_nil, List.nil_append, List.flatten_cons, List.append_assoc]
      exact emptyLines_textLine (hl line List.mem_cons_self)
  | cons lineEnd front ih =>
    rw [List.flatten_cons, List.append_assoc, emptyLines_lineEnd (hf lineEnd List.mem_cons_self),
      ih fun l hm => hf l (List.mem_cons_of_mem lineEnd hm), List.length_cons]

theorem textLine_length_pos {line : List UInt8} (h : IsTextLine line) : 0 < line.length := by
  obtain ⟨first, content, lineEnd, -, -, -, -, rfl⟩ := h
  simp

/-- **The search ends where the head ends exactly with at most one empty line in front**, and
    before that with more. -/
theorem run_head {bytes : List UInt8} (h : IsHead bytes) (rest : List UInt8) :
    ∃ k, run countLineFeeds 0 (bytes ++ rest) = .inr ((), k) ∧ k ≤ bytes.length ∧
      (k = bytes.length ↔ emptyLines (bytes ++ rest) ≤ 1) := by
  obtain ⟨front, lines, lineEnd, hf, hne, hl, he, rfl⟩ := h
  have hempty : emptyLines (front.flatten ++ lines.flatten ++ lineEnd ++ rest) = front.length := by
    rw [List.append_assoc, List.append_assoc]
    exact emptyLines_head (lineEnd ++ rest) hf hne hl
  rw [hempty]
  -- a search that is not over in front of the status line goes on to the closing empty line
  have hwhole : ∀ c, run countLineFeeds 0 front.flatten = .inl c →
      run countLineFeeds 0 (front.flatten ++ lines.flatten ++ lineEnd ++ rest) =
        .inr ((), (front.flatten ++ lines.flatten ++ lineEnd).length) := by
    intro c hc
    refine Scanner.run_found_append ?_ rest
    rw [List.append_assoc, Scanner.run_more_append hc, Scanner.run_more_append (run_lines hne hl),
      run_lineEnd_second he, List.length_append, List.length_append]
    rfl
  cases front with
  | nil => exact ⟨_, hwhole 0 rfl, Nat.le_refl _, iff_of_true rfl (Nat.zero_le 1)⟩
  | cons first front =>
    have hfirst := run_lineEnd (hf first List.mem_cons_self)
    cases front with
    | nil =>
      rw [List.flatten_cons, List.flatten_nil, List.append_nil] at hwhole ⊢
      exact ⟨_, hwhole 1 hfirst, Nat.le_refl _, iff_of_true rfl (Nat.le_refl 1)⟩
    | cons second front =>
      have hsecond := run_lineEnd_second (hf second (by simp))
      have hrun : run countLineFeeds 0 (first ++ second) =
          .inr ((), first.length + second.length) := by
        rw [Scanner.run_more_append hfirst, hsecond]
        rfl
      have hpos : 0 < lines.flatten.length := by
        cases lines with
        | nil => exact absurd rfl hne
        | cons line lines =>
          rw [List.flatten_cons, List.length_append]
          exact Nat.add_pos_left (textLine_length_pos (hl line List.mem_cons_self)) _
      refine ⟨first.length + second.length, ?_, ?_, iff_of_false ?_ (by simp)⟩
      · simp only [List.flatten_cons, List.append_assoc]
        rw [← List.append_assoc first second]
        exact Scanner.run_found_append hrun _
      · simp only [List.flatten_cons, List.length_append]
        omega
      · simp only [List.flatten_cons, List.length_append]
        omega

/-! ## 3. The tunnel -/

theorem verdict_accepted {before : Bool} {head : ResponseHead} (hcode : head.code = some 200)
    (hversion : head.version.isSome) : verdict impl before head = .ok .tunnel := by
  obtain ⟨version, hv⟩ := Option.isSome_iff_exists.mp hversion
  unfold verdict
  rw [hcode, hv]
  rfl

/-- A call on a stream that starts with an accepted response hands over what is behind the bytes
    the search read. -/
theorem returns_accepted {s : HttpConnection δ} (hst : s.state = .ExpectResponseHeaders)
    (hcounter : s.counter = 0) (hcrlf : s.crlfState = 0) (hout : s.clientOutbuf = [])
    {len n : Nat} {head : ResponseHead} (hparse : impl.parse s.serverInbuf = .complete len head)
    (hcode : head.code = some 200) (hversion : head.version.isSome)
    (hrun : run countLineFeeds 0 s.serverInbuf = .inr ((), n)) :
    ∃ m, Returns impl s (.ok m) ∧ m.state = .Established ∧
      m.clientOutbuf = s.serverInbuf.drop n := by
  have hrun' : run countLineFeeds s.crlfState (s.serverInbuf.drop s.counter) = .inr ((), n) := by
    rw [hcrlf, hcounter, List.drop_zero]
    exact hrun
  have hparse' : impl.parse s.rescan.serverInbuf = .complete len head := hparse
  have hturn : s.turn impl = s.expectResponseHeaders impl := turn_headers hst
  rw [expectResponseHeaders_found hrun', hcounter, Nat.zero_add, onHeaders_complete hparse',
    onResponse_tunnel (verdict_accepted hcode hversion)] at hturn
  refine ⟨_, (returns_of_again hturn).mpr ((returns_of_done rfl).mpr rfl), rfl, ?_⟩
  show s.clientOutbuf ++ s.serverInbuf.drop n = _
  rw [hout, List.nil_append]

/-- **The tunnel hands over exactly the bytes behind the head** if at most one empty line is in
    front of the status line, and only then. Whatever way the stream is cut, and whatever the client
    sends in between, the handler becomes established; the bytes it queues for the client are the
    stream without the head the parser read exactly if the search ends with that head. -/
theorem tunnel_exact (hmono : PrefixMonotone impl.parse) (hheads : ReadsHeads impl.parse)
    {c : HttpConnection δ} {info : SessionInfo} {domainName : Option Str}
    {credentials : Option UserKey} {digestState : Option δ}
    (hnew : new impl info domainName credentials digestState = .ok c) {stream : List UInt8}
    {len : Nat} {head : ResponseHead} (hparse : impl.parse stream = .complete len head)
    (hcode : head.code = some 200) {events : List Event}
    (hevents : pushed .fromServer events = stream) :
    (run countLineFeeds 0 stream = .inr ((), len) ↔ emptyLines stream ≤ 1) ∧
      ∃ s t, Runs impl events c {} (.ok (s, t)) ∧ s.state = .Established ∧
        (t.toClient ++ s.clientOutbuf = stream.drop len ↔ emptyLines stream ≤ 1) := by
  have hc := fresh_new hnew
  obtain ⟨hle, hhead⟩ := hheads.isHead hparse
  obtain ⟨k, hrun, hk, hiff⟩ := run_head hhead (stream.drop len)
  rw [List.take_append_drop] at hrun hiff
  rw [List.length_take_of_le hle] at hk hiff
  rw [← hiff, hrun]
  refine ⟨by simp, ?_⟩
  -- the call on all the bytes at once
  have hbuf : (c.loaded events).serverInbuf = stream := by
    show c.serverInbuf ++ pushed .fromServer events = stream
    rw [hc.serverInbuf, hevents, List.nil_append]
  obtain ⟨m, hm, hst, hout⟩ := returns_accepted (s := c.loaded events) hc.state hc.counter
    hc.crlfState hc.clientOutbuf (hbuf ▸ hparse) hcode (hheads.version hparse) (hbuf ▸ hrun)
  have hno : NoReset impl (c.loaded events) := by
    intro m' hm' hst'
    cases hm.unique hm'
    rw [hst] at hst'
    cases hst'
  obtain ⟨r, hr⟩ := runs_of_returns hmono hc.scanned hc.returns hno hm
  have heq := (hr.returns hmono hc.scanned hc.returns hno).unique hm
  cases r with
  | error e => cases heq
  | ok p =>
    obtain ⟨s, t⟩ := p
    have heq : s.restore t = m := Except.ok.inj heq
    have hclient : t.toClient ++ s.clientOutbuf = stream.drop k := by
      show (s.restore t).clientOutbuf = _
      rw [heq, hout, hbuf]
    refine ⟨s, t, hr, ?_, ?_⟩
    · show (s.restore t).state = _
      rw [heq, hst]
    · rw [hclient]
      refine ⟨fun h => ?_, fun h => by rw [h]⟩
      have hlength := congrArg List.length h
      rw [List.length_drop, List.length_drop] at hlength
      omega

/-- One empty line in front is skipped by both. -/
def sampleAccepted : List UInt8 := Str.asBytes "\r\nHTTP/1.1 200 OK\r\nVia: p\n\r\nhi".toList

def sampleAcceptedHead : ResponseHead :=
  ⟨some 1, some 200, some "OK".toList, [⟨"Via".toList, Str.asBytes "p".toList⟩]⟩

theorem sample_tunnel_exact :
    run countLineFeeds 0 sampleAccepted = .inr ((), 28) ∧
    ∃ s t, Runs sampleImpl [.push .fromServer (sampleAccepted.take 3), .push .fromClient [1],
        .push .fromServer (sampleAccepted.drop 3)] sampleConnection {} (.ok (s, t)) ∧
      s.state = .Established ∧ t.toClient ++ s.clientOutbuf = sampleAccepted.drop 28 := by
  have hparse : sampleImpl.parse sampleAccepted = .complete 28 sampleAcceptedHead := by
    decide +kernel
  have hevents : pushed .fromServer [.push .fromServer (sampleAccepted.take 3),
      .push .fromClient [1], .push .fromServer (sampleAccepted.drop 3)] = sampleAccepted := by
    decide
  have hfront : emptyLines sampleAccepted ≤ 1 := by decide
  obtain ⟨hscan, s, t, hrun, hst, hiff⟩ := tunnel_exact prefixMonotone_responseHead
    readsHeads_responseHead new_sample hparse rfl hevents
  exact ⟨hscan.mpr hfront, s, t, hrun, hst, hiff.mpr hfront⟩

/-! ## 4. Two empty lines -/

/-- Two empty lines in front of an accepted response. -/
def twoEmptyLines : List UInt8 := Str.asBytes "\r\n\r\nHTTP/1.1 200 OK\r\n\r\nhi".toList

/-- **The head of a response can be handed to the application.** The parser reads these 23 bytes
    as the head of an accepted response; the handler drops the first 4 and forwards the rest. -/
theorem head_is_forwarded :
    responseHead twoEmptyLines = .complete 23 ⟨some 1, some 200, some "OK".toList, []⟩ ∧
      ∃ s, Runs sampleImpl [.push .fromServer twoEmptyLines] sampleConnection {} (.ok (s, {})) ∧
        s.state = .Established ∧
        s.clientOutbuf = Str.asBytes "HTTP/1.1 200 OK\r\n\r\nhi".toList ∧
        s.clientOutbuf ≠ twoEmptyLines.drop 23 := by
  have hparse : sampleImpl.parse (sampleConnection.extend .fromServer twoEmptyLines).serverInbuf =
      .complete 23 ⟨some 1, some 200, some "OK".toList, []⟩ := by
    decide +kernel
  have hrun : run countLineFeeds 0 (sampleConnection.extend .fromServer twoEmptyLines).serverInbuf =
      .inr ((), 4) := by
    decide
  obtain ⟨m, hm, hst, hout⟩ := returns_accepted rfl rfl rfl rfl hparse rfl rfl hrun
  refine ⟨hparse, m, .push hm (.stop m {}), hst, ?_, ?_⟩
  · rw [hout]
    decide
  · rw [hout]
    decide

end HttpConnection

end Tun2Proxy
