/-
  File:      Tun2Proxy/Http/Response.lean
  Subject:   The heads of HTTP responses, as httparse parses them.

  Parsing is httparse's work, so it is a parameter of the development (a function to `Parsed`), and
  what is used of it is named: more bytes do not change a finished parse (`PrefixMonotone`), and
  the bytes of a head are lines of a certain form (`ReadsHeads`). httparse skips empty lines in
  front of the status line, so these are part of a head.

  `responseHead` is the grammar of response heads as httparse accepts it, read a byte at a time.
  It has both laws, and the concrete runs of the development use it.
-/
import Tun2Proxy.Lib.Scanner
import Tun2Proxy.Net.SocketAddr

namespace Tun2Proxy

/-! ## 1. Results -/

/-- `httparse::Header`; its name is ASCII. -/
structure Header where
  name : Str
  value : List UInt8
  deriving DecidableEq, Repr

/-- The fields of `httparse::Response` after a complete parse. -/
structure ResponseHead where
  version : Option Nat
  code : Option Nat
  reason : Option Str
  headers : List Header
  deriving DecidableEq, Repr

/-- What `Response::parse` returns. -/
inductive Parsed where
  | failed (e : String)
  | unfinished
  | complete (len : Nat) (head : ResponseHead)
  deriving DecidableEq, Repr

/-- **A parse that is complete or failed is not changed by more bytes.** -/
structure PrefixMonotone (parse : List UInt8 → Parsed) : Prop where
  complete : ∀ {bytes len head}, parse bytes = .complete len head → ∀ more,
    parse (bytes ++ more) = .complete len head
  failed : ∀ {bytes e}, parse bytes = .failed e → ∀ more, parse (bytes ++ more) = .failed e

/-! ## 2. The form of a head -/

def LF : UInt8 := 10

def CR : UInt8 := 13

def IsLineEnd (bytes : List UInt8) : Prop := bytes = [LF] ∨ bytes = [CR, LF]

/-- A line that is not empty: it starts with a visible byte. -/
def IsTextLine (bytes : List UInt8) : Prop :=
  ∃ first content lineEnd, first ≠ LF ∧ first ≠ CR ∧ LF ∉ content ∧ IsLineEnd lineEnd ∧
    bytes = first :: content ++ lineEnd

/-- Empty lines, then the status line and the header lines, then the empty line that ends them. -/
def IsHead (bytes : List UInt8) : Prop :=
  ∃ (front lines : List (List UInt8)) (lineEnd : List UInt8), (∀ l ∈ front, IsLineEnd l) ∧
    lines ≠ [] ∧ (∀ l ∈ lines, IsTextLine l) ∧ IsLineEnd lineEnd ∧
    bytes = front.flatten ++ lines.flatten ++ lineEnd

/-- The number of empty lines at the front of a stream. -/
def emptyLines : List UInt8 → Nat
  | 10 :: rest => emptyLines rest + 1
  | 13 :: 10 :: rest => emptyLines rest + 1
  | _ => 0

/-- **A complete parse has read a head, and the fields of its status line are set.** -/
structure ReadsHeads (parse : List UInt8 → Parsed) : Prop where
  isHead : ∀ {bytes len head}, parse bytes = .complete len head →
    len ≤ bytes.length ∧ IsHead (bytes.take len)
  version : ∀ {bytes len head}, parse bytes = .complete len head → head.version.isSome

variable {bytes : List UInt8}

theorem ReadsHeads.len_pos {parse : List UInt8 → Parsed} (hheads : ReadsHeads parse) {len : Nat}
    {head : ResponseHead} (h : parse bytes = .complete len head) :
    0 < len ∧ len ≤ bytes.length := by
  obtain ⟨hle, front, lines, lineEnd, -, -, -, hend, heq⟩ := hheads.isHead h
  refine ⟨Nat.pos_of_ne_zero fun hzero => ?_, hle⟩
  rw [hzero, List.take_zero] at heq
  have hnil := (List.append_eq_nil_iff.mp heq.symm).2
  rcases hend with rfl | rfl <;> cases hnil

/-! ## 3. The grammar -/

/-- The lines of a head that have been read. -/
structure HeadLines where
  version : Nat
  code : Nat
  text : List UInt8
  headers : List Header := []
  deriving DecidableEq, Repr

/-- Where the reader stands in a head, and what it has read of the line it is in. -/
inductive HeadState where
  | front
  | frontCr
  /-- Inside `HTTP/1.`, of which so many bytes have been read. -/
  | protocol (seen : Nat)
  | version (version : Nat)
  | code (version digits value : Nat)
  | codeEnd (version code : Nat)
  | codeCr (version code : Nat)
  | reason (version code : Nat) (text : List UInt8)
  | reasonCr (version code : Nat) (text : List UInt8)
  | line (head : HeadLines)
  | lineCr (head : HeadLines)
  | name (head : HeadLines) (name : List UInt8)
  | space (head : HeadLines) (name : List UInt8)
  | value (head : HeadLines) (name value : List UInt8)
  | valueCr (head : HeadLines) (name value : List UInt8)
  deriving DecidableEq, Repr

/-- `HTTP/1.` -/
def protocolText : List UInt8 := [72, 84, 84, 80, 47, 49, 46]

def isDigit (b : UInt8) : Bool := 48 ≤ b && b ≤ 57

def isHeaderNameToken (b : UInt8) : Bool :=
  isDigit b || (65 ≤ b && b ≤ 90) || (97 ≤ b && b ≤ 122) ||
    [33, 35, 36, 37, 38, 39, 42, 43, 45, 46, 94, 95, 96, 124, 126].contains b

def isHeaderValueToken (b : UInt8) : Bool := b == 9 || (32 ≤ b && b ≤ 126) || 128 ≤ b

def isSpace (b : UInt8) : Bool := b == 32 || b == 9

def asciiText (bytes : List UInt8) : Str := bytes.map fun b => Char.ofNat b.toNat

/-- A reason phrase; one with bytes outside ASCII is dropped. -/
def reasonText (text : List UInt8) : Str :=
  if text.any (128 ≤ ·) then [] else asciiText text

def HeadLines.response (head : HeadLines) : ResponseHead :=
  ⟨some head.version, some head.code, some (reasonText head.text), head.headers⟩

/-- A header line is over; there is room for 16 headers. -/
def headerLine (head : HeadLines) (name value : List UInt8) :
    HeadState ⊕ Except String ResponseHead :=
  if head.headers.length = 16 then .inr (.error "TooManyHeaders")
  else
    .inl (.line { head with
      headers := head.headers ++ [⟨asciiText name, value.rdropWhile isSpace⟩] })

/-- One byte of a head. -/
def HeadState.next : HeadState → UInt8 → HeadState ⊕ Except String ResponseHead
  | .front, b =>
    if b = CR then .inl .frontCr else if b = LF then .inl .front
    else if b = 72 then .inl (.protocol 1) else .inr (.error "Version")
  | .frontCr, b => if b = LF then .inl .front else .inr (.error "NewLine")
  | .protocol seen, b =>
    if seen < protocolText.length then
      if protocolText[seen]? = some b then .inl (.protocol (seen + 1))
      else .inr (.error "Version")
    else if b = 48 then .inl (.version 0)
    else if b = 49 then .inl (.version 1)
    else .inr (.error "Version")
  | .version v, b => if b = 32 then .inl (.code v 0 0) else .inr (.error "Version")
  | .code v digits acc, b =>
    if isDigit b then
      if digits = 2 then .inl (.codeEnd v (acc * 10 + (b.toNat - 48)))
      else .inl (.code v (digits + 1) (acc * 10 + (b.toNat - 48)))
    else .inr (.error "Status")
  | .codeEnd v c, b =>
    if b = 32 then .inl (.reason v c [])
    else if b = CR then .inl (.codeCr v c)
    else if b = LF then .inl (.line ⟨v, c, [], []⟩)
    else .inr (.error "Status")
  | .codeCr v c, b => if b = LF then .inl (.line ⟨v, c, [], []⟩) else .inr (.error "Status")
  | .reason v c text, b =>
    if b = CR then .inl (.reasonCr v c text)
    else if b = LF then .inl (.line ⟨v, c, text, []⟩)
    else if isHeaderValueToken b then .inl (.reason v c (text ++ [b]))
    else .inr (.error "Status")
  | .reasonCr v c text, b =>
    if b = LF then .inl (.line ⟨v, c, text, []⟩) else .inr (.error "Status")
  | .line head, b =>
    if b = CR then .inl (.lineCr head)
    else if b = LF then .inr (.ok head.response)
    else if isHeaderNameToken b then .inl (.name head [b])
    else .inr (.error "HeaderName")
  | .lineCr head, b => if b = LF then .inr (.ok head.response) else .inr (.error "NewLine")
  | .name head n, b =>
    if b = 58 then .inl (.space head n)
    else if isHeaderNameToken b then .inl (.name head (n ++ [b]))
    else .inr (.error "HeaderName")
  | .space head n, b =>
    if isSpace b then .inl (.space head n)
    else if isHeaderValueToken b then .inl (.value head n [b])
    else if b = CR then .inl (.valueCr head n [])
    else if b = LF then headerLine head n []
    else .inr (.error "HeaderValue")
  | .value head n v, b =>
    if isHeaderValueToken b then .inl (.value head n (v ++ [b]))
    else if b = CR then .inl (.valueCr head n v)
    else if b = LF then headerLine head n v
    else .inr (.error "HeaderValue")
  | .valueCr head n v, b =>
    if b = LF then headerLine head n v else .inr (.error "HeaderValue")

def responseHead (bytes : List UInt8) : Parsed :=
  match Scanner.run HeadState.next .front bytes with
  | .inl _ => .unfinished
  | .inr (.error e, _) => .failed e
  | .inr (.ok head, len) => .complete len head

theorem responseHead_complete {len : Nat} {head : ResponseHead} :
    responseHead bytes = .complete len head ↔
      Scanner.run HeadState.next .front bytes = .inr (.ok head, len) := by
  unfold responseHead
  constructor
  · intro h
    split at h
    · cases h
    · cases h
    · rename_i hr
      cases h
      exact hr
  · intro h
    rw [h]

theorem prefixMonotone_responseHead : PrefixMonotone responseHead := by
  constructor
  · intro bytes len head h more
    exact responseHead_complete.mpr (Scanner.run_found_append (responseHead_complete.mp h) more)
  · intro bytes e h more
    unfold responseHead at h ⊢
    split at h
    · cases h
    · rename_i hr
      cases h
      rw [Scanner.run_found_append hr more]
    · cases h

/-! ## 4. What the grammar accepts has the form of a head -/

/-- The part of a head a state is in. -/
inductive Place where
  | front
  | frontCr
  | inside
  | insideCr
  | between
  | betweenCr
  deriving DecidableEq, Repr

def HeadState.place : HeadState → Place
  | .front => .front
  | .frontCr => .frontCr
  | .codeCr _ _ | .reasonCr _ _ _ | .valueCr _ _ _ => .insideCr
  | .line _ => .between
  | .lineCr _ => .betweenCr
  | _ => .inside

/-- The moves between the parts of a head. -/
inductive Place.Moves : Place → UInt8 → Place → Prop
  | empty : Moves .front LF .front
  | emptyCr : Moves .front CR .frontCr
  | emptyLf : Moves .frontCr LF .front
  | start {b : UInt8} (p : Place) (h : p = .front ∨ p = .between) (hlf : b ≠ LF) (hcr : b ≠ CR) :
      Moves p b .inside
  | stay {b : UInt8} (hlf : b ≠ LF) : Moves .inside b .inside
  | insideCr : Moves .inside CR .insideCr
  | lineEnd (p : Place) (h : p = .inside ∨ p = .insideCr) : Moves p LF .between
  | betweenCr : Moves .between CR .betweenCr

variable {b : UInt8}

/-- No class of bytes that the grammar takes inside a line has the line feed. -/
theorem ne_LF_of_class {p : UInt8 → Bool} (hlf : p LF = false) (h : p b = true) : b ≠ LF := by
  rintro rfl
  exact Bool.false_ne_true (hlf.symm.trans h)

theorem headerLine_place {head : HeadLines} {name value : List UInt8} {s' : HeadState}
    (h : headerLine head name value = .inl s') : s'.place = .between := by
  unfold headerLine at h
  split at h <;> cases h
  rfl

theorem protocolText_ne_LF {seen : Nat} (h : protocolText[seen]? = some b) : b ≠ LF := by
  rintro rfl
  have := List.mem_of_getElem? h
  revert this
  decide

/-- **Every byte moves between the parts as a head does.** -/
theorem HeadState.next_moves {s s' : HeadState} (h : s.next b = .inl s') :
    Place.Moves s.place b s'.place := by
  cases s <;> simp only [HeadState.next] at h
  case front =>
    split_ifs at h with h1 h2 h3 <;> cases h
    · exact h1 ▸ .emptyCr
    · exact h2 ▸ .empty
    · exact .start _ (.inl rfl) h2 h1
  case frontCr =>
    split_ifs at h with h1
    cases h
    exact h1 ▸ .emptyLf
  case protocol seen =>
    split_ifs at h with h1 h2 h3 h4 <;> cases h
    · exact .stay (protocolText_ne_LF h2)
    · exact .stay (h3 ▸ by decide)
    · exact .stay (h4 ▸ by decide)
  case version v =>
    split_ifs at h with h1
    cases h
    exact .stay (h1 ▸ by decide)
  case code v digits value =>
    split_ifs at h with h1 h2 <;> cases h <;> exact .stay (ne_LF_of_class rfl h1)
  case codeEnd v code =>
    split_ifs at h with h1 h2 h3 <;> cases h
    · exact .stay (h1 ▸ by decide)
    · exact h2 ▸ .insideCr
    · exact h3 ▸ .lineEnd _ (.inl rfl)
  case reason v code text =>
    split_ifs at h with h1 h2 h3 <;> cases h
    · exact h1 ▸ .insideCr
    · exact h2 ▸ .lineEnd _ (.inl rfl)
    · exact .stay (ne_LF_of_class rfl h3)
  case codeCr | reasonCr =>
    split_ifs at h with h1
    cases h
    exact h1 ▸ .lineEnd _ (.inr rfl)
  case line head =>
    split_ifs at h with h1 h2 h3 <;> cases h
    · exact h1 ▸ .betweenCr
    · exact .start _ (.inr rfl) h2 h1
  case lineCr head => split_ifs at h
  case name head name =>
    split_ifs at h with h1 h2 <;> cases h
    · exact .stay (h1 ▸ by decide)
    · exact .stay (ne_LF_of_class rfl h2)
  case space head name =>
    split_ifs at h with h1 h2 h3 h4
    · cases h; exact .stay (ne_LF_of_class rfl h1)
    · cases h; exact .stay (ne_LF_of_class rfl h2)
    · cases h; exact h3 ▸ .insideCr
    · exact headerLine_place h ▸ h4 ▸ .lineEnd _ (.inl rfl)
  case value head name value =>
    split_ifs at h with h1 h2 h3
    · cases h; exact .stay (ne_LF_of_class rfl h1)
    · cases h; exact h2 ▸ .insideCr
    · exact headerLine_place h ▸ h3 ▸ .lineEnd _ (.inl rfl)
  case valueCr head name value =>
    split_ifs at h with h1
    exact headerLine_place h ▸ h1 ▸ .lineEnd _ (.inr rfl)

/-- Only an empty line behind the other lines ends a head. -/
theorem HeadState.next_ok {s : HeadState} {r : ResponseHead} (h : s.next b = .inr (.ok r)) :
    b = LF ∧ (s.place = .between ∨ s.place = .betweenCr) ∧ r.version.isSome := by
  cases s with
  | line head =>
    simp only [HeadState.next] at h
    split_ifs at h with h1 h2 h3
    · cases h
      exact ⟨h2, .inl rfl, rfl⟩
    · cases h
  | lineCr head =>
    simp only [HeadState.next] at h
    split_ifs at h with h1
    · cases h
      exact ⟨h1, .inr rfl, rfl⟩
    · cases h
  | _ =>
    simp only [HeadState.next, headerLine] at h
    split_ifs at h <;> cases h

/-- A line that has been started. -/
def IsStarted (bytes : List UInt8) : Prop :=
  ∃ first content, first ≠ LF ∧ first ≠ CR ∧ LF ∉ content ∧ bytes = first :: content

/-- The unfinished line `tail` behind `lines`, in each part of a head. -/
def Place.Holds (lines : List (List UInt8)) (tail : List UInt8) : Place → Prop
  | .front => lines = [] ∧ tail = []
  | .frontCr => lines = [] ∧ tail = [CR]
  | .inside => IsStarted tail
  | .insideCr => ∃ started, IsStarted started ∧ tail = started ++ [CR]
  | .between => lines ≠ [] ∧ tail = []
  | .betweenCr => lines ≠ [] ∧ tail = [CR]

/-- What has been read of a head. -/
structure Partway (p : Place) (bytes : List UInt8) : Prop where
  intro ::
  parts : ∃ (front lines : List (List UInt8)) (tail : List UInt8), (∀ l ∈ front, IsLineEnd l) ∧
    (∀ l ∈ lines, IsTextLine l) ∧ p.Holds lines tail ∧
    bytes = front.flatten ++ lines.flatten ++ tail

theorem forall_mem_snoc {P : List UInt8 → Prop} {ls : List (List UInt8)} {l : List UInt8}
    (hs : ∀ l ∈ ls, P l) (h : P l) : ∀ l' ∈ ls ++ [l], P l' := by
  intro l' hl'
  exact (List.mem_append.mp hl').elim (hs l') fun hl' => List.mem_singleton.mp hl' ▸ h

theorem IsStarted.line {started lineEnd : List UInt8} (h : IsStarted started)
    (he : IsLineEnd lineEnd) : IsTextLine (started ++ lineEnd) := by
  obtain ⟨first, content, hlf, hcr, hc, rfl⟩ := h
  exact ⟨first, content, lineEnd, hlf, hcr, hc, he, rfl⟩

theorem Partway.step {p p' : Place} (h : Partway p bytes) (hm : p.Moves b p') :
    Partway p' (bytes ++ [b]) := by
  obtain ⟨front, lines, tail, hf, hl, ht, rfl⟩ := h.parts
  cases hm with
  | empty =>
    obtain ⟨rfl, rfl⟩ := ht
    refine ⟨front ++ [[LF]], [], [], forall_mem_snoc hf (.inl rfl), hl, ⟨rfl, rfl⟩, ?_⟩
    simp
  | emptyCr =>
    obtain ⟨rfl, rfl⟩ := ht
    exact ⟨front, [], [CR], hf, hl, ⟨rfl, rfl⟩, by simp⟩
  | emptyLf =>
    obtain ⟨rfl, rfl⟩ := ht
    refine ⟨front ++ [[CR, LF]], [], [], forall_mem_snoc hf (.inr rfl), hl, ⟨rfl, rfl⟩, ?_⟩
    simp
  | start _ hp hlf hcr =>
    obtain rfl : tail = [] := by rcases hp with rfl | rfl <;> exact ht.2
    exact ⟨front, lines, [b], hf, hl, ⟨b, [], hlf, hcr, List.not_mem_nil, rfl⟩, by simp⟩
  | stay hlf =>
    obtain ⟨first, content, h1, h2, h3, rfl⟩ := ht
    refine ⟨front, lines, first :: content ++ [b], hf, hl,
      ⟨first, content ++ [b], h1, h2, ?_, rfl⟩, by simp⟩
    exact fun h => (List.mem_append.mp h).elim h3 fun h => hlf (List.mem_singleton.mp h).symm
  | insideCr => exact ⟨front, lines, tail ++ [CR], hf, hl, ⟨tail, ht, rfl⟩, by simp⟩
  | lineEnd _ hp =>
    rcases hp with rfl | rfl
    · refine ⟨front, lines ++ [tail ++ [LF]], [], hf,
        forall_mem_snoc hl (IsStarted.line ht (.inl rfl)), ⟨by simp, rfl⟩, by simp⟩
    · obtain ⟨started, hs, rfl⟩ := ht
      refine ⟨front, lines ++ [started ++ [CR, LF]], [], hf,
        forall_mem_snoc hl (hs.line (.inr rfl)), ⟨by simp, rfl⟩, by simp⟩
  | betweenCr =>
    obtain ⟨hne, rfl⟩ := ht
    exact ⟨front, lines, [CR], hf, hl, ⟨hne, rfl⟩, by simp⟩

/-- The empty line completes the head. -/
theorem Partway.isHead {p : Place} (h : Partway p bytes) (hp : p = .between ∨ p = .betweenCr) :
    IsHead (bytes ++ [LF]) := by
  obtain ⟨front, lines, tail, hf, hl, ht, rfl⟩ := h.parts
  rcases hp with rfl | rfl
  · obtain ⟨hne, rfl⟩ := ht
    exact ⟨front, lines, [LF], hf, hne, hl, .inl rfl, by simp⟩
  · obtain ⟨hne, rfl⟩ := ht
    exact ⟨front, lines, [CR, LF], hf, hne, hl, .inr rfl, by simp⟩

theorem readsHeads_responseHead : ReadsHeads responseHead := by
  have key : ∀ {bytes len head}, responseHead bytes = .complete len head →
      len ≤ bytes.length ∧ IsHead (bytes.take len) ∧ head.version.isSome := by
    intro bytes len head h
    have hrun := responseHead_complete.mp h
    have h0 : Partway HeadState.front.place [] :=
      ⟨[], [], [], List.forall_mem_nil _, List.forall_mem_nil _, ⟨rfl, rfl⟩, rfl⟩
    have hstep : ∀ (u : List UInt8) (s : HeadState) (b : UInt8) (s' : HeadState),
        Partway s.place u → s.next b = .inl s' → Partway s'.place (u ++ [b]) :=
      fun _ _ _ _ hu hs => hu.step (HeadState.next_moves hs)
    obtain ⟨v, t, a, hv, ht, ha⟩ := Scanner.run_found_invariant hstep h0 hrun
    obtain ⟨rfl, hp, hversion⟩ := HeadState.next_ok ha
    rw [List.nil_append] at hv
    rw [hv]
    exact ⟨Scanner.run_found_le hrun, ht.isHead hp, hversion⟩
  exact ⟨fun h => ⟨(key h).1, (key h).2.1⟩, fun h => (key h).2.2⟩

end Tun2Proxy
