/-
  File:      Tun2Proxy/VirtualDns/JsonRecords.lean
  Subject:   A codec of journal records that obeys the laws the journal relies on.

  The results about the journal hold for every codec with the laws of `RecordCodec.Lawful`. This
  one writes the text that `serde_json` writes for the two record types: the tag first, then the
  fields in order, strings escaped as JSON strings. Only an IPv6 address differs, which is
  written in full and not in its shortest form. It reads exactly the texts it writes.
-/
import Mathlib.Tactic.IntervalCases
import Tun2Proxy.Net.SocketAddr
import Tun2Proxy.VirtualDns.Persistence

namespace Tun2Proxy

open Lines

namespace Json

/-! ## 1. Strings -/

def quoteMark : Char := Char.ofNat 34

def backslash : Char := Char.ofNat 92

/-- The value of a hexadecimal digit. -/
def hexValue (c : Char) : Nat := (List.range 16).findIdx fun d => Nat.digitChar d == c

theorem hexValue_digitChar {d : Nat} (h : d < 16) : hexValue (Nat.digitChar d) = d := by
  interval_cases d <;> decide

/-- The characters that are escaped by one letter, with the letter. -/
def shortEscapes : List (Char × Char) :=
  [(quoteMark, quoteMark), (backslash, backslash), (Char.ofNat 8, 'b'), (Char.ofNat 9, 't'),
    (Char.ofNat 10, 'n'), (Char.ofNat 12, 'f'), (Char.ofNat 13, 'r')]

def escape (c : Char) : Str :=
  match shortEscapes.lookup c with
  | some letter => [backslash, letter]
  | none =>
    if c.toNat < 32 then
      [backslash, 'u', '0', '0', Nat.digitChar (c.toNat / 16), Nat.digitChar (c.toNat % 16)]
    else [c]

/-- The text of a string after its opening quote. -/
def quoted (s : Str) : Str := s.flatMap escape ++ [quoteMark]

/-- The character a letter escapes. -/
def unescape (letter : Char) : Option Char :=
  (shortEscapes.find? fun e => e.2 == letter).map Prod.fst

/-- Where a reader stands inside a string. -/
inductive Mode where
  | plain
  | escaped
  | unicode (digits : List Nat)

def push (c : Char) : Option (Str × Str) → Option (Str × Str) := Option.map fun r => (c :: r.1, r.2)

/-- Reads up to the closing quote. -/
def readString : Mode → Str → Option (Str × Str)
  | _, [] => none
  | .plain, c :: rest =>
    if c = quoteMark then some ([], rest)
    else if c = backslash then readString .escaped rest
    else push c (readString .plain rest)
  | .escaped, c :: rest =>
    if c = 'u' then readString (.unicode []) rest
    else
      match unescape c with
      | some d => push d (readString .plain rest)
      | none => none
  | .unicode digits, c :: rest =>
    let digits := digits ++ [hexValue c]
    if digits.length = 4 then
      push (Char.ofNat (digits.foldl (fun n d => 16 * n + d) 0)) (readString .plain rest)
    else readString (.unicode digits) rest

theorem shortEscapes_spec : ∀ e ∈ shortEscapes, e.2 ≠ 'u' ∧ unescape e.2 = some e.1 := by decide

theorem mem_shortEscapes {c letter : Char} (h : shortEscapes.lookup c = some letter) :
    (c, letter) ∈ shortEscapes := by
  obtain ⟨before, behind, heq, -⟩ := List.lookup_eq_some_iff.mp h
  rw [heq]
  exact List.mem_append_right _ List.mem_cons_self

/-- Reading an escaped character gives the character back. -/
theorem readString_escape (c : Char) (t : Str) :
    readString .plain (escape c ++ t) = push c (readString .plain t) := by
  have hq : backslash ≠ quoteMark := by decide
  unfold escape
  cases hl : shortEscapes.lookup c with
  | some letter =>
    obtain ⟨hu, hc⟩ := shortEscapes_spec _ (mem_shortEscapes hl)
    show readString .plain (backslash :: letter :: t) = _
    rw [readString, if_neg hq, if_pos rfl, readString, if_neg hu, hc]
  | none =>
    have hnot : ∀ p ∈ shortEscapes, c ≠ p.1 := by
      intro p hp e
      have := List.lookup_eq_none_iff.mp hl p hp
      simp [e] at this
    by_cases hlow : c.toNat < 32
    · have hzero : hexValue '0' = 0 := by decide
      have e : Char.ofNat (16 * hexValue (Nat.digitChar (c.toNat / 16)) +
          hexValue (Nat.digitChar (c.toNat % 16))) = c := by
        rw [hexValue_digitChar (by omega), hexValue_digitChar (by omega), Nat.div_add_mod]
        exact Char.ofNat_toNat c
      simp only [if_pos hlow, List.cons_append, List.nil_append]
      rw [readString, if_neg hq, if_pos rfl, readString, if_pos rfl]
      simp [readString, hzero, e]
    · simp only [if_neg hlow, List.cons_append, List.nil_append]
      rw [readString, if_neg (hnot (quoteMark, quoteMark) (by decide)),
        if_neg (hnot (backslash, backslash) (by decide))]

theorem readString_quoted (s rest : Str) :
    readString .plain (quoted s ++ rest) = some (s, rest) := by
  unfold quoted
  induction s with
  | nil =>
    show readString .plain (quoteMark :: rest) = _
    rw [readString, if_pos rfl]
  | cons c s ih =>
    rw [List.flatMap_cons, List.append_assoc, List.append_assoc, readString_escape,
      ← List.append_assoc, ih]
    rfl

/-! ## 2. Addresses -/

def hexByte (b : UInt8) : Str := [Nat.digitChar (b.toNat / 16), Nat.digitChar (b.toNat % 16)]

/-- Octets in groups of two, with a colon between two groups. -/
def hexGroups : List UInt8 → Str
  | a :: b :: [] => hexByte a ++ hexByte b
  | a :: b :: rest => hexByte a ++ hexByte b ++ ':' :: hexGroups rest
  | _ => []

def readHex : Str → List UInt8
  | a :: b :: rest => UInt8.ofNat (16 * hexValue a + hexValue b) :: readHex rest
  | _ => []

def addressText : IpAddr → Str
  | .v4 bits => displayIpv4 bits
  | .v6 bits => hexGroups (BigEndian.bytes 16 bits.toNat)

def readAddress (s : Str) : IpAddr :=
  if '.' ∈ s then
    .v4 (BitVec.ofNat 32 (BigEndian.value
      ((s.splitOn '.').map fun digits => UInt8.ofNat (Nat.ofDigitChars 10 digits 0))))
  else .v6 (BitVec.ofNat 128 (BigEndian.value (readHex (s.filter (· != ':')))))

theorem readHex_flatMap (bs : List UInt8) : readHex (bs.flatMap hexByte) = bs := by
  induction bs with
  | nil => rfl
  | cons b bs ih =>
    have hb : b.toNat < 256 := b.toNat_lt
    show UInt8.ofNat (16 * hexValue (Nat.digitChar (b.toNat / 16)) +
      hexValue (Nat.digitChar (b.toNat % 16))) :: readHex (bs.flatMap hexByte) = b :: bs
    rw [hexValue_digitChar (by omega), hexValue_digitChar (by omega), Nat.div_add_mod, ih,
      UInt8.ofNat_toNat]

theorem digitChar_spec : ∀ d < 16, Nat.digitChar d ≠ ':' ∧ Nat.digitChar d ≠ '.' := by decide

theorem notMem_hexByte (b : UInt8) : ':' ∉ hexByte b ∧ '.' ∉ hexByte b := by
  have hb : b.toNat < 256 := b.toNat_lt
  have h1 := digitChar_spec (b.toNat / 16) (by omega)
  have h2 := digitChar_spec (b.toNat % 16) (by omega)
  simp [hexByte, h1.1.symm, h1.2.symm, h2.1.symm, h2.2.symm]

theorem filter_hexByte (b : UInt8) : (hexByte b).filter (· != ':') = hexByte b := by
  rw [List.filter_eq_self]
  intro c hc
  have := (notMem_hexByte b).1
  simp only [bne_iff_ne, ne_eq]
  rintro rfl
  exact this hc

/-- Without its colons, the text of the groups is the text of the octets. -/
theorem filter_hexGroups : ∀ (bs : List UInt8), bs.length % 2 = 0 →
    (hexGroups bs).filter (· != ':') = bs.flatMap hexByte ∧ '.' ∉ hexGroups bs
  | [], _ => ⟨rfl, List.not_mem_nil⟩
  | [_], h => by simp at h
  | [a, b], _ => by
    have ha := (notMem_hexByte a).2
    have hb := (notMem_hexByte b).2
    simp [hexGroups, filter_hexByte, ha, hb]
  | a :: b :: c :: rest, h => by
    have ha := (notMem_hexByte a).2
    have hb := (notMem_hexByte b).2
    have ih := filter_hexGroups (c :: rest) (by simp only [List.length_cons] at h ⊢; omega)
    simp [hexGroups, filter_hexByte, ha, hb, ih.1, ih.2]

theorem readAddress_addressText (ip : IpAddr) : readAddress (addressText ip) = ip := by
  cases ip with
  | v4 bits =>
    have hdot : ∀ l ∈ (BigEndian.bytes 4 bits.toNat).map fun b => displayDec b.toNat,
        '.' ∉ l := by
      intro l hl hmem
      obtain ⟨b, -, rfl⟩ := List.mem_map.mp hl
      have := Nat.isDigit_of_mem_toDigits (by norm_num) (by norm_num) hmem
      revert this
      decide
    have hlen := BigEndian.length_bytes 4 bits.toNat
    have hmem : '.' ∈ addressText (.v4 bits) := by
      show '.' ∈ displayIpv4 bits
      unfold displayIpv4
      match h : BigEndian.bytes 4 bits.toNat, hlen with
      | [a, b, c, d], _ => simp [List.intercalate]
    unfold readAddress
    rw [if_pos hmem]
    show IpAddr.v4 _ = _
    unfold addressText displayIpv4
    rw [List.splitOn_intercalate _ hdot (by simp [← List.length_eq_zero_iff, hlen]),
      List.map_map]
    have hid : ((fun digits => UInt8.ofNat (Nat.ofDigitChars 10 digits 0)) ∘
        fun b : UInt8 => displayDec b.toNat) = id := by
      funext b
      show UInt8.ofNat (Nat.ofDigitChars 10 (Nat.toDigits 10 b.toNat) 0) = b
      rw [Nat.ofDigitChars_toDigits (by norm_num) (by norm_num), UInt8.ofNat_toNat]
    rw [hid, List.map_id, BigEndian.value_bytes_of_lt (by simpa using bits.isLt)]
    simp
  | v6 bits =>
    have hlen := BigEndian.length_bytes 16 bits.toNat
    obtain ⟨hf, hdot⟩ := filter_hexGroups (BigEndian.bytes 16 bits.toNat) (by rw [hlen])
    unfold readAddress addressText
    rw [if_neg hdot, hf, readHex_flatMap, BigEndian.value_bytes_of_lt (by simpa using bits.isLt)]
    simp

/-! ## 3. Records -/

def headerHead : Str := "\x7b\"type\":\"header\",\"version\":".toList

def networkHead : Str := ",\"network_addr\":\"".toList

def broadcastHead : Str := ",\"broadcast_addr\":\"".toList

def cursorHead : Str := ",\"allocation_cursor\":\"".toList

def mappingHead : Str := "\x7b\"type\":\"mapping\",\"ip\":\"".toList

def nameHead : Str := ",\"name\":\"".toList

def closing : Str := ['}']

def recordText : CacheRecord → Str
  | .header version network broadcast cursor =>
    headerHead ++ (displayDec version.toNat ++ (networkHead ++ (quoted (addressText network) ++
      (broadcastHead ++ (quoted (addressText broadcast) ++ (cursorHead ++
        (quoted (addressText cursor) ++ closing)))))))
  | .mapping ip name =>
    mappingHead ++ (quoted (addressText ip) ++ (nameHead ++ (quoted name ++ closing)))

/-- What follows a text that has to stand at the front. -/
def strip (p s : Str) : Option Str := if s.take p.length = p then some (s.drop p.length) else none

/-- A quoted address after a text that has to stand at the front. -/
def readField (head s : Str) : Option (Str × Str) := (strip head s).bind (readString .plain)

def readMapping (s : Str) : Option (CacheRecord × Str) := do
  let (ip, s) ← readField mappingHead s
  let (name, s) ← readField nameHead s
  let s ← strip closing s
  pure (.mapping (readAddress ip) name, s)

def readHeader (s : Str) : Option (CacheRecord × Str) := do
  let s ← strip headerHead s
  let version := UInt8.ofNat (Nat.ofDigitChars 10 (s.takeWhile Char.isDigit) 0)
  let (network, s) ← readField networkHead (s.dropWhile Char.isDigit)
  let (broadcast, s) ← readField broadcastHead s
  let (cursor, s) ← readField cursorHead s
  let s ← strip closing s
  pure (.header version (readAddress network) (readAddress broadcast) (readAddress cursor), s)

def readRecord (s : Str) : Option (CacheRecord × Str) :=
  match readMapping s with
  | some r => some r
  | none => readHeader s

theorem strip_append (p s : Str) : strip p (p ++ s) = some s := by
  simp [strip]

theorem readField_append (head value rest : Str) :
    readField head (head ++ (quoted value ++ rest)) = some (value, rest) := by
  unfold readField
  rw [strip_append]
  exact readString_quoted value rest

/-- **The text of a record is read back, whatever follows it.** -/
theorem readRecord_recordText (r : CacheRecord) (rest : Str) :
    readRecord (recordText r ++ rest) = some (r, rest) := by
  unfold readRecord
  cases r with
  | mapping ip name =>
    have h : readMapping (recordText (.mapping ip name) ++ rest) =
        some (.mapping ip name, rest) := by
      simp only [recordText, List.append_assoc]
      unfold readMapping
      rw [readField_append]
      simp only [Option.bind_eq_bind, Option.bind_some]
      rw [readField_append]
      simp only [Option.bind_some, strip_append, readAddress_addressText]
      rfl
    rw [h]
  | header version network broadcast cursor =>
    have hm : readMapping (recordText (.header version network broadcast cursor) ++ rest) =
        none := by
      unfold readMapping readField
      have hs : strip mappingHead
          (recordText (.header version network broadcast cursor) ++ rest) = none := by
        unfold strip
        rw [if_neg]
        simp only [recordText, List.append_assoc]
        rw [List.take_append_of_le_length (by decide)]
        decide
      rw [hs]
      rfl
    have hdigits : ∀ c ∈ displayDec version.toNat, c.isDigit = true := fun c hc =>
      Nat.isDigit_of_mem_toDigits (by norm_num) (by norm_num) hc
    have hstop : ∀ t, (networkHead ++ t).takeWhile Char.isDigit = [] ∧
        (networkHead ++ t).dropWhile Char.isDigit = networkHead ++ t := fun t => ⟨rfl, rfl⟩
    rw [hm]
    simp only [recordText, List.append_assoc]
    unfold readHeader
    rw [strip_append]
    simp only [Option.bind_eq_bind, Option.bind_some]
    rw [List.takeWhile_append_of_pos hdigits, List.dropWhile_append_of_pos hdigits,
      (hstop _).1, (hstop _).2, List.append_nil, displayDec,
      Nat.ofDigitChars_toDigits (by norm_num) (by norm_num), UInt8.ofNat_toNat, readField_append]
    simp only [Option.bind_some]
    rw [readField_append]
    simp only [Option.bind_some]
    rw [readField_append]
    simp only [Option.bind_some, strip_append, readAddress_addressText]
    rfl

/-- No record's text goes on after another record's text. -/
theorem recordText_prefixFree {r r' : CacheRecord} {rest : Str}
    (h : recordText r = recordText r' ++ rest) : r = r' ∧ rest = [] := by
  have h1 := readRecord_recordText r []
  rw [List.append_nil, h, readRecord_recordText] at h1
  obtain ⟨rfl, rfl⟩ := Prod.mk.inj (Option.some.inj h1)
  exact ⟨rfl, rfl⟩

/-! ## 4. The codec -/

/-- Reads exactly the texts that are written. -/
def jsonCodec : RecordCodec where
  usizeMax := 2 ^ 64 - 1
  encode r := (recordText r).asBytes
  decode bytes :=
    match bytes.toByteArray.utf8Decode? with
    | some chars =>
      match readRecord chars.toList with
      | some (r, _) => if (recordText r).asBytes = bytes then some r else none
      | none => none
    | none => none

theorem decode_asBytes (s : Str) :
    jsonCodec.decode s.asBytes =
      match readRecord s with
      | some (r, _) => if (recordText r).asBytes = s.asBytes then some r else none
      | none => none := by
  have h : s.asBytes.toByteArray.utf8Decode? = some s.toArray := List.utf8Decode?_utf8Encode
  unfold jsonCodec
  simp only [h]

theorem encode_of_decode {bytes : List UInt8} {r : CacheRecord}
    (h : jsonCodec.decode bytes = some r) : jsonCodec.encode r = bytes := by
  simp only [jsonCodec] at h
  split at h
  · split at h
    · split at h
      · rename_i hb
        cases h
        exact hb
      · cases h
    · cases h
  · cases h

/-- A text that goes on after a record is no record, and neither is the beginning of one. -/
theorem encode_prefixFree {r r' : CacheRecord} {rest : List UInt8}
    (h : jsonCodec.encode r = jsonCodec.encode r' ++ rest) : r = r' ∧ rest = [] := by
  have hbytes : (recordText r').utf8Encode ++ rest.toByteArray = (recordText r).utf8Encode := by
    show (recordText r').asBytes.toByteArray ++ rest.toByteArray =
      (recordText r).asBytes.toByteArray
    rw [← List.toByteArray_append]
    exact congrArg List.toByteArray h.symm
  obtain ⟨t, ht⟩ := List.isPrefix_of_utf8Encode_append_eq_utf8Encode _ hbytes
  obtain ⟨rfl, rfl⟩ := recordText_prefixFree ht.symm
  exact ⟨rfl, by simpa using h⟩

/-- A byte below 128 stands only in the encoding of the character with its number. -/
theorem toNat_of_mem_utf8EncodeChar {b : UInt8} {c : Char} (hb : b.toNat < 128)
    (h : b ∈ String.utf8EncodeChar c) : c.toNat = b.toNat := by
  unfold String.utf8EncodeChar at h
  have hv : c.toNat = c.val.toNat := rfl
  simp only at h
  split at h
  · rename_i hle
    rw [List.mem_singleton] at h
    subst h
    rw [UInt8.toNat_ofNat']
    omega
  · exfalso
    split at h
    · simp only [List.mem_cons, List.not_mem_nil, or_false] at h
      rcases h with rfl | rfl <;> rw [UInt8.toNat_ofNat'] at hb <;> omega
    · split at h
      · simp only [List.mem_cons, List.not_mem_nil, or_false] at h
        rcases h with rfl | rfl | rfl <;> rw [UInt8.toNat_ofNat'] at hb <;> omega
      · simp only [List.mem_cons, List.not_mem_nil, or_false] at h
        rcases h with rfl | rfl | rfl | rfl <;> rw [UInt8.toNat_ofNat'] at hb <;> omega

/-- An escaped character holds no control character. -/
theorem escape_visible (d c : Char) (hc : c ∈ escape d) : 32 ≤ c.toNat := by
  have hshort : ∀ e ∈ shortEscapes, 32 ≤ e.2.toNat := by decide
  have hhex : ∀ n < 16, 32 ≤ (Nat.digitChar n).toNat := by decide
  unfold escape at hc
  split at hc
  · rename_i letter hl
    simp only [List.mem_cons, List.not_mem_nil, or_false] at hc
    rcases hc with rfl | rfl
    · decide
    · exact hshort _ (mem_shortEscapes hl)
  · split at hc
    · simp only [List.mem_cons, List.not_mem_nil, or_false] at hc
      rcases hc with rfl | rfl | rfl | rfl | rfl | rfl
      · decide
      · decide
      · decide
      · decide
      · exact hhex _ (by omega)
      · exact hhex _ (by omega)
    · rename_i hge
      rw [List.mem_singleton] at hc
      subst hc
      omega

/-- The text of a record holds no control character. -/
theorem control_notMem_recordText (r : CacheRecord) : ∀ c ∈ recordText r, 32 ≤ c.toNat := by
  have hdec : ∀ n, ∀ c ∈ displayDec n, 32 ≤ c.toNat := by
    intro n c hc
    have hd := Nat.isDigit_of_mem_toDigits (by norm_num) (by norm_num) hc
    have : 48 ≤ c.toNat := by
      simp only [Char.isDigit, Bool.and_eq_true, decide_eq_true_eq] at hd
      exact hd.1
    omega
  have hquoted : ∀ s : Str, ∀ c ∈ quoted s, 32 ≤ c.toNat := by
    intro s c hc
    unfold quoted at hc
    rcases List.mem_append.mp hc with hc | hc
    · obtain ⟨d, -, hc⟩ := List.mem_flatMap.mp hc
      exact escape_visible d c hc
    · rw [List.mem_singleton] at hc
      subst hc
      decide
  have hheads : ∀ p ∈ [headerHead, networkHead, broadcastHead, cursorHead, mappingHead, nameHead,
      closing], ∀ c : Char, c ∈ p → 32 ≤ c.toNat := by
    have hall : ([headerHead, networkHead, broadcastHead, cursorHead, mappingHead, nameHead,
        closing].all fun p => p.all fun c => decide (32 ≤ c.toNat)) = true := by decide +kernel
    simpa only [List.all_eq_true, decide_eq_true_eq] using hall
  intro c hc
  cases r with
  | header version network broadcast cursor =>
    simp only [recordText, List.mem_append] at hc
    rcases hc with hc | hc | hc | hc | hc | hc | hc | hc | hc
    · exact hheads headerHead (by simp) c hc
    · exact hdec _ c hc
    · exact hheads networkHead (by simp) c hc
    · exact hquoted _ c hc
    · exact hheads broadcastHead (by simp) c hc
    · exact hquoted _ c hc
    · exact hheads cursorHead (by simp) c hc
    · exact hquoted _ c hc
    · exact hheads closing (by simp) c hc
  | mapping ip name =>
    simp only [recordText, List.mem_append] at hc
    rcases hc with hc | hc | hc | hc | hc
    · exact hheads mappingHead (by simp) c hc
    · exact hquoted _ c hc
    · exact hheads nameHead (by simp) c hc
    · exact hquoted _ c hc
    · exact hheads closing (by simp) c hc

theorem notMem_encode (r : CacheRecord) {b : UInt8} (hb : b.toNat < 32) :
    b ∉ jsonCodec.encode r := by
  intro h
  obtain ⟨c, hc, hbc⟩ := List.mem_flatMap.mp h
  have h1 := control_notMem_recordText r c hc
  have h2 := toNat_of_mem_utf8EncodeChar (by omega) hbc
  omega

theorem decode_encode (r : CacheRecord) : jsonCodec.decode (jsonCodec.encode r) = some r := by
  have h := readRecord_recordText r []
  rw [List.append_nil] at h
  show jsonCodec.decode (recordText r).asBytes = some r
  rw [decode_asBytes, h]
  simp only [if_true]

theorem jsonCodec_lawful : jsonCodec.Lawful where
  decode_encode := decode_encode
  nonempty r := by
    intro h
    have hnone : jsonCodec.decode (Str.asBytes []) = none := by
      rw [decode_asBytes]
      decide
    have hsome := decode_encode r
    rw [h] at hsome
    cases hsome.symm.trans hnone
  newline r := notMem_encode r (by decide)
  carriageReturn r := notMem_encode r (by decide)
  utf8 r := by
    rw [validUtf8_iff]
    refine ⟨recordText r, ?_⟩
    apply ByteArray.ext
    simp [jsonCodec, List.utf8Encode, Str.asBytes]

end Json

end Tun2Proxy
