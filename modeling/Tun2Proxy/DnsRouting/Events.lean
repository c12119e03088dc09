/-
  File:      Tun2Proxy/DnsRouting/Events.lean
  Subject:   Reading the DNS events of the trace (`wide`, `number` and `origin` of
             src/dns_routing/windows.rs).

  The fields of an event are packed: strings are UTF-16 in little-endian order up to a pair of zero
  bytes, numbers have four bytes. Event 3006 has the name and the type of a question and is of the
  process that asked; event 3010 comes from the DNS service and has the server and the process
  behind them.

  A read that finds no field gives up (`missing`, the source's `None`). The slices of the source
  panic outside of the data; here they fail with an error of their own (`outOfRange`), which is
  then shown not to happen.
-/
import Tun2Proxy.Lib.BigEndian
import Tun2Proxy.Lib.Decoder
import Tun2Proxy.Lib.Utf16
import Tun2Proxy.Str

namespace Tun2Proxy.DnsRouting

/-! ## 1. The decoder -/

structure Question where
  name : Str
  kind : UInt16
  deriving DecidableEq, Repr

def Question.new (name : Str) (kind : UInt16) : Question :=
  ⟨Str.toAsciiLowercase (Str.trimEndMatches name '.'), kind⟩

/-- Why nothing is read. -/
inductive Stop where
  | missing
  | outOfRange
  deriving DecidableEq, Repr

/-- Reads a field off the front of the data. -/
abbrev Field (α : Type) := Decoder UInt8 Stop α

/-- `data[n..]`. -/
def sliceFrom {α : Type} (n : Nat) (data : List α) : Except Stop (List α) :=
  if n ≤ data.length then .ok (data.drop n) else .error .outOfRange

/-- `data[..n]`. -/
def sliceTo {α : Type} (n : Nat) (data : List α) : Except Stop (List α) :=
  if n ≤ data.length then .ok (data.take n) else .error .outOfRange

/-- `as_chunks::<2>`; a last byte without a partner is left over. -/
def asChunks : List UInt8 → List (UInt8 × UInt8)
  | a :: b :: rest => (a, b) :: asChunks rest
  | _ => []

/-- `u16::from_le_bytes`. -/
def unit (pair : UInt8 × UInt8) : UInt16 := UInt16.ofNat (pair.1.toNat + 256 * pair.2.toNat)

/-- `u32::from_le_bytes`. -/
def word (bytes : List UInt8) : UInt32 := UInt32.ofNat (BigEndian.value bytes.reverse)

def wide : Field Str := fun data =>
  let pairs := asChunks data
  match pairs.findIdx? (· == (0, 0)) with
  | none => .error .missing
  | some finish => do
      let pairs ← sliceTo finish pairs
      let data ← sliceFrom ((finish + 1) * 2) data
      match Utf16.decode (pairs.map unit) with
      | none => .error .missing
      | some s => .ok (s, data)

def number : Field UInt32 := fun data =>
  if 4 ≤ data.length then do
    let rest ← sliceFrom 4 data
    .ok (word (data.take 4), rest)
  else .error .missing

/-- `u16::try_from`. -/
def narrow (n : UInt32) : Field UInt16 :=
  if n.toNat < 65536 then pure n.toUInt16 else throw .missing

/-- The process that asked: behind the server, or the one of the event itself. -/
def pidField (id : UInt16) (headerPid : UInt32) : Field UInt32 :=
  if id = 3010 then do
    let _ ← wide
    number
  else pure headerPid

def originFields (id : UInt16) (version : UInt8) (headerPid : UInt32) : Field (Question × UInt32) :=
  if (id = 3006 ∧ version = 0) ∨ (id = 3010 ∧ version = 1) then do
    let name ← wide
    let kind ← number
    let kind ← narrow kind
    let pid ← pidField id headerPid
    pure (Question.new name kind, pid)
  else throw .missing

/-- The question of an event, and the process that asked it. -/
def origin (id : UInt16) (version : UInt8) (headerPid : UInt32) (data : List UInt8) :
    Except Stop (Question × UInt32) :=
  (originFields id version headerPid data).map (·.1)

/-! ## 2. Strings -/

/-- The two bytes of a code unit. -/
def unitPair (u : UInt16) : UInt8 × UInt8 := (UInt8.ofNat u.toNat, UInt8.ofNat (u.toNat / 256))

def pairBytes (pair : UInt8 × UInt8) : List UInt8 := [pair.1, pair.2]

/-- Code units as they are packed, with the zero behind them. -/
def terminated (units : List UInt16) : List UInt8 :=
  ((units ++ [0]).map unitPair).flatMap pairBytes

@[simp] theorem unit_unitPair (u : UInt16) : unit (unitPair u) = u := by
  have hlt := u.toNat_lt
  apply UInt16.toNat.inj
  rw [unit, unitPair, UInt16.toNat_ofNat', UInt8.toNat_ofNat', UInt8.toNat_ofNat']
  omega

@[simp] theorem unitPair_unit (pair : UInt8 × UInt8) : unitPair (unit pair) = pair := by
  obtain ⟨low, high⟩ := pair
  have hlow := low.toNat_lt
  have hhigh := high.toNat_lt
  have hunit : (unit (low, high)).toNat = low.toNat + 256 * high.toNat :=
    UInt16.toNat_ofNat_of_lt' (by show low.toNat + 256 * high.toNat < 65536; omega)
  refine Prod.ext (UInt8.toNat.inj ?_) (UInt8.toNat.inj ?_)
  · show (UInt8.ofNat _).toNat = low.toNat
    rw [UInt8.toNat_ofNat', hunit]
    omega
  · show (UInt8.ofNat _).toNat = high.toNat
    rw [UInt8.toNat_ofNat', hunit]
    omega

/-- Only the unit zero has two zero bytes. -/
theorem unitPair_eq_zero {u : UInt16} : unitPair u = (0, 0) ↔ u = 0 := by
  constructor
  · intro h
    rw [← unit_unitPair u, h]
    rfl
  · rintro rfl
    rfl

theorem asChunks_append (pairs : List (UInt8 × UInt8)) (data : List UInt8) :
    asChunks (pairs.flatMap pairBytes ++ data) = pairs ++ asChunks data := by
  induction pairs with
  | nil => rfl
  | cons pair pairs ih =>
    show (pair.1, pair.2) :: asChunks (pairs.flatMap pairBytes ++ data) = _
    rw [ih]
    rfl

theorem length_flatMap_pairBytes (pairs : List (UInt8 × UInt8)) :
    (pairs.flatMap pairBytes).length = 2 * pairs.length := by
  induction pairs with
  | nil => rfl
  | cons pair pairs ih =>
    rw [List.flatMap_cons, List.length_append, ih, List.length_cons]
    show 2 + _ = _
    omega

/-- The data is its pairs, and maybe a byte. -/
theorem asChunks_rest (data : List UInt8) :
    ∃ rest, data = (asChunks data).flatMap pairBytes ++ rest := by
  fun_induction asChunks data with
  | case1 a b data ih =>
    obtain ⟨rest, hrest⟩ := ih
    refine ⟨rest, ?_⟩
    rw [List.flatMap_cons, List.append_assoc, ← hrest]
    rfl
  | case2 data => exact ⟨data, rfl⟩

/-- A part of the data has the first of its pairs. -/
theorem asChunks_part (part rest : List UInt8) :
    asChunks part = (asChunks (part ++ rest)).take (part.length / 2) := by
  fun_induction asChunks part with
  | case1 a b part ih =>
    have hlen : (a :: b :: part).length / 2 = part.length / 2 + 1 := by
      simp only [List.length_cons]
      omega
    rw [hlen, ih]
    rfl
  | case2 part hshort =>
    have hlen : part.length / 2 = 0 := by
      match part with
      | [] => rfl
      | [_] => simp
      | a :: b :: part => exact (hshort a b part rfl).elim
    rw [hlen, List.take_zero]

theorem findIdx?_append_cons {α : Type} {front back : List α} {a : α} {p : α → Bool}
    (hfront : ∀ x ∈ front, p x = false) (ha : p a = true) :
    (front ++ a :: back).findIdx? p = some front.length := by
  rw [List.findIdx?_append, List.findIdx?_eq_none_iff.mpr hfront, List.findIdx?_cons, ha]
  simp

/-- `wide` on data whose first zero pair is known. -/
theorem wide_of_pairs {pairs : List (UInt8 × UInt8)} (h : (0, 0) ∉ pairs) (data : List UInt8) :
    wide (pairs.flatMap pairBytes ++ (0 :: 0 :: data)) =
      match Utf16.decode (pairs.map unit) with
      | none => .error .missing
      | some s => .ok (s, data) := by
  have hchunks : asChunks (pairs.flatMap pairBytes ++ (0 :: 0 :: data)) =
      pairs ++ (0, 0) :: asChunks data := asChunks_append pairs _
  have hfront : ∀ pair ∈ pairs, (pair == (0, 0)) = false := by
    intro pair hpair
    rw [beq_eq_false_iff_ne]
    rintro rfl
    exact h hpair
  have hto : sliceTo pairs.length (pairs ++ (0, 0) :: asChunks data) = .ok pairs := by
    rw [sliceTo, if_pos (by simp), List.take_left]
  have hfrom : sliceFrom ((pairs.length + 1) * 2) (pairs.flatMap pairBytes ++ (0 :: 0 :: data)) =
      .ok data := by
    have hsplit : pairs.flatMap pairBytes ++ (0 :: 0 :: data) =
        (pairs.flatMap pairBytes ++ [0, 0]) ++ data := by simp
    have hlen : (pairs.flatMap pairBytes ++ [(0 : UInt8), 0]).length = (pairs.length + 1) * 2 := by
      rw [List.length_append, length_flatMap_pairBytes]
      show _ + 2 = _
      omega
    rw [hsplit, sliceFrom, ← hlen, if_pos (by simp), List.drop_left]
  unfold wide
  dsimp only
  rw [hchunks, findIdx?_append_cons hfront (beq_self_eq_true _)]
  dsimp only
  rw [hto, hfrom]
  rfl

/-- No zero pair, no string. -/
theorem wide_of_notMem {data : List UInt8} (h : (0, 0) ∉ asChunks data) :
    wide data = .error .missing := by
  have hnone : (asChunks data).findIdx? (· == (0, 0)) = none := by
    refine List.findIdx?_eq_none_iff.mpr fun pair hpair => ?_
    rw [beq_eq_false_iff_ne]
    rintro rfl
    exact h hpair
  unfold wide
  dsimp only
  rw [hnone]

theorem terminated_eq (units : List UInt16) :
    terminated units = (units.map unitPair).flatMap pairBytes ++ [0, 0] := by
  rw [terminated, List.map_append, List.flatMap_append]
  rfl

theorem zero_notMem_map_unitPair {units : List UInt16} (h : 0 ∉ units) :
    (0, 0) ∉ units.map unitPair := by
  intro hmem
  obtain ⟨u, hu, hzero⟩ := List.mem_map.mp hmem
  rw [unitPair_eq_zero.mp hzero] at hu
  exact h hu

/-- **What `wide` reads**: code units without a zero that decode, and the zero behind them. -/
theorem wide_of_units {units : List UInt16} (hzero : 0 ∉ units) {s : Str}
    (hs : Utf16.decode units = some s) (data : List UInt8) :
    wide (terminated units ++ data) = .ok (s, data) := by
  have hunits : (units.map unitPair).map unit = units := by
    simp [Function.comp_def]
  rw [terminated_eq, List.append_assoc]
  show wide (_ ++ (0 :: 0 :: data)) = _
  rw [wide_of_pairs (zero_notMem_map_unitPair hzero), hunits, hs]

/-- It reads that or finds nothing. -/
theorem wide_cases (data : List UInt8) : wide data = .error .missing ∨
    ∃ units s rest, 0 ∉ units ∧ Utf16.decode units = some s ∧ data = terminated units ++ rest ∧
      wide data = .ok (s, rest) := by
  by_cases hmem : (0, 0) ∈ asChunks data
  · obtain ⟨pairs, back, hpairs, hfirst⟩ := List.eq_append_cons_of_mem hmem
    obtain ⟨odd, hodd⟩ := asChunks_rest data
    obtain ⟨rest, hdata⟩ : ∃ rest, data = pairs.flatMap pairBytes ++ (0 :: 0 :: rest) := by
      refine ⟨back.flatMap pairBytes ++ odd, ?_⟩
      rw [hpairs, List.flatMap_append, List.append_assoc, List.flatMap_cons, List.append_assoc]
        at hodd
      exact hodd
    have hwide := wide_of_pairs hfirst rest
    rw [← hdata] at hwide
    cases hs : Utf16.decode (pairs.map unit) with
    | none =>
      rw [hs] at hwide
      exact .inl hwide
    | some s =>
      rw [hs] at hwide
      refine .inr ⟨pairs.map unit, s, rest, ?_, hs, ?_, hwide⟩
      · intro hzero
        obtain ⟨pair, hpair, hunit⟩ := List.mem_map.mp hzero
        rw [← unitPair_unit pair, hunit] at hpair
        exact hfirst hpair
      · have hsame : (pairs.map unit).map unitPair = pairs := by
          simp [Function.comp_def]
        rw [terminated_eq, hsame, List.append_assoc]
        exact hdata
  · exact .inl (wide_of_notMem hmem)

theorem wide_local : Decoder.Local wide := by
  intro data s rest h
  rcases wide_cases data with hnone | ⟨units, s', rest', hzero, hs, hdata, hok⟩
  · rw [hnone] at h
    cases h
  · rw [hok] at h
    cases h
    exact ⟨terminated units, hdata, wide_of_units hzero hs⟩

/-- A string that is cut off has no zero pair. -/
theorem wide_incremental : Decoder.Incremental (· = .missing) wide := by
  intro part rest s h hne
  refine ⟨.missing, wide_of_notMem fun hmem => ?_, rfl⟩
  have hread := h []
  rw [List.append_nil] at hread
  rcases wide_cases (part ++ rest) with hnone | ⟨units, s', rest', hzero, -, hdata, hok⟩
  · rw [hnone] at hread
    cases hread
  · rw [hok] at hread
    cases hread
    rw [List.append_nil] at hdata
    have hlen := congrArg List.length hdata
    have hrest := List.length_pos_of_ne_nil hne
    rw [List.length_append, terminated_eq, List.length_append, length_flatMap_pairBytes,
      List.length_map] at hlen
    have hshort : part.length / 2 ≤ (units.map unitPair).length := by
      rw [List.length_map]
      simp only [List.length_cons, List.length_nil] at hlen
      omega
    rw [asChunks_part part rest, hdata, terminated_eq, asChunks_append,
      List.take_append_of_le_length hshort] at hmem
    exact zero_notMem_map_unitPair hzero (List.mem_of_mem_take hmem)

theorem wide_avoids : Decoder.Avoids .outOfRange wide := by
  intro data h
  rcases wide_cases data with hnone | ⟨_, _, _, -, -, -, hok⟩
  · rw [hnone] at h
    cases h
  · rw [hok] at h
    cases h

/-! ## 3. Numbers -/

/-- A number as it is packed. -/
def wordBytes (n : UInt32) : List UInt8 := (BigEndian.bytes 4 n.toNat).reverse

theorem length_wordBytes (n : UInt32) : (wordBytes n).length = 4 := by
  rw [wordBytes, List.length_reverse, BigEndian.length_bytes]

theorem word_wordBytes (n : UInt32) : word (wordBytes n) = n := by
  rw [word, wordBytes, List.reverse_reverse, BigEndian.value_bytes_of_lt n.toNat_lt,
    UInt32.ofNat_toNat]

/-- The slice of `number` is one that it has just tested. -/
theorem number_eq : number = (do
    let bytes ← Decoder.take .missing 4
    pure (word bytes)) := by
  funext data
  show number data = (Decoder.take .missing 4 data).bind _
  unfold number Decoder.take sliceFrom
  by_cases hlen : 4 ≤ data.length
  · rw [if_pos hlen, if_pos hlen, if_pos hlen]
    rfl
  · rw [if_neg hlen, if_neg hlen]
    rfl

theorem number_reads (n : UInt32) : Decoder.Reads number (wordBytes n) n := by
  intro rest
  rw [number_eq, Decoder.bind_of_ok (Decoder.Reads.take (length_wordBytes n) rest), word_wordBytes]
  rfl

theorem number_local : Decoder.Local number := by
  rw [number_eq]
  exact (Decoder.Local.take _ 4).bind fun _ => Decoder.Local.pure _

theorem number_incremental : Decoder.Incremental (· = .missing) number := by
  have htake : Decoder.Incremental (· = Stop.missing)
      (Decoder.take .missing 4 : Field (List UInt8)) := by
    refine Decoder.Incremental.take ?_ 4
    rfl
  rw [number_eq]
  exact htake.bind (Decoder.Local.take _ 4) fun _ => Decoder.Incremental.pure _

theorem number_avoids : Decoder.Avoids .outOfRange number := by
  rw [number_eq]
  exact (Decoder.Avoids.take (by decide) 4).bind fun _ => Decoder.Avoids.pure _

theorem narrow_of_lt {n : UInt32} (h : n.toNat < 65536) : narrow n = pure n.toUInt16 := if_pos h

/-- What holds of `pure` and of giving up holds of `narrow`. -/
theorem narrow_cases {P : Field UInt16 → Prop} (n : UInt32) (hpure : ∀ a, P (pure a))
    (hthrow : P (throw .missing)) : P (narrow n) := by
  unfold narrow
  split
  · exact hpure _
  · exact hthrow

/-! ## 4. Events -/

theorem pidField_local (id : UInt16) (headerPid : UInt32) :
    Decoder.Local (pidField id headerPid) := by
  unfold pidField
  split
  · exact wide_local.bind fun _ => number_local
  · exact Decoder.Local.pure _

theorem pidField_incremental (id : UInt16) (headerPid : UInt32) :
    Decoder.Incremental (· = .missing) (pidField id headerPid) := by
  unfold pidField
  split
  · exact wide_incremental.bind wide_local fun _ => number_incremental
  · exact Decoder.Incremental.pure _

theorem originFields_incremental (id : UInt16) (version : UInt8) (headerPid : UInt32) :
    Decoder.Incremental (· = .missing) (originFields id version headerPid) := by
  unfold originFields
  split
  · refine wide_incremental.bind wide_local fun name => ?_
    refine number_incremental.bind number_local fun kind => ?_
    refine Decoder.Incremental.bind (narrow_cases kind Decoder.Local.pure (Decoder.Local.throw _))
      (narrow_cases kind Decoder.Incremental.pure (Decoder.Incremental.throw _)) fun kind => ?_
    refine (pidField_incremental id headerPid).bind (pidField_local id headerPid) fun pid => ?_
    exact Decoder.Incremental.pure _
  · exact Decoder.Incremental.throw _

theorem originFields_avoids (id : UInt16) (version : UInt8) (headerPid : UInt32) :
    Decoder.Avoids .outOfRange (originFields id version headerPid) := by
  have hthrow : ∀ {α : Type}, Decoder.Avoids Stop.outOfRange (throw .missing : Field α) :=
    Decoder.Avoids.throw (by decide)
  unfold originFields
  split
  · refine wide_avoids.bind fun name => number_avoids.bind fun kind => ?_
    refine (narrow_cases kind Decoder.Avoids.pure hthrow).bind fun kind => ?_
    refine Decoder.Avoids.bind ?_ fun pid => Decoder.Avoids.pure _
    unfold pidField
    split
    · exact wide_avoids.bind fun _ => number_avoids
    · exact Decoder.Avoids.pure _
  · exact hthrow

/-- A string as it is packed. -/
def wideBytes (s : Str) : List UInt8 := terminated (Utf16.encode s)

theorem wide_reads {s : Str} (h : Char.ofNat 0 ∉ s) : Decoder.Reads wide (wideBytes s) s :=
  wide_of_units (Utf16.zero_notMem_encode h) (Utf16.decode_encode s)

/-- Event 3006 in version 0. -/
def packed3006 (name : Str) (kind : UInt16) : List UInt8 :=
  wideBytes name ++ wordBytes kind.toUInt32

/-- Event 3010 in version 1. -/
def packed3010 (name : Str) (kind : UInt16) (server : Str) (pid : UInt32) : List UInt8 :=
  packed3006 name kind ++ (wideBytes server ++ wordBytes pid)

theorem originFields_reads {id : UInt16} {version : UInt8} {headerPid pid : UInt32}
    (hid : (id = 3006 ∧ version = 0) ∨ (id = 3010 ∧ version = 1)) {name : Str}
    (hname : Char.ofNat 0 ∉ name) (kind : UInt16) {used : List UInt8}
    (hpid : Decoder.Reads (pidField id headerPid) used pid) :
    Decoder.Reads (originFields id version headerPid) (packed3006 name kind ++ used)
      (Question.new name kind, pid) := by
  intro rest
  have hkind : kind.toUInt32.toNat < 65536 := by
    rw [UInt16.toNat_toUInt32]
    exact kind.toNat_lt
  have hnarrow : narrow kind.toUInt32 = pure kind := by
    rw [narrow_of_lt hkind, UInt16.toUInt16_toUInt32]
  rw [originFields, if_pos hid, packed3006, List.append_assoc, List.append_assoc,
    Decoder.bind_of_ok (wide_reads hname _), Decoder.bind_of_ok (number_reads _ _), hnarrow,
    pure_bind, Decoder.bind_of_ok (hpid rest)]
  rfl

theorem origin_of_reads {id : UInt16} {version : UInt8} {headerPid : UInt32} {used : List UInt8}
    {out : Question × UInt32} (h : Decoder.Reads (originFields id version headerPid) used out)
    (extra : List UInt8) : origin id version headerPid (used ++ extra) = .ok out := by
  rw [origin, h extra]
  rfl

theorem origin_of_part {id : UInt16} {version : UInt8} {headerPid : UInt32}
    {used part : List UInt8} {out : Question × UInt32}
    (h : Decoder.Reads (originFields id version headerPid) used out) (hpart : part <+: used)
    (hne : part ≠ used) : origin id version headerPid part = .error .missing := by
  obtain ⟨rest, rfl⟩ := hpart
  have hrest : rest ≠ [] := by
    rintro rfl
    exact hne (List.append_nil part).symm
  obtain ⟨e, hfail, rfl⟩ := originFields_incremental id version headerPid h hrest
  rw [origin, hfail]
  rfl

/-- No data makes a slice leave its range. -/
theorem origin_in_range (id : UInt16) (version : UInt8) (headerPid : UInt32) (data : List UInt8) :
    origin id version headerPid data ≠ .error .outOfRange := by
  intro h
  unfold origin at h
  cases hdata : originFields id version headerPid data with
  | error e =>
    rw [hdata] at h
    exact originFields_avoids id version headerPid data
      (hdata.trans (congrArg _ (Except.error.inj h)))
  | ok r =>
    rw [hdata] at h
    cases h

/-- **Reading a packed event.** The question and the process of either event are read, whatever
    follows in the data; a part of the event is not read; and no data makes a slice leave its
    range. -/
theorem origin_packed (name server : Str) (hname : Char.ofNat 0 ∉ name)
    (hserver : Char.ofNat 0 ∉ server) (kind : UInt16) (pid headerPid : UInt32) :
    (∀ extra, origin 3006 0 headerPid (packed3006 name kind ++ extra) =
      .ok (Question.new name kind, headerPid)) ∧
    (∀ extra, origin 3010 1 headerPid (packed3010 name kind server pid ++ extra) =
      .ok (Question.new name kind, pid)) ∧
    (∀ part, part <+: packed3006 name kind → part ≠ packed3006 name kind →
      origin 3006 0 headerPid part = .error .missing) ∧
    (∀ part, part <+: packed3010 name kind server pid → part ≠ packed3010 name kind server pid →
      origin 3010 1 headerPid part = .error .missing) ∧
    ∀ id version headerPid data, origin id version headerPid data ≠ .error .outOfRange := by
  have h3006 : Decoder.Reads (originFields 3006 0 headerPid) (packed3006 name kind ++ [])
      (Question.new name kind, headerPid) :=
    originFields_reads (.inl ⟨rfl, rfl⟩) hname kind (Decoder.Reads.pure headerPid)
  rw [List.append_nil] at h3006
  have h3010 : Decoder.Reads (originFields 3010 1 headerPid) (packed3010 name kind server pid)
      (Question.new name kind, pid) :=
    originFields_reads (.inr ⟨rfl, rfl⟩) hname kind
      ((wide_reads hserver).bind (number_reads pid))
  refine ⟨origin_of_reads h3006, origin_of_reads h3010, fun part => origin_of_part h3006,
    fun part => origin_of_part h3010, origin_in_range⟩

/-- A name with a surrogate pair, asked by process 42. -/
theorem sample_origin_packed :
    Char.ofNat 0 ∉ "😀.Example.".toList ∧
      origin 3010 1 4 (packed3010 "😀.Example.".toList 28 "10.0.0.1".toList 42) =
        .ok (⟨"😀.example".toList, 28⟩, 42) := by
  have hname : Char.ofNat 0 ∉ "😀.Example.".toList := by decide
  have hread := (origin_packed "😀.Example.".toList "10.0.0.1".toList hname (by decide) 28 42 4).2.1
    []
  rw [List.append_nil] at hread
  exact ⟨hname, hread⟩

end Tun2Proxy.DnsRouting
