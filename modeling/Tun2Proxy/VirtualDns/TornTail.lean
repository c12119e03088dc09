/-
  File:      Tun2Proxy/VirtualDns/TornTail.lean
  Subject:   A journal that was cut in the middle of a write.

  A cut leaves a prefix of the journal. Wherever it falls, as long as the header record is whole,
  loading restores every record that is whole. A torn record makes the load repair the file, and
  a cut at the end of a line leaves a journal that can be appended to.

  One cut is neither: right before a newline the last record is whole, so the load finds nothing
  to repair, but the next append continues its line. The line then holds two records and is read
  as none (`tornTail_loses_mappings`). With any other cut nothing is lost later
  (`tornTail_recovered`).
-/
import Mathlib.Logic.Relation
import Tun2Proxy.VirtualDns.Journal

namespace Tun2Proxy

open Lines

/-- The beginning of a record that does not end is not read as a record: `from_str` stops with an
    error at the end of the text. -/
def RecordCodec.TornUnreadable (codec : RecordCodec) : Prop :=
  ∀ r torn missing, codec.encode r = torn ++ missing → missing ≠ [] → codec.decode torn = none

section Codec

variable {codec : RecordCodec}

/-! ## 1. Where a cut can fall -/

/-- A cut of the mapping lines falls between two lines or inside one. -/
theorem mappingLines_cut (mappings : List (IpAddr × Str)) :
    ∀ {p rest : List UInt8}, mappingLines codec mappings = p ++ rest →
      (∃ before after, mappings = before ++ after ∧ p = mappingLines codec before ∧
        rest = mappingLines codec after) ∨
      ∃ before m after torn missing, mappings = before ++ m :: after ∧
        p = mappingLines codec before ++ torn ∧ torn ≠ [] ∧
        codec.encode (.mapping m.1 m.2) = torn ++ missing ∧
        rest = missing ++ newline :: mappingLines codec after := by
  induction mappings with
  | nil =>
    intro p rest h
    obtain ⟨rfl, rfl⟩ := List.append_eq_nil_iff.mp h.symm
    exact Or.inl ⟨[], [], rfl, rfl, rfl⟩
  | cons m mappings ih =>
    intro p rest h
    have hcons : ∀ ms, mappingLines codec (m :: ms) =
        recordLine codec (.mapping m.1 m.2) ++ mappingLines codec ms := fun _ => rfl
    rw [hcons] at h
    rcases List.append_eq_append_iff.mp h with ⟨p', rfl, hrest⟩ | ⟨c, hline, rfl⟩
    · -- the first line is whole, the cut falls into the others
      rcases ih hrest with ⟨before, after, rfl, rfl, rfl⟩ |
        ⟨before, m', after, torn, missing, rfl, rfl, ht, he, rfl⟩
      · exact Or.inl ⟨m :: before, after, rfl, rfl, rfl⟩
      · refine Or.inr ⟨m :: before, m', after, torn, missing, rfl, ?_, ht, he, rfl⟩
        rw [hcons, List.append_assoc]
    · -- the cut falls into the first line
      by_cases hp : p = []
      · subst hp
        refine Or.inl ⟨[], m :: mappings, rfl, rfl, ?_⟩
        rw [hcons, hline]
        rfl
      · rcases List.eq_nil_or_concat c with rfl | ⟨missing, b, rfl⟩
        · refine Or.inl ⟨[m], mappings, rfl, ?_, rfl⟩
          rw [hcons, hline]
          simp [mappingLines]
        · unfold recordLine at hline
          rw [List.concat_eq_append, ← List.append_assoc] at hline
          obtain ⟨he, hb⟩ := List.append_inj' hline rfl
          cases hb
          exact Or.inr ⟨[], m, mappings, p, missing, rfl, rfl, hp, he, by simp⟩

section Cut

variable {network broadcast cursor : IpAddr}

/-- A cut of a journal behind its header record. -/
theorem journalText_cut {mappings : List (IpAddr × Str)} {p rest : List UInt8}
    (h : journalText codec network broadcast cursor mappings = p ++ rest)
    (hheader : codec.encode (.header CACHE_VERSION network broadcast cursor) <+: p) :
    (p = codec.encode (.header CACHE_VERSION network broadcast cursor) ∧
      rest = newline :: mappingLines codec mappings) ∨
    (∃ before after, mappings = before ++ after ∧
      p = journalText codec network broadcast cursor before ∧
      rest = mappingLines codec after) ∨
    ∃ before m after torn missing, mappings = before ++ m :: after ∧
      p = journalText codec network broadcast cursor before ++ torn ∧ torn ≠ [] ∧
      codec.encode (.mapping m.1 m.2) = torn ++ missing ∧
      rest = missing ++ newline :: mappingLines codec after := by
  obtain ⟨t, rfl⟩ := hheader
  unfold journalText recordLine at h ⊢
  rw [List.append_assoc, List.append_assoc, List.append_cancel_left_eq] at h
  cases t with
  | nil =>
    left
    exact ⟨List.append_nil _, h.symm⟩
  | cons b t =>
    obtain ⟨rfl, h'⟩ := List.cons.inj h
    right
    rcases mappingLines_cut mappings h' with ⟨before, after, rfl, rfl, rfl⟩ |
      ⟨before, m, after, torn, missing, rfl, rfl, ht, he, rfl⟩
    · left
      exact ⟨before, after, rfl, by simp, rfl⟩
    · right
      exact ⟨before, m, after, torn, missing, rfl, by simp, ht, he, rfl⟩

/-! ## 2. Which records survive -/

/-- `kept` are the records at the front of `mappings` that are whole in `p`, up to the newline. -/
def Survivors (codec : RecordCodec) (network broadcast cursor : IpAddr)
    (mappings : List (IpAddr × Str)) (p : List UInt8) (kept : List (IpAddr × Str)) : Prop :=
  kept <+: mappings ∧ ∀ before m after, mappings = before ++ m :: after →
    (before.length < kept.length ↔
      journalText codec network broadcast cursor before ++ codec.encode (.mapping m.1 m.2) <+: p)

theorem length_journalText_append (before after : List (IpAddr × Str)) :
    (journalText codec network broadcast cursor (before ++ after)).length =
      (journalText codec network broadcast cursor before).length +
        (mappingLines codec after).length := by
  unfold journalText mappingLines
  simp only [List.flatMap_append, List.length_append]
  omega

/-- A record is whole in a prefix of the journal when the prefix is long enough. -/
theorem whole_iff_length {before after : List (IpAddr × Str)} {m : IpAddr × Str}
    {p rest : List UInt8}
    (h : journalText codec network broadcast cursor (before ++ m :: after) = p ++ rest) :
    journalText codec network broadcast cursor before ++ codec.encode (.mapping m.1 m.2) <+: p ↔
      (journalText codec network broadcast cursor (before ++ [m])).length ≤ p.length + 1 := by
  have hlen : (journalText codec network broadcast cursor (before ++ [m])).length =
      (journalText codec network broadcast cursor before ++
        codec.encode (.mapping m.1 m.2)).length + 1 := by
    rw [length_journalText_append]
    simp [mappingLines, recordLine]
    omega
  have hpre : journalText codec network broadcast cursor before ++
      codec.encode (.mapping m.1 m.2) <+: p ++ rest := by
    rw [← h]
    refine ⟨newline :: mappingLines codec after, ?_⟩
    unfold journalText mappingLines
    simp [recordLine]
  rw [hlen]
  constructor
  · intro hp
    have := hp.length_le
    omega
  · intro hle
    exact List.prefix_of_prefix_length_le hpre (List.prefix_append p rest) (by omega)

/-- The survivors are told by the length of the prefix alone. -/
theorem survivors_of_length {mappings kept lost : List (IpAddr × Str)} {p rest : List UInt8}
    (h : journalText codec network broadcast cursor mappings = p ++ rest)
    (hsplit : mappings = kept ++ lost)
    (hkept : (journalText codec network broadcast cursor kept).length ≤ p.length + 1)
    (hlost : ∀ m after, lost = m :: after →
      p.length + 1 < (journalText codec network broadcast cursor (kept ++ [m])).length) :
    Survivors codec network broadcast cursor mappings p kept := by
  refine ⟨⟨lost, hsplit.symm⟩, ?_⟩
  intro before m after hms
  have h' := h
  rw [hms] at h'
  rw [whole_iff_length h']
  rw [hsplit] at hms
  rcases List.append_eq_append_iff.mp hms with ⟨t, rfl, ht⟩ | ⟨t, rfl, ht⟩
  · -- the record stands behind the kept ones
    have hlong : p.length + 1 <
        (journalText codec network broadcast cursor (kept ++ t ++ [m])).length := by
      cases t with
      | nil =>
        rw [List.append_nil]
        exact hlost m after ht
      | cons m' t =>
        have hlt := hlost m' (t ++ m :: after) ht
        have e : kept ++ (m' :: t) ++ [m] = kept ++ [m'] ++ (t ++ [m]) := by simp
        rw [e, length_journalText_append]
        omega
    rw [List.length_append]
    omega
  · -- the record is one of the kept ones, or the first lost one
    cases t with
    | nil =>
      rw [List.append_nil] at hkept hlost ⊢
      have hlt := hlost m after ht.symm
      omega
    | cons m' t =>
      obtain ⟨rfl, rfl⟩ := List.cons.inj ht
      have e : before ++ m :: t = before ++ [m] ++ t := by simp
      rw [e, length_journalText_append] at hkept
      rw [List.length_append, List.length_cons]
      omega

theorem length_mappingLines_singleton (m : IpAddr × Str) :
    (mappingLines codec [m]).length = (codec.encode (.mapping m.1 m.2)).length + 1 := by
  simp [mappingLines, recordLine]

end Cut

/-! ## 3. Loading a cut journal -/

section Load

variable {v : VirtualDns} {cursor : IpAddr} {mappings before after : List (IpAddr × Str)}
  {m : IpAddr × Str} {p rest torn missing : List UInt8}

/-- **What is read from a cut journal**: exactly the whole records, and a torn one calls for a
    repair. Unless the cut is right before a newline, the file is repaired or ends with a line. -/
def ReadsWhole (codec : RecordCodec) (v : VirtualDns) (cursor : IpAddr)
    (mappings : List (IpAddr × Str)) (p rest : List UInt8) : Prop :=
  ∃ kept repair records, Survivors codec v.networkAddr v.broadcastAddr cursor mappings p kept ∧
    PersistentCache.loadLines codec v.networkAddr v.broadcastAddr (lines p) =
      (.loaded cursor kept repair, records) ∧
    (rest.head? ≠ some newline →
      repair = true ∨ p = journalText codec v.networkAddr v.broadcastAddr cursor kept)

theorem length_encode_pos (hc : codec.Lawful) (m : IpAddr × Str) :
    0 < (codec.encode (.mapping m.1 m.2)).length :=
  List.length_pos_iff.mpr (hc.nonempty _)

/-- A line that is not a record calls for a repair. -/
theorem loadMappings_torn (hdecode : codec.decode torn = none) (hne : torn ≠ []) (records : Nat)
    (kept : List (IpAddr × Str)) :
    loadMappings codec [if validUtf8 torn = true then some torn else none] records kept false =
      (records, kept, true) := by
  have hemp : torn.isEmpty = false := List.isEmpty_eq_false_iff.mpr hne
  by_cases hv : validUtf8 torn = true
  · simp [loadMappings, hv, hemp, hdecode]
  · simp [loadMappings, hv]

variable (hc : codec.Lawful)
  (hcur : addressInPool cursor v.networkAddr v.broadcastAddr = true)
  (h : journalText codec v.networkAddr v.broadcastAddr cursor mappings = p ++ rest)

include hc hcur h

/-- The header record without its newline. -/
theorem readsWhole_header
    (hp : p = codec.encode (.header CACHE_VERSION v.networkAddr v.broadcastAddr cursor))
    (hrest : rest = newline :: mappingLines codec mappings) :
    ReadsWhole codec v cursor mappings p rest := by
  have hlines : lines p = [some (codec.encode
      (.header CACHE_VERSION v.networkAddr v.broadcastAddr cursor))] := by
    rw [hp, lines_tail (hc.newline _) (hc.nonempty _), if_pos (hc.utf8 _)]
  refine ⟨[], false, 0, survivors_of_length h (List.nil_append _).symm ?_ ?_, ?_, ?_⟩
  · rw [hp]
    simp [journalText, recordLine, mappingLines]
  · intro m after' _
    rw [length_journalText_append, length_mappingLines_singleton, hp]
    simp [journalText, recordLine, mappingLines]
  · rw [hlines]
    unfold PersistentCache.loadLines headerCursor
    simp only [hc.decode_encode, hcur, and_self, if_true]
    rfl
  · exact fun hclean => absurd (congrArg List.head? hrest) hclean

/-- A cut between two lines. -/
theorem readsWhole_between (hms : mappings = before ++ after)
    (hp : p = journalText codec v.networkAddr v.broadcastAddr cursor before) :
    ReadsWhole codec v cursor mappings p rest := by
  obtain ⟨records, hload⟩ := (readable_journalText hc hcur before).loads
  refine ⟨before, false, records, survivors_of_length h hms ?_ ?_, ?_, fun _ => Or.inr hp⟩
  · rw [hp]
    omega
  · intro m after' _
    rw [length_journalText_append, length_mappingLines_singleton, hp]
    have := length_encode_pos hc m
    omega
  · rw [hp]
    exact hload

/-- A cut behind a whole record whose newline is missing: its line is read as any other. -/
theorem readsWhole_unended (hms : mappings = before ++ m :: after)
    (hp : p = journalText codec v.networkAddr v.broadcastAddr cursor before ++
      codec.encode (.mapping m.1 m.2))
    (hrest : rest = newline :: mappingLines codec after) :
    ReadsWhole codec v cursor mappings p rest := by
  obtain ⟨records, hload⟩ :=
    (readable_journalText hc hcur before).loads_append (codec.encode (.mapping m.1 m.2))
  rw [← hp, lines_tail (hc.newline _) (hc.nonempty _), if_pos (hc.utf8 _)] at hload
  obtain ⟨n, hn⟩ := loadMappings_encoded hc [m] records before false
  rw [List.map_singleton] at hn
  rw [hn] at hload
  have hsplit : mappings = (before ++ [m]) ++ after := by
    rw [hms, List.append_assoc]
    rfl
  refine ⟨before ++ [m], false, n, survivors_of_length h hsplit ?_ ?_, hload, ?_⟩
  · rw [length_journalText_append, length_mappingLines_singleton, hp, List.length_append]
    omega
  · intro m' after' _
    rw [length_journalText_append, length_journalText_append, length_mappingLines_singleton,
      length_mappingLines_singleton, hp, List.length_append]
    have := length_encode_pos hc m'
    omega
  · exact fun hclean => absurd (congrArg List.head? hrest) hclean

/-- A cut inside a record. -/
theorem readsWhole_torn (htorn : codec.TornUnreadable)
    (hms : mappings = before ++ m :: after)
    (hp : p = journalText codec v.networkAddr v.broadcastAddr cursor before ++ torn)
    (hne : torn ≠ []) (henc : codec.encode (.mapping m.1 m.2) = torn ++ missing)
    (hmissing : missing ≠ []) : ReadsWhole codec v cursor mappings p rest := by
  have hnl : newline ∉ torn := fun hm =>
    hc.newline (.mapping m.1 m.2) (henc ▸ List.mem_append_left _ hm)
  obtain ⟨records, hload⟩ := (readable_journalText hc hcur before).loads_append torn
  rw [← hp, lines_tail hnl hne,
    loadMappings_torn (htorn _ torn missing henc hmissing) hne] at hload
  have hlen : (codec.encode (.mapping m.1 m.2)).length = torn.length + missing.length := by
    rw [henc, List.length_append]
  have hpos : 0 < missing.length := List.length_pos_iff.mpr hmissing
  refine ⟨before, true, records, survivors_of_length h hms ?_ ?_, hload, fun _ => Or.inl rfl⟩
  · rw [hp, List.length_append]
    omega
  · intro m' after' he
    obtain ⟨rfl, -⟩ := List.cons.inj he
    rw [length_journalText_append, length_mappingLines_singleton, hlen, hp, List.length_append]
    omega

/-- Wherever the cut falls behind the header record. -/
theorem loadLines_cut (htorn : codec.TornUnreadable)
    (hheader : codec.encode (.header CACHE_VERSION v.networkAddr v.broadcastAddr cursor) <+: p) :
    ReadsWhole codec v cursor mappings p rest := by
  rcases journalText_cut h hheader with ⟨hp, hrest⟩ | ⟨before, after, hms, hp, -⟩ |
    ⟨before, m, after, torn, missing, hms, hp, hne, henc, hrest⟩
  · exact readsWhole_header hc hcur h hp hrest
  · exact readsWhole_between hc hcur h hms hp
  · by_cases hmissing : missing = []
    · subst hmissing
      rw [List.append_nil] at henc
      subst henc
      exact readsWhole_unended hc hcur h hms hp hrest
    · exact readsWhole_torn hc hcur h htorn hms hp hne henc hmissing

end Load

/-! ## 4. A process on a cut journal -/

section Run

variable {pool : IpCidr} {path : Str} {w w' : World}

theorem live_run (hc : codec.Lawful) (h : Live codec pool path w)
    (hr : Relation.ReflTransGen (ServeNamed codec) w w') : Live codec pool path w' := by
  induction hr with
  | refl => exact h
  | tail _ hs ih => exact live_serveNamed hc ih hs

/-- What the further calls leave is a live journal, and that is loaded as it is. -/
theorem live_reloaded (hc : codec.Lawful) (h : Live codec pool path w)
    (hr : Relation.ReflTransGen (ServeNamed codec) w w') {d : Disk} (hq : d.Quiet)
    (hfile : d.files path = w'.disk.files path) :
    ∃ dns d', World.enablePersistence codec path ⟨VirtualDns.new pool, d⟩ =
        .ok dns.lruCache.len ⟨dns, d'⟩ ∧
      ∀ ip, dns.lruCache.peek ip = w'.dns.lruCache.peek ip := by
  obtain ⟨_, _, dns, d', hok, -, -, -, -, -, htable, -⟩ := (live_run hc h hr).reload hq hfile
  exact ⟨dns, d', hok, congrFun htable⟩

/-- **A torn tail is recovered.** A process that loads a prefix of the journal with the whole
    header record restores exactly the whole records. Unless the cut is right before a newline, a
    third process that loads what the second one left, after any further calls, has the second
    one's table. -/
theorem tornTail_recovered (hc : codec.Lawful) (htorn : codec.TornUnreadable)
    (h : JournalRun codec pool path true w) :
    ∃ cursor mappings,
      w.disk.files path = some (journalText codec pool.firstAddress pool.lastAddress cursor
        mappings) ∧
      ∀ p rest, journalText codec pool.firstAddress pool.lastAddress cursor mappings = p ++ rest →
        codec.encode (.header CACHE_VERSION pool.firstAddress pool.lastAddress cursor) <+: p →
        ∀ d : Disk, d.Quiet → d.files path = some p →
        ∃ kept n w₁,
          World.enablePersistence codec path ⟨VirtualDns.new pool, d⟩ = .ok n w₁ ∧
          Survivors codec pool.firstAddress pool.lastAddress cursor mappings p kept ∧
          (∀ ip, w₁.dns.lruCache.peek ip =
            Replay.replay ((VirtualDns.new pool).restored kept) ip) ∧
          (rest.head? ≠ some newline →
            ∀ w₂, Relation.ReflTransGen (ServeNamed codec) w₁ w₂ →
            ∀ d₃ : Disk, d₃.Quiet → d₃.files path = w₂.disk.files path →
            ∃ dns d', World.enablePersistence codec path ⟨VirtualDns.new pool, d₃⟩ =
                .ok dns.lruCache.len ⟨dns, d'⟩ ∧
              ∀ ip, dns.lruCache.peek ip = w₂.dns.lruCache.peek ip) := by
  have hlive : Live codec pool path w := journalRun_invariant hc h
  obtain ⟨cursor, mappings, htext, -, hms, hcursor, -⟩ := hlive.file
  unfold World.Holds at htext
  rw [hlive.table.network, hlive.table.broadcast] at htext
  rw [← hlive.table.settings.restorable] at hms
  have hnew := FakeIpTable.new pool
  have hcur := (hnew.contains_iff cursor).mp hcursor
  refine ⟨cursor, mappings, htext, ?_⟩
  intro p rest hcut hheader d hq hfile
  obtain ⟨kept, repair, records, hsurv, hload, hclean⟩ :=
    loadLines_cut hc hcur hcut htorn hheader
  have hkept : ∀ m ∈ kept, (VirtualDns.new pool).restorable m = true :=
    fun m hm => hms m (hsurv.1.subset hm)
  obtain ⟨dns, d₁, -, hf, hq₁, ht, hs, hset, -, hpeek, -, hres⟩ :=
    enablePersistence_loaded (w := ⟨VirtualDns.new pool, d⟩) hnew hq hfile hload
  have hall : kept.all (VirtualDns.new pool).restorable = true := List.all_eq_true.mpr hkept
  rw [show kept.all (World.mk (VirtualDns.new pool) d).dns.restorable = true from hall] at hres
  rcases hres with ⟨hnone, hok⟩ | ⟨-, w₁, hok, hrw⟩
  · refine ⟨kept, _, _, hok, hsurv, congrFun hpeek, fun hnl => ?_⟩
    have hrepair : repair = false := by simpa using hnone
    have hp := (hclean hnl).resolve_left (by rw [hrepair]; exact Bool.false_ne_true)
    have hun : Unjournaled codec pool path ⟨VirtualDns.new pool, d⟩ := by
      exact ⟨hnew, nofun, hq, rfl,
        Or.inr ⟨cursor, kept, hfile.trans (congrArg some hp), hkept, hcursor⟩⟩
    have hl := enablePersistence_live hc hun
    rw [hok] at hl
    exact fun w₂ hr d₃ hq₃ hf₃ => live_reloaded hc hl hr hq₃ hf₃
  · have ht₁ : FakeIpTable pool w₁.dns := hrw.dns ▸ ht.journaled _
    have hs₁ : w₁.dns.Storable := hrw.dns ▸ hs
    exact ⟨kept, _, w₁, hok, hsurv, hrw.dns ▸ congrFun hpeek, fun _ w₂ hr d₃ hq₃ hf₃ =>
      live_reloaded hc (live_of_rewritten hc hrw ht₁ hs₁ hq₁) hr hq₃ hf₃⟩

end Run

end Codec

/-! ## 5. The cut before a newline -/

theorem Json.jsonCodec_tornUnreadable : Json.jsonCodec.TornUnreadable := by
  intro r torn missing h hne
  cases hd : Json.jsonCodec.decode torn with
  | none => rfl
  | some r' =>
    rw [← Json.encode_of_decode hd] at h
    exact absurd (Json.encode_prefixFree h).2 hne

/-- A text starts with at most one record. -/
theorem Json.record_unique {r r' : CacheRecord} {text : List UInt8}
    (h : Json.jsonCodec.encode r <+: text) (h' : Json.jsonCodec.encode r' <+: text) : r = r' := by
  rcases List.prefix_or_prefix_of_prefix h h' with ⟨t, ht⟩ | ⟨t, ht⟩
  · exact (Json.encode_prefixFree ht.symm).1.symm
  · exact (Json.encode_prefixFree ht.symm).1

theorem encode_prefix_recordLine (r : CacheRecord) (rest : List UInt8) :
    Json.jsonCodec.encode r <+: recordLine Json.jsonCodec r ++ rest :=
  ⟨newline :: rest, by simp [recordLine]⟩

def sampleHeader : CacheRecord :=
  .header CACHE_VERSION samplePool.firstAddress samplePool.lastAddress sampleIp

theorem serveNamed_allocate {name : Str} {w : World} {ip : IpAddr}
    (hne : w.dns.canonicalName name ≠ []) (hlen : (w.dns.canonicalName name).len ≤ 253)
    (h : (World.findOrAllocateIp Json.jsonCodec 4 name w).bind returned = some ip) :
    ServeNamed Json.jsonCodec w (allocate name w) :=
  .allocate hne hlen (findOrAllocateIp_allocate h)

/-- The sample resolver with its first name. -/
def sampleNamed : World := allocate sampleName sampleStart

theorem sampleNamed_run : JournalRun Json.jsonCodec samplePool samplePath true sampleNamed :=
  sampleStart_journalRun.serve
    (serveNamed_allocate (by decide) (by decide) (by decide +kernel : _ = some sampleIp))

/-- Its journal without the last newline. -/
def sampleCut : List UInt8 :=
  recordLine Json.jsonCodec sampleHeader ++ Json.jsonCodec.encode (.mapping sampleIp sampleName)

set_option maxRecDepth 8000 in
theorem sampleNamed_file : sampleNamed.disk.files samplePath = some (sampleCut ++ [newline]) := by
  rw [show sampleNamed.disk.files samplePath = some (journalText Json.jsonCodec
    samplePool.firstAddress samplePool.lastAddress sampleIp [(sampleIp, sampleName)]) from rfl]
  simp [journalText, sampleCut, mappingLines, recordLine, sampleHeader]

/-- A journal of a header and one more line: the line is a record, or a repair is called for. -/
theorem loadLines_oneLine {codec : RecordCodec} (hc : codec.Lawful)
    {network broadcast cursor : IpAddr} (hcur : addressInPool cursor network broadcast = true)
    {line : List UInt8} (hne : line ≠ []) :
    PersistentCache.loadLines codec network broadcast
        [some (codec.encode (.header CACHE_VERSION network broadcast cursor)), some line] =
      match codec.decode line with
      | some (.mapping ip name) => (.loaded cursor [(ip, name)] false, codec.saturatingAdd 0 1)
      | _ => (.loaded cursor [] true, 0) := by
  have hne : line.isEmpty = false := List.isEmpty_eq_false_iff.mpr hne
  unfold PersistentCache.loadLines headerCursor
  simp only [hc.decode_encode, hcur, and_self, if_true, loadMappings, hne, Bool.false_eq_true,
    if_false, List.nil_append]
  cases codec.decode line with
  | none => rfl
  | some r => cases r <;> rfl

theorem sampleIp_inPool :
    addressInPool sampleIp samplePool.firstAddress samplePool.lastAddress = true := by
  decide

/-- Its one record is read, and nothing is to be repaired. -/
theorem loadLines_sampleCut :
    PersistentCache.loadLines Json.jsonCodec samplePool.firstAddress samplePool.lastAddress
      (lines sampleCut) = (.loaded sampleIp [(sampleIp, sampleName)] false, 1) := by
  have hc := Json.jsonCodec_lawful
  have hlines : lines sampleCut = [some (Json.jsonCodec.encode sampleHeader),
      some (Json.jsonCodec.encode (.mapping sampleIp sampleName))] := by
    unfold sampleCut
    rw [lines_recordLine hc, lines_tail (hc.newline _) (hc.nonempty _), if_pos (hc.utf8 _)]
  rw [hlines, sampleHeader, loadLines_oneLine hc sampleIp_inPool (hc.nonempty _),
    hc.decode_encode]
  rfl

/-- Two records on one line are read as none, and a repair is called for. -/
theorem loadLines_glued (ip : IpAddr) (name : Str) :
    PersistentCache.loadLines Json.jsonCodec samplePool.firstAddress samplePool.lastAddress
      (lines (sampleCut ++ recordLine Json.jsonCodec (.mapping ip name))) =
        (.loaded sampleIp [] true, 0) := by
  have hc := Json.jsonCodec_lawful
  have hglued : ∀ line, line = Json.jsonCodec.encode (.mapping sampleIp sampleName) ++
      Json.jsonCodec.encode (.mapping ip name) → Json.jsonCodec.decode line = none := by
    intro line hline
    cases hd : Json.jsonCodec.decode line with
    | none => rfl
    | some r =>
      rw [← Json.encode_of_decode hd] at hline
      exact absurd (Json.encode_prefixFree hline).2 (hc.nonempty _)
  have hlines : lines (sampleCut ++ recordLine Json.jsonCodec (.mapping ip name)) =
      [some (Json.jsonCodec.encode sampleHeader),
        some (Json.jsonCodec.encode (.mapping sampleIp sampleName) ++
          Json.jsonCodec.encode (.mapping ip name))] := by
    have hsplit : sampleCut ++ recordLine Json.jsonCodec (.mapping ip name) =
        recordLine Json.jsonCodec sampleHeader ++
          ((Json.jsonCodec.encode (.mapping sampleIp sampleName) ++
            Json.jsonCodec.encode (.mapping ip name)) ++ newline :: []) := by
      simp [sampleCut, recordLine]
    rw [hsplit, lines_recordLine hc, lines_cons]
    · rfl
    · simp [hc.newline]
    · simp [hc.carriageReturn]
    · exact validUtf8_append (hc.utf8 _) (hc.utf8 _)
  have hne : Json.jsonCodec.encode (.mapping sampleIp sampleName) ++
      Json.jsonCodec.encode (.mapping ip name) ≠ [] := by
    simp [hc.nonempty]
  rw [hlines, sampleHeader, loadLines_oneLine hc sampleIp_inPool hne, hglued _ rfl]

/-- A process that starts on them has no mapping. -/
theorem start_on_glued {d : Disk} {ip : IpAddr} {name : Str} (hq : d.Quiet)
    (hfile : d.files samplePath =
      some (sampleCut ++ recordLine Json.jsonCodec (.mapping ip name))) :
    ∃ n w, World.enablePersistence Json.jsonCodec samplePath ⟨VirtualDns.new samplePool, d⟩ =
        .ok n w ∧ ∀ ip, w.dns.lruCache.peek ip = none := by
  obtain ⟨dns, d', -, -, -, -, -, -, -, hpeek, -, hres⟩ :=
    enablePersistence_loaded (w := ⟨VirtualDns.new samplePool, d⟩) (FakeIpTable.new samplePool)
      hq hfile (loadLines_glued ip name)
  obtain ⟨-, w, hok, hrw⟩ := hres.resolve_left fun hr => by cases hr.1
  exact ⟨_, w, hok, hrw.dns ▸ congrFun hpeek⟩

/-- The disk with this journal. -/
def diskWith (journal : List UInt8) : Disk := sampleDisk.setFile samplePath (some journal)

/-- A process that has loaded the journal without its last newline. -/
def cutLoaded : World :=
  ⟨{ (VirtualDns.new samplePool).bindMapping sampleIp sampleName with
      nextAddr := sampleIp, persistence := some ⟨samplePath, 1, false⟩ }, diskWith sampleCut⟩

theorem cutLoaded_eq : World.enablePersistence Json.jsonCodec samplePath
    ⟨VirtualDns.new samplePool, diskWith sampleCut⟩ = .ok 1 cutLoaded := by
  have hopen : Disk.openFile samplePath (diskWith sampleCut) = .ok sampleCut (diskWith sampleCut) :=
    rfl
  exact World.enablePersistence_restores (v := VirtualDns.new samplePool) hopen loadLines_sampleCut

/-- It is asked for another name. -/
def cutServed : World := allocate "b.example".toList cutLoaded

/-- **A cut right before a newline loses mappings.** The journal of one process is left without
    its last newline. A second process restores the record, allocates another name and appends it
    to the open line; a third process restores neither of the two. -/
theorem tornTail_loses_mappings :
    ∃ w, JournalRun Json.jsonCodec samplePool samplePath true w ∧
      w.disk.files samplePath = some (sampleCut ++ [newline]) ∧
      Json.jsonCodec.encode sampleHeader <+: sampleCut ∧
      ∃ d n w₁ w₂ n₃ w₃, d.Quiet ∧ d.files samplePath = some sampleCut ∧
        World.enablePersistence Json.jsonCodec samplePath ⟨VirtualDns.new samplePool, d⟩ =
          .ok n w₁ ∧
        w₁.dns.lruCache.peek sampleIp = some sampleName ∧
        ServeNamed Json.jsonCodec w₁ w₂ ∧
        w₂.dns.lruCache.peek sampleIp = some sampleName ∧
        World.enablePersistence Json.jsonCodec samplePath
          ⟨VirtualDns.new samplePool, w₂.disk⟩ = .ok n₃ w₃ ∧
        ∀ ip, w₃.dns.lruCache.peek ip = none := by
  have hheader : Json.jsonCodec.encode sampleHeader <+: sampleCut :=
    encode_prefix_recordLine sampleHeader (Json.jsonCodec.encode (.mapping sampleIp sampleName))
  have hcut : (diskWith sampleCut).files samplePath = some sampleCut := Disk.setFile_self ..
  have hserved : ServeNamed Json.jsonCodec cutLoaded cutServed :=
    serveNamed_allocate (by decide) (by decide)
      (by decide +kernel : _ = some samplePool.firstAddress)
  have hfile : cutServed.disk.files samplePath = some (sampleCut ++ recordLine Json.jsonCodec
      (.mapping samplePool.firstAddress "b.example".toList)) := by decide +kernel
  obtain ⟨n₃, w₃, hok₃, hnone⟩ := start_on_glued (show _ = [] by decide +kernel) hfile
  exact ⟨sampleNamed, sampleNamed_run, sampleNamed_file, hheader, diskWith sampleCut, 1, cutLoaded,
    cutServed, n₃, w₃, rfl, hcut, cutLoaded_eq, by decide, hserved, by decide +kernel, hok₃, hnone⟩

/-- The sample journal, cut inside its last record. -/
def sampleTorn : List UInt8 := sampleCut.take 150

/-- A second process loads the torn journal and gives `b.example` an address; a third one finds the
    name there. -/
theorem sample_tornTail_recovered :
    sampleNamed.disk.files samplePath = some (sampleTorn ++ (sampleCut.drop 150 ++ [newline])) ∧
      ∃ n w₁ ip w₂ d₃ dns d', World.enablePersistence Json.jsonCodec samplePath
          ⟨VirtualDns.new samplePool, diskWith sampleTorn⟩ = .ok n w₁ ∧
        World.findOrAllocateIp Json.jsonCodec w₁.size "b.example".toList w₁ = some (.ok ip w₂) ∧
        d₃.files = w₂.disk.files ∧
        World.enablePersistence Json.jsonCodec samplePath ⟨VirtualDns.new samplePool, d₃⟩ =
          .ok dns.lruCache.len ⟨dns, d'⟩ ∧
        dns.lruCache.peek ip = some "b.example".toList := by
  have hwhole := sampleNamed_file
  rw [← List.take_append_drop 150 sampleCut, List.append_assoc] at hwhole
  obtain ⟨cursor, mappings, hfile, hcuts⟩ :=
    tornTail_recovered Json.jsonCodec_lawful Json.jsonCodec_tornUnreadable sampleNamed_run
  have htext := Option.some.inj (hfile.symm.trans hwhole)
  have hheader : Json.jsonCodec.encode (.header CACHE_VERSION samplePool.firstAddress
      samplePool.lastAddress cursor) <+: sampleTorn := by
    have hfirst := encode_prefix_recordLine (.header CACHE_VERSION samplePool.firstAddress
      samplePool.lastAddress cursor) (mappingLines Json.jsonCodec mappings)
    rw [← journalText, htext] at hfirst
    have hsample : Json.jsonCodec.encode sampleHeader <+: sampleTorn := by decide +kernel
    rwa [Json.record_unique hfirst (hsample.trans (List.prefix_append _ _))]
  obtain ⟨kept, n, w₁, hok, -, -, hthird⟩ :=
    hcuts sampleTorn _ htext hheader (diskWith sampleTorn) rfl (Disk.setFile_self ..)
  have htable : FakeIpTable samplePool w₁.dns := by
    have h := reachable_fakeIpTable Json.jsonCodec
      (Reachable.step (.new (diskWith sampleTorn))
        (.enable ⟨VirtualDns.new samplePool, _⟩ samplePath))
    rwa [hok] at h
  have hcanon : w₁.dns.canonicalName "b.example".toList = "b.example".toList := by
    rw [VirtualDns.canonicalName, htable.dot]
    decide
  rcases World.findOrAllocateIp_cases Json.jsonCodec htable w₁.size "b.example".toList with
    ⟨-, hlt⟩ | ⟨ip, w₂, hallocated, hal⟩
  · exact absurd hlt (lt_irrefl _)
  · have hserved : ServeNamed Json.jsonCodec w₁ w₂ :=
      .allocate (by rw [hcanon]; decide) (by rw [hcanon]; decide) hallocated
    obtain ⟨dns, d', hok₃, hsame⟩ := hthird (by decide +kernel) w₂ (.single hserved)
      { w₂.disk with plan := [] } rfl rfl
    refine ⟨hwhole, n, w₁, ip, w₂, { w₂.disk with plan := [] }, dns, d', hok, hallocated, rfl, hok₃,
      (hsame ip).trans ?_⟩
    exact (hal.peek Json.jsonCodec htable ip).trans ((if_pos rfl).trans (congrArg some hcanon))

end Tun2Proxy
