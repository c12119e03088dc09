/-
  File:      Tun2Proxy/VirtualDns/Growth.lean
  Subject:   How long the journal gets (`append_mapping`, `should_compact` and `rewrite` of
             src/virtual_dns/persistence.rs, `persist_mapping` of src/virtual_dns.rs).

  `journal_records` counts the mapping records of the file without looking at the file: `load` and
  `rewrite` set it, an append adds one. When 1024 records or more exceed the live mappings, and all
  of them are at least twice the live mappings, the file is rewritten from the table.

  * `mappingRecords` is the count that the file gives, and `Counted` says that a clean cache has it.
    Every call keeps this, whatever fails (`counted_serveAny`): what fails leaves the cache dirty,
    and a dirty cache is rewritten.
  * Start-up keeps it on a journal of the pool, and when its rewrite succeeds. If the journal is one
    of another pool and cannot be replaced, the count is zero and the records stay
    (`foreign_records_uncounted`).
  * **`journal_bounded`**: after a mapping was persisted, the count is right and the file has at
    most `max (live + 1023) (2 * live - 1)` mapping records.

  The counter saturates at `usize::MAX`, so the results speak of a file whose length is a `usize`.
-/
import Tun2Proxy.VirtualDns.Faults

namespace Tun2Proxy

open Lines

section Codec

variable {codec : RecordCodec}

/-! ## 1. The mapping records of a file -/

/-- The lines that `load` takes for mappings. -/
def isMapping (codec : RecordCodec) : Option (List UInt8) → Bool
  | some line => !line.isEmpty &&
      match codec.decode line with
      | some (.mapping _ _) => true
      | _ => false
  | none => false

def mappingRecords (codec : RecordCodec) (bytes : List UInt8) : Nat :=
  (lines bytes).countP (isMapping codec)

/-- A header, then mappings, each with its newline. -/
structure WellFormed (codec : RecordCodec) (bytes : List UInt8) : Prop where
  terminated : Terminated bytes
  records : ∃ line rest version network broadcast cursor,
    lines bytes = some line :: rest ∧
    codec.decode line = some (.header version network broadcast cursor) ∧
    ∀ l ∈ rest, isMapping codec l = true

theorem isMapping_encode (hc : codec.Lawful) (ip : IpAddr) (name : Str) :
    isMapping codec (some (codec.encode (.mapping ip name))) = true := by
  have hne : (codec.encode (.mapping ip name)).isEmpty = false :=
    List.isEmpty_eq_false_iff.mpr (hc.nonempty _)
  simp only [isMapping, hne, hc.decode_encode, Bool.not_false, Bool.and_self]

theorem isMapping_of_header {line : List UInt8} {version : UInt8}
    {network broadcast cursor : IpAddr}
    (h : codec.decode line = some (.header version network broadcast cursor)) :
    isMapping codec (some line) = false := by
  simp only [isMapping, h, Bool.and_false]

theorem mappingRecords_le (bytes : List UInt8) : mappingRecords codec bytes ≤ bytes.length :=
  calc mappingRecords codec bytes ≤ (lines bytes).length := List.countP_le_length
    _ = (Lines.segments bytes).length := List.length_map _
    _ ≤ bytes.length := length_segments_le bytes

theorem mappingRecords_append (hc : codec.Lawful) {bytes : List UInt8} (h : Terminated bytes)
    (ip : IpAddr) (name : Str) :
    mappingRecords codec (bytes ++ recordLine codec (.mapping ip name)) =
      mappingRecords codec bytes + 1 := by
  unfold mappingRecords
  rw [lines_append h, lines_oneRecord hc, List.countP_append]
  exact congrArg _ (List.countP_cons_of_pos (isMapping_encode hc ip name))

/-- What a rewrite writes is well formed. -/
theorem wellFormed_journalText (hc : codec.Lawful) (network broadcast cursor : IpAddr)
    (mappings : List (IpAddr × Str)) :
    WellFormed codec (journalText codec network broadcast cursor mappings) := by
  exact ⟨terminated_journalText _ _ _ _, _, _, _, _, _, _, lines_journalText hc _ _ _ _,
    hc.decode_encode _, List.forall_mem_map.mpr fun m _ => isMapping_encode hc m.1 m.2⟩

/-- A journal of another network is none of this pool. -/
theorem loadLines_otherNetwork (hc : codec.Lawful) {network network' : IpAddr}
    (hne : network' ≠ network) (broadcast broadcast' cursor : IpAddr)
    (mappings : List (IpAddr × Str)) :
    PersistentCache.loadLines codec network broadcast
      (lines (journalText codec network' broadcast' cursor mappings)) = (.incompatible, 0) := by
  unfold PersistentCache.loadLines headerCursor
  simp only [lines_journalText hc, hc.decode_encode, hne, false_and, and_false, if_false]

theorem mappingRecords_journalText (hc : codec.Lawful) (network broadcast cursor : IpAddr)
    (mappings : List (IpAddr × Str)) :
    mappingRecords codec (journalText codec network broadcast cursor mappings) =
      mappings.length := by
  have hheader := isMapping_of_header
    (hc.decode_encode (.header CACHE_VERSION network broadcast cursor))
  have hall : ∀ l ∈ mappings.map fun m => some (codec.encode (.mapping m.1 m.2)),
      isMapping codec l = true := List.forall_mem_map.mpr fun m _ => isMapping_encode hc m.1 m.2
  unfold mappingRecords
  rw [lines_journalText hc, List.countP_cons_of_neg (by rw [hheader]; exact Bool.false_ne_true),
    List.countP_eq_length.mpr hall, List.length_map]

/-! ## 2. The counter -/

/-- One record more. -/
theorem saturatingAdd_min (n : Nat) :
    codec.saturatingAdd (min n codec.usizeMax) 1 = min (n + 1) codec.usizeMax := by
  unfold RecordCodec.saturatingAdd
  omega

/-- **What `load` counts** are the mapping records of lines that are all text. -/
theorem loadMappings_records {ls : List (Option (List UInt8))} (hn : none ∉ ls) :
    ∀ (n : Nat) (mappings : List (IpAddr × Str)) (repair : Bool),
      (loadMappings codec ls (min n codec.usizeMax) mappings repair).1 =
        min (n + ls.countP (isMapping codec)) codec.usizeMax := by
  induction ls with
  | nil => exact fun _ _ _ => rfl
  | cons l ls ih =>
    intro n mappings repair
    have ih := ih fun hm => hn (List.mem_cons_of_mem _ hm)
    cases l with
    | none => exact absurd List.mem_cons_self hn
    | some line =>
      rw [loadMappings]
      split
      · next hempty =>
          have hnot : ¬ isMapping codec (some line) = true := by simp [isMapping, hempty]
          rw [List.countP_cons_of_neg hnot]
          exact ih n mappings true
      · next hne =>
          split
          · next ip name hdecode =>
              have hyes : isMapping codec (some line) = true := by
                simp [isMapping, hne, hdecode]
              rw [List.countP_cons_of_pos hyes, saturatingAdd_min, ih (n + 1)]
              congr 1
              omega
          · next hother =>
              have hnot : ¬ isMapping codec (some line) = true := by
                intro hyes
                obtain ⟨-, hyes⟩ := Bool.and_eq_true_iff.mp hyes
                cases hdecode : codec.decode line with
                | none => simp only [hdecode, Bool.false_eq_true] at hyes
                | some record =>
                  cases record with
                  | header => simp only [hdecode, Bool.false_eq_true] at hyes
                  | mapping ip name => exact hother ip name hdecode
              rw [List.countP_cons_of_neg hnot]
              exact ih n mappings true

theorem loadLines_records {network broadcast cursor : IpAddr} {bytes : List UInt8}
    {mappings : List (IpAddr × Str)} {repair : Bool} {records : Nat} (htext : none ∉ lines bytes)
    (h : PersistentCache.loadLines codec network broadcast (lines bytes) =
      (.loaded cursor mappings repair, records)) :
    records = min (mappingRecords codec bytes) codec.usizeMax := by
  unfold PersistentCache.loadLines at h
  unfold mappingRecords
  cases hlines : lines bytes with
  | nil =>
    rw [hlines] at h
    cases h
  | cons l rest =>
    rw [hlines] at h htext
    cases l with
    | none => exact absurd List.mem_cons_self htext
    | some line =>
      cases hcursor : headerCursor codec network broadcast line with
      | none =>
        simp only [hcursor] at h
        cases h
      | some c =>
        -- a line with a cursor is a header, and the count starts after it
        have hheader : isMapping codec (some line) = false := by
          unfold headerCursor at hcursor
          split at hcursor
          · next version net bc cur hdecode => exact isMapping_of_header hdecode
          · cases hcursor
        have hrest : none ∉ rest := fun hm => htext (List.mem_cons_of_mem _ hm)
        have hcount : (loadMappings codec rest (min 0 codec.usizeMax) [] false).1 = _ :=
          loadMappings_records hrest 0 [] false
        simp only [hcursor, Prod.mk.injEq] at h
        rw [List.countP_cons_of_neg (by rw [hheader]; exact Bool.false_ne_true), ← h.2]
        rw [Nat.zero_min, Nat.zero_add] at hcount
        exact hcount

theorem foldl_saturatingAdd (codec : RecordCodec) {α : Type} (xs : List α) : ∀ n : Nat,
    xs.foldl (fun n _ => codec.saturatingAdd n 1) (min n codec.usizeMax) =
      min (n + xs.length) codec.usizeMax := by
  induction xs with
  | nil => exact fun _ => rfl
  | cons x xs ih =>
    intro n
    rw [List.foldl_cons, saturatingAdd_min, ih, List.length_cons]
    congr 1
    omega

/-- A rewrite counts the live mappings. -/
theorem VirtualDns.recordCount_eq (v : VirtualDns) :
    v.recordCount codec = min v.lruCache.len codec.usizeMax := by
  have h := foldl_saturatingAdd codec v.lruCache.iter 0
  rw [Nat.zero_min, Nat.zero_add, LruCache.length_iter] at h
  exact h

/-- No compaction is due. -/
def Compact (records live : Nat) : Prop :=
  records - live < COMPACT_STALE_RECORDS ∨ records < 2 * live

theorem compact_of_shouldCompact {p : PersistentCache} {live : Nat}
    (h : p.shouldCompact codec live = false) : Compact p.journalRecords live := by
  unfold PersistentCache.shouldCompact RecordCodec.saturatingMul at h
  simp only [Bool.and_eq_false_iff, decide_eq_false_iff_not] at h
  unfold Compact
  omega

theorem Compact.le {records live : Nat} (h : Compact records live) :
    records ≤ max (live + 1023) (2 * live - 1) := by
  unfold Compact COMPACT_STALE_RECORDS at h
  omega

/-! ## 3. What a clean cache counts -/

namespace World

/-- The file at `path` is there, made of whole lines, and has this many mapping records. -/
def Counts (codec : RecordCodec) (path : Str) (w : World) (records : Nat) : Prop :=
  ∃ bytes, w.disk.files path = some bytes ∧ Terminated bytes ∧
    records = min (mappingRecords codec bytes) codec.usizeMax

/-- **The invariant**: a clean cache has no file, an empty one, or the count of the file. -/
def Counted (codec : RecordCodec) (path : Str) (w : World) : Prop :=
  ∀ p, w.dns.persistence = some p → p.path = path ∧
    (p.dirty = false → w.disk.files path = none ∨ w.disk.files path = some [] ∨
      w.Counts codec path p.journalRecords)

section Calls

variable {path : Str} {w w' : World} {p : PersistentCache}

theorem Counted.of_same (h : w.Counted codec path) (hp : w'.dns.persistence = w.dns.persistence)
    (hdisk : w'.disk = w.disk) : w'.Counted codec path := by
  unfold Counted Counts
  rw [hp, hdisk]
  exact h

theorem Rewritten.counts (hc : codec.Lawful) (h : Rewritten codec path w w') :
    w'.Counts codec path (w.dns.recordCount codec) := by
  refine ⟨_, h.file, terminated_journalText _ _ _ _, ?_⟩
  rw [mappingRecords_journalText hc, LruCache.length_iter]
  exact w.dns.recordCount_eq

theorem Rewritten.counted (hc : codec.Lawful) (h : Rewritten codec path w w') :
    w'.Counted codec path := by
  intro p hp
  rw [h.dns] at hp
  cases hp
  exact ⟨rfl, fun _ => .inr (.inr (h.counts hc))⟩

theorem LeftDirty.counted (h : LeftDirty path w w') : w'.Counted codec path := by
  intro p hp
  obtain ⟨records, hdns⟩ := h.dns
  rw [hdns] at hp
  cases hp
  exact ⟨rfl, nofun⟩

/-- An append is made to a file that is there, and the count goes along. -/
theorem Appended.counts (hc : codec.Lawful) (hw : w.Counted codec path)
    (hp : w.dns.persistence = some p) {ip : IpAddr} {name : Str}
    (h : Appended codec p ip name w w') :
    w'.Counts codec path (codec.saturatingAdd p.journalRecords 1) := by
  obtain ⟨rfl, hclean⟩ := hw p hp
  obtain ⟨bytes, hbytes, hne, hfile⟩ := h.file
  rcases hclean h.clean with hnone | hempty | ⟨bytes', hbytes', hterm, hcount⟩
  · cases hbytes.symm.trans hnone
  · cases hbytes.symm.trans hempty
    exact absurd rfl hne
  · cases hbytes.symm.trans hbytes'
    refine ⟨_, hfile, hterm.append (terminated_append_newline _), ?_⟩
    rw [mappingRecords_append hc hterm, hcount, saturatingAdd_min]

/-- **`persist_mapping` counts and compacts.** If it leaves the cache clean, the count is that of
    the file and no compaction is due. -/
theorem Counted.persistMapping (hc : codec.Lawful) (hw : w.Counted codec path) (ip : IpAddr)
    (name : Str) (hp : (w.persistMapping codec ip name).dns.persistence = some p) :
    p.path = path ∧ (p.dirty = false →
      (w.persistMapping codec ip name).Counts codec path p.journalRecords ∧
      Compact p.journalRecords (w.persistMapping codec ip name).dns.lruCache.len) := by
  rcases persistMapping_cases codec ip name w with ⟨hnone, hsame⟩ | ⟨q, hq, h⟩
  · rw [hsame, hnone] at hp
    cases hp
  obtain ⟨rfl, -⟩ := hw q hq
  rcases h with h | h | h
  · have hcounts := h.counts hc
    rw [h.dns] at hp ⊢
    cases hp
    refine ⟨rfl, fun _ => ⟨hcounts, .inl ?_⟩⟩
    show w.dns.recordCount codec - w.dns.lruCache.len < COMPACT_STALE_RECORDS
    have hle := Nat.min_le_left w.dns.lruCache.len codec.usizeMax
    rw [← w.dns.recordCount_eq] at hle
    rw [Nat.sub_eq_zero_of_le hle]
    decide
  · have hcounts := h.counts hc hw hq
    have hsmall := compact_of_shouldCompact h.small
    rw [h.dns] at hp ⊢
    cases hp
    exact ⟨rfl, fun _ => ⟨hcounts, hsmall⟩⟩
  · obtain ⟨records, hdns⟩ := h.dns
    rw [hdns] at hp
    cases hp
    exact ⟨rfl, nofun⟩

theorem Counted.retryDirtyPersistence (hc : codec.Lawful) (hw : w.Counted codec path) :
    (w.retryDirtyPersistence codec).Counted codec path := by
  rcases retryDirtyPersistence_cases codec w with ⟨hsame, -⟩ | ⟨q, hq, -, h | h⟩
  · rw [hsame]
    exact hw
  · obtain ⟨rfl, -⟩ := hw q hq
    exact h.counted hc
  · obtain ⟨rfl, -⟩ := hw q hq
    exact h.counted

/-- **A name that has no address yet**: whichever address it gets, its mapping is persisted. -/
theorem Allocated.counts (hc : codec.Lawful) (hw : w.Counted codec path) {ip : IpAddr} {name : Str}
    (h : Allocated codec name w ip w') (hnew : w.dns.nameToIp.lookup name = none)
    (hp : w'.dns.persistence = some p) :
    p.path = path ∧ (p.dirty = false → w'.Counts codec path p.journalRecords ∧
      Compact p.journalRecords w'.dns.lruCache.len) := by
  cases h with
  | hit hname => cases hnew.symm.trans hname
  | @fresh k hname hk hused hfree =>
    have hbound : ((w.withCursor (w.scan k)).bindMapping (w.scan k) name).Counted codec path :=
      hw.of_same rfl rfl
    exact hbound.persistMapping hc _ _ hp
  | @recycled ip oldName cache hname hfull hvictim =>
    have hbound : ((w.evict oldName cache).bindMapping ip name).Counted codec path :=
      hw.of_same rfl rfl
    exact hbound.persistMapping hc _ _ hp

theorem Allocated.counted (hc : codec.Lawful) (hw : w.Counted codec path) {ip : IpAddr}
    {name : Str} (h : Allocated codec name w ip w') : w'.Counted codec path := by
  cases hname : w.dns.nameToIp.lookup name with
  | none =>
    intro p hp
    obtain ⟨hpath, hclean⟩ := h.counts hc hw hname hp
    exact ⟨hpath, fun hd => .inr (.inr (hclean hd).1)⟩
  | some ip' =>
    cases h with
    | hit _ => exact Counted.retryDirtyPersistence hc (hw.of_same rfl rfl)
    | fresh hnew | recycled hnew => cases hnew.symm.trans hname

end Calls

end World

/-! ## 4. A process -/

/-- A call on the resolver, for any name. -/
inductive ServeAny (codec : RecordCodec) : World → World → Prop
  | allocate {w : World} {fuel : Nat} {name : Str} {r : EStateM.Result Error World IpAddr}
      (h : World.findOrAllocateIp codec fuel name w = some r) : ServeAny codec w (finalState r)
  | touch (w : World) (ip : IpAddr) : ServeAny codec w { w with dns := w.dns.touchIp ip }
  | resolve (w : World) (ip : IpAddr) : ServeAny codec w { w with dns := (w.dns.resolveIp ip).2 }

section Process

variable {pool : IpCidr} {path : Str} {w w' : World}

theorem ServeAny.serve (h : ServeAny codec w w') : ∃ us, Serve codec w us w' := by
  cases h with
  | @allocate fuel name r h =>
    cases r with
    | ok ip w' => exact ⟨_, .allocate h⟩
    | error e w' => exact ⟨_, .allocateFails h⟩
  | touch ip => exact ⟨_, .touch _ ip⟩
  | resolve ip => exact ⟨_, .resolve _ ip⟩

theorem ServeAny.fakeIpTable (ht : FakeIpTable pool w.dns) (h : ServeAny codec w w') :
    FakeIpTable pool w'.dns := by
  obtain ⟨us, hs⟩ := h.serve
  exact serve_fakeIpTable codec ht hs

/-- One call keeps the count right, whatever fails. -/
theorem counted_serveAny (hc : codec.Lawful) (ht : FakeIpTable pool w.dns)
    (hw : w.Counted codec path) (h : ServeAny codec w w') : w'.Counted codec path := by
  cases h with
  | @allocate fuel name r h =>
    rcases World.findOrAllocateIp_cases codec ht fuel name with ⟨hnone, -⟩ | ⟨ip, w', hok, hal⟩
    · cases hnone.symm.trans h
    · cases hok.symm.trans h
      exact hal.counted hc hw
  | touch | resolve => exact hw.of_same rfl rfl

theorem counted_run (hc : codec.Lawful) (ht : FakeIpTable pool w.dns) (hw : w.Counted codec path)
    (h : Relation.ReflTransGen (ServeAny codec) w w') :
    FakeIpTable pool w'.dns ∧ w'.Counted codec path := by
  induction h with
  | refl => exact ⟨ht, hw⟩
  | tail _ hcall ih => exact ⟨hcall.fakeIpTable ih.1, counted_serveAny hc ih.1 ih.2 hcall⟩

/-- **A start-up that reads a journal of the pool** has the count of the file, whether or not the
    file is repaired. -/
theorem World.StartUp.counts {mappings : List (IpAddr × Str)} {dns : VirtualDns} {repair : Bool}
    (hsu : StartUp codec path w mappings dns repair) {bytes : List UInt8} {cursor : IpAddr}
    {mappings' : List (IpAddr × Str)} {repair' : Bool} {records : Nat}
    (hfile : w.disk.files path = some bytes) (htext : none ∉ lines bytes)
    (hload : PersistentCache.loadLines codec w.dns.networkAddr w.dns.broadcastAddr (lines bytes) =
      (.loaded cursor mappings' repair', records)) :
    dns.persistence = some ⟨path, min (mappingRecords codec bytes) codec.usizeMax, false⟩ := by
  cases hsu with
  | missing hfile' => cases hfile.symm.trans hfile'
  | incompatible hfile' hload' =>
    cases hfile.symm.trans hfile'
    cases hload.symm.trans hload'
  | loaded hfile' hload' =>
    cases hfile.symm.trans hfile'
    rw [← loadLines_records htext hload']

/-- **The count is right after a start-up** on no file or on a well-formed one, if a start-up that
    failed left a file that can be appended to. -/
theorem counted_enablePersistence (hc : codec.Lawful) (ht : FakeIpTable pool w.dns)
    (hp : w.dns.persistence = none)
    (hfile : ∀ bytes, w.disk.files path = some bytes → WellFormed codec bytes)
    (hstart : StartUpRecovers codec path (World.enablePersistence codec path w)) :
    (finalState (World.enablePersistence codec path w)).Counted codec path := by
  have hstarted := started_enablePersistence ht hstart
  generalize finalState _ = w' at hstarted ⊢
  cases hstarted with
  | closed hdns =>
    intro p hp'
    cases hp'.symm.trans ((congrArg VirtualDns.persistence hdns).trans hp)
  | kept hsu hold hnow htext hload =>
    intro p hp'
    cases hp'.symm.trans (hsu.counts hold htext hload)
    exact ⟨rfl, fun _ => .inr (.inr ⟨_, hnow, (hfile _ hold).terminated, rfl⟩)⟩
  | bare hsu hnow =>
    intro p hp'
    obtain ⟨n, hpers⟩ := hsu.persistence
    cases hp'.symm.trans hpers
    exact ⟨rfl, fun _ => hnow.imp_right .inl⟩
  | rewritten _ hrw => exact hrw.counted hc

/-- **The journal stays short.** A process of the pool starts on no file or on a well-formed
    journal, any of its file operations may fail, and a start-up that failed left a file that can be
    appended to. When a mapping has been persisted, for any name, and the cache is clean, the
    counter is the number of mapping records in the file, and fewer than 1024 of them are more than
    the live mappings or they are fewer than twice the live mappings. -/
theorem journal_bounded (hc : codec.Lawful) {d : Disk}
    (hfile : ∀ bytes, d.files path = some bytes → WellFormed codec bytes)
    (hstart : StartUpRecovers codec path
      (World.enablePersistence codec path ⟨VirtualDns.new pool, d⟩))
    (hrun : Relation.ReflTransGen (ServeAny codec)
      (finalState (World.enablePersistence codec path ⟨VirtualDns.new pool, d⟩)) w)
    {fuel : Nat} {name : Str} {ip : IpAddr}
    (hnew : w.dns.nameToIp.lookup (w.dns.canonicalName name) = none)
    (hok : World.findOrAllocateIp codec fuel name w = some (.ok ip w'))
    {p : PersistentCache} (hp : w'.dns.persistence = some p) (hclean : p.dirty = false) :
    p.path = path ∧ ∃ bytes, w'.disk.files path = some bytes ∧
      p.journalRecords = min (mappingRecords codec bytes) codec.usizeMax ∧
      (bytes.length ≤ codec.usizeMax → p.journalRecords = mappingRecords codec bytes ∧
        (mappingRecords codec bytes - w'.dns.lruCache.len < COMPACT_STALE_RECORDS ∨
          mappingRecords codec bytes < 2 * w'.dns.lruCache.len) ∧
        mappingRecords codec bytes ≤
          max (w'.dns.lruCache.len + 1023) (2 * w'.dns.lruCache.len - 1)) := by
  have hnewTable := FakeIpTable.new pool
  have hcounted := counted_enablePersistence hc (w := ⟨VirtualDns.new pool, d⟩) hnewTable rfl hfile
    hstart
  have htable := step_fakeIpTable codec (w := ⟨VirtualDns.new pool, d⟩) hnewTable (.enable _ path)
  obtain ⟨ht, hw⟩ := counted_run hc htable hcounted hrun
  rcases World.findOrAllocateIp_cases codec ht fuel name with ⟨hnone, -⟩ | ⟨ip', w'', hok', hal⟩
  · cases hnone.symm.trans hok
  cases hok'.symm.trans hok
  obtain ⟨hpath, hcompact⟩ := hal.counts hc hw hnew hp
  obtain ⟨⟨bytes, hbytes, -, hcount⟩, hsmall⟩ := hcompact hclean
  refine ⟨hpath, bytes, hbytes, hcount, fun hlen => ?_⟩
  have hexact : p.journalRecords = mappingRecords codec bytes := by
    have hle : mappingRecords codec bytes ≤ bytes.length := mappingRecords_le bytes
    rw [hcount]
    omega
  rw [hexact] at hsmall
  exact ⟨hexact, hsmall, hsmall.le⟩

end Process

end Codec

/-! ## 5. A journal of another pool -/

/-- A journal of the pool 10.0.0.0/31 with 1024 mapping records. -/
def foreignText : List UInt8 :=
  journalText Json.jsonCodec (.v4 0x0A000000#32) (.v4 0x0A000001#32) (.v4 0x0A000000#32)
    (List.replicate 1024 (.v4 0x0A000001#32, sampleName))

def foreignDisk : Disk := refusingDisk foreignText

/-- **The records of another pool are not counted.** The file is a well-formed journal of another
    pool with 1024 mapping records, and the rewrite of the start-up fails. The first name is
    appended to it; the cache is clean and counts one record, and the file has 1025 for one live
    mapping. -/
theorem foreign_records_uncounted :
    ∃ w₁ w, WellFormed Json.jsonCodec foreignText ∧
      foreignDisk.files samplePath = some foreignText ∧
      World.enablePersistence Json.jsonCodec samplePath
        ⟨VirtualDns.new samplePool, foreignDisk⟩ = .error (.ofKind .other) w₁ ∧
      w₁.dns.nameToIp.lookup (w₁.dns.canonicalName sampleName) = none ∧
      World.findOrAllocateIp Json.jsonCodec 2 sampleName w₁ = some (.ok sampleIp w) ∧
      w.dns.persistence = some ⟨samplePath, 1, false⟩ ∧ w.dns.lruCache.len = 1 ∧
      ∃ bytes, w.disk.files samplePath = some bytes ∧
        mappingRecords Json.jsonCodec bytes = 1025 ∧ max (1 + 1023) (2 * 1 - 1) < 1025 := by
  have hc := Json.jsonCodec_lawful
  have hwell : WellFormed Json.jsonCodec foreignText := wellFormed_journalText hc _ _ _ _
  have hne : foreignText ≠ [] := journalText_ne_nil _ _ _ _
  have hload : PersistentCache.loadLines Json.jsonCodec samplePool.firstAddress
      samplePool.lastAddress (lines foreignText) = (.incompatible, 0) :=
    loadLines_otherNetwork hc (by decide) _ _ _ _
  obtain ⟨w, hok, hp, -, hlen, hfile⟩ := refused_appends hne
  have hfiles : foreignDisk.files samplePath = some foreignText :=
    Disk.setFile_self sampleDisk samplePath (some foreignText)
  refine ⟨_, w, hwell, hfiles, enablePersistence_refused hload, rfl, hok, hp, hlen,
    _, hfile, ?_, by decide⟩
  rw [mappingRecords_append hc hwell.terminated]
  unfold foreignText
  rw [mappingRecords_journalText hc, List.length_replicate]

/-- After a start-up that failed on a missing file, the first name makes a journal and the second
    one is appended to it: two records are counted and two are there. -/
theorem sample_journal_bounded :
    ∃ (w : World) (bytes : List UInt8), w.dns.persistence = some ⟨samplePath, 2, false⟩ ∧
      w.disk.files samplePath = some bytes ∧ mappingRecords Json.jsonCodec bytes = 2 := by
  obtain ⟨e, w₁, w₂, w₃, he, hnone, -, hfirst, -, -, hnew, hsecond, hp⟩ := faultyDisk_start
  have hstart : StartUpRecovers Json.jsonCodec samplePath (World.enablePersistence Json.jsonCodec
      samplePath ⟨VirtualDns.new samplePool, faultyDisk⟩) := by
    rw [he]
    exact Or.inr (Or.inl hnone)
  have hrun : Relation.ReflTransGen (ServeAny Json.jsonCodec) (finalState (World.enablePersistence
      Json.jsonCodec samplePath ⟨VirtualDns.new samplePool, faultyDisk⟩)) w₂ := by
    rw [he]
    exact .single (.allocate hfirst)
  obtain ⟨-, bytes, hbytes, hcount, -⟩ := journal_bounded Json.jsonCodec_lawful
    (fun bytes hb => by cases hb) hstart hrun hnew hsecond hp rfl
  refine ⟨w₃, bytes, hp, hbytes, ?_⟩
  have hcount : 2 = min (mappingRecords Json.jsonCodec bytes) Json.jsonCodec.usizeMax := hcount
  have hmax : Json.jsonCodec.usizeMax = 2 ^ 64 - 1 := rfl
  omega

end Tun2Proxy
