/-
  File:      Tun2Proxy/VirtualDns/Journal.lean
  Subject:   The journal of a run without failures is the live table.

  A journal text is `Readable` when all its lines are there and are text: then appending a record
  to it appends one mapping to what is read from it. A file `Represents` the table of a resolver
  when it is readable and replaying what is read from it gives the table. A rewrite makes the
  file represent the table, and an append keeps it so.

  The header's cursor is not updated by appends. It lags behind the live cursor, but only over
  addresses that are taken (`Lags`), so the scans from both meet the same first free address.
-/
import Tun2Proxy.VirtualDns.Recycling

namespace Tun2Proxy

open Lines

section Codec

variable {codec : RecordCodec}

/-! ## 1. Reading a journal -/

/-- Reading lines that are all text goes on with the lines after them. -/
theorem loadMappings_append {ls : List (Option (List UInt8))} (hn : none ∉ ls) :
    ∀ (ls' : List (Option (List UInt8))) (records : Nat) (mappings : List (IpAddr × Str))
      (repair : Bool), loadMappings codec (ls ++ ls') records mappings repair =
        loadMappings codec ls' (loadMappings codec ls records mappings repair).1
          (loadMappings codec ls records mappings repair).2.1
          (loadMappings codec ls records mappings repair).2.2 := by
  induction ls with
  | nil => intro ls' records mappings repair; rfl
  | cons l ls ih =>
    intro ls' records mappings repair
    have ih := ih fun hm => hn (List.mem_cons_of_mem _ hm)
    cases l with
    | none => exact absurd List.mem_cons_self hn
    | some line =>
      simp only [List.cons_append, loadMappings]
      split
      · exact ih _ _ _ _
      · split <;> exact ih _ _ _ _

/-- The text `bytes` can be appended to, and loading it with the pool of `v` reads the cursor and
    the mappings. -/
structure Readable (codec : RecordCodec) (v : VirtualDns) (bytes : List UInt8) (cursor : IpAddr)
    (mappings : List (IpAddr × Str)) (repair : Bool) : Prop where
  terminated : Terminated bytes
  text : none ∉ lines bytes
  loads : ∃ records, PersistentCache.loadLines codec v.networkAddr v.broadcastAddr (lines bytes) =
    (.loaded cursor mappings repair, records)

variable {v : VirtualDns} {bytes : List UInt8} {cursor : IpAddr} {mappings : List (IpAddr × Str)}
  {repair : Bool}

theorem Readable.of_settings {v' : VirtualDns} (hset : v.SameSettings v')
    (h : Readable codec v bytes cursor mappings repair) :
    Readable codec v' bytes cursor mappings repair :=
  ⟨h.terminated, h.text, hset.network ▸ hset.broadcast ▸ h.loads⟩

theorem lines_recordLine (hc : codec.Lawful) (r : CacheRecord) (rest : List UInt8) :
    lines (recordLine codec r ++ rest) = some (codec.encode r) :: lines rest := by
  unfold recordLine
  rw [List.append_assoc]
  exact lines_cons (hc.newline r) (hc.carriageReturn r) (hc.utf8 r) rest

theorem lines_oneRecord (hc : codec.Lawful) (r : CacheRecord) :
    lines (recordLine codec r) = [some (codec.encode r)] := by
  have h := lines_recordLine hc r []
  rwa [List.append_nil] at h

theorem lines_mappingLines (hc : codec.Lawful) (mappings : List (IpAddr × Str)) :
    lines (mappingLines codec mappings) =
      mappings.map fun m => some (codec.encode (.mapping m.1 m.2)) := by
  induction mappings with
  | nil => rfl
  | cons m mappings ih =>
    rw [mappingLines, List.flatMap_cons, lines_recordLine hc]
    exact congrArg (List.cons _) ih

/-- Records that were written are read back, in order. -/
theorem loadMappings_encoded (hc : codec.Lawful) (written : List (IpAddr × Str)) :
    ∀ (records : Nat) (mappings : List (IpAddr × Str)) (repair : Bool),
      ∃ n, loadMappings codec (written.map fun m => some (codec.encode (.mapping m.1 m.2)))
        records mappings repair = (n, mappings ++ written, repair) := by
  induction written with
  | nil => intro records mappings repair; exact ⟨records, by simp [loadMappings]⟩
  | cons m written ih =>
    intro records mappings repair
    obtain ⟨n, hn⟩ := ih (codec.saturatingAdd records 1) (mappings ++ [(m.1, m.2)]) repair
    refine ⟨n, ?_⟩
    have hne : (codec.encode (.mapping m.1 m.2)).isEmpty = false := by
      rw [List.isEmpty_eq_false_iff]
      exact hc.nonempty _
    simp only [List.map_cons, loadMappings, hne, Bool.false_eq_true, if_false, hc.decode_encode]
    rw [hn]
    simp

theorem terminated_mappingLines (mappings : List (IpAddr × Str)) :
    Terminated (mappingLines codec mappings) := by
  induction mappings with
  | nil => exact Or.inl rfl
  | cons m mappings ih => exact Terminated.append (terminated_append_newline _) ih

theorem lines_journalText (hc : codec.Lawful) (network broadcast cursor : IpAddr)
    (mappings : List (IpAddr × Str)) :
    lines (journalText codec network broadcast cursor mappings) =
      some (codec.encode (.header CACHE_VERSION network broadcast cursor)) ::
        mappings.map fun m => some (codec.encode (.mapping m.1 m.2)) := by
  unfold journalText
  rw [lines_recordLine hc, lines_mappingLines hc]

theorem terminated_journalText (network broadcast cursor : IpAddr)
    (mappings : List (IpAddr × Str)) :
    Terminated (journalText codec network broadcast cursor mappings) :=
  Terminated.append (terminated_append_newline _) (terminated_mappingLines mappings)

theorem journalText_ne_nil (network broadcast cursor : IpAddr) (mappings : List (IpAddr × Str)) :
    journalText codec network broadcast cursor mappings ≠ [] := by
  simp [journalText, recordLine]

/-- **What a rewrite writes is read back**: the cursor, the mappings, and no repair. -/
theorem readable_journalText (hc : codec.Lawful)
    (hcur : addressInPool cursor v.networkAddr v.broadcastAddr = true)
    (mappings : List (IpAddr × Str)) :
    Readable codec v (journalText codec v.networkAddr v.broadcastAddr cursor mappings) cursor
      mappings false := by
  have hlines := lines_journalText hc v.networkAddr v.broadcastAddr cursor mappings
  refine ⟨terminated_journalText _ _ _ _, ?_, ?_⟩
  · rw [hlines]
    simp
  · obtain ⟨n, hn⟩ := loadMappings_encoded hc mappings 0 [] false
    refine ⟨n, ?_⟩
    rw [hlines]
    unfold PersistentCache.loadLines headerCursor
    simp only [hc.decode_encode, hcur, and_self, if_true]
    rw [hn]
    simp

/-- What stands after a readable journal is read after it. -/
theorem Readable.loads_append (h : Readable codec v bytes cursor mappings repair)
    (tail : List UInt8) :
    ∃ records, PersistentCache.loadLines codec v.networkAddr v.broadcastAddr
        (lines (bytes ++ tail)) =
      (.loaded cursor (loadMappings codec (lines tail) records mappings repair).2.1
        (loadMappings codec (lines tail) records mappings repair).2.2,
        (loadMappings codec (lines tail) records mappings repair).1) := by
  obtain ⟨n, hn⟩ := h.loads
  have htext := h.text
  rw [lines_append h.terminated]
  unfold PersistentCache.loadLines at hn ⊢
  cases hl : lines bytes with
  | nil => rw [hl] at hn; simp at hn
  | cons l ls =>
    rw [hl] at hn htext
    cases l with
    | none => simp at htext
    | some line =>
      simp only [List.cons_append] at hn ⊢
      cases hh : headerCursor codec v.networkAddr v.broadcastAddr line with
      | none => rw [hh] at hn; simp at hn
      | some c =>
        rw [hh] at hn
        simp only [Prod.mk.injEq, LoadResult.loaded.injEq] at hn
        obtain ⟨⟨rfl, rfl, rfl⟩, -⟩ := hn
        have hls : none ∉ ls := fun hm => htext (List.mem_cons_of_mem _ hm)
        refine ⟨(loadMappings codec ls 0 [] false).1, ?_⟩
        rw [loadMappings_append hls]

/-- **Appending a record to a readable journal appends its mapping.** -/
theorem Readable.append (hc : codec.Lawful) (h : Readable codec v bytes cursor mappings repair)
    (ip : IpAddr) (name : Str) :
    Readable codec v (bytes ++ recordLine codec (.mapping ip name)) cursor
      (mappings ++ [(ip, name)]) repair := by
  have hline : lines (recordLine codec (.mapping ip name)) =
      [(ip, name)].map fun m => some (codec.encode (.mapping m.1 m.2)) := lines_oneRecord hc _
  refine ⟨h.terminated.append (terminated_append_newline _), ?_, ?_⟩
  · rw [lines_append h.terminated, hline]
    simpa using h.text
  · obtain ⟨records, hload⟩ := h.loads_append (recordLine codec (.mapping ip name))
    obtain ⟨n, hn⟩ := loadMappings_encoded hc [(ip, name)] records mappings repair
    refine ⟨n, ?_⟩
    rw [hload, hline, hn]

/-! ## 2. A file that represents the table -/

variable {pool : IpCidr}

/-- The settings of a resolver of the pool are those of a new one. -/
theorem FakeIpTable.settings (h : FakeIpTable pool v) : v.SameSettings (VirtualDns.new pool) :=
  ⟨h.dot.symm, h.network.symm, h.broadcast.symm⟩

/-- Every live mapping is one that `restore_mapping` takes. -/
def VirtualDns.Storable (v : VirtualDns) : Prop :=
  ∀ ip name, v.lruCache.peek ip = some name → v.restorable (ip, name) = true

/-- Replaying the entries of the cache gives the cache. -/
theorem FakeIpTable.replay_iter (h : FakeIpTable pool v) :
    Replay.replay v.lruCache.iter = v.lruCache.peek := by
  have hkeys : (v.lruCache.iter.map Prod.fst).Nodup := by
    rw [LruCache.iter_map_fst]
    exact List.nodup_reverse.mpr v.lruCache.nodup_order
  have hvalues : (v.lruCache.iter.map Prod.snd).Nodup := by
    refine List.Nodup.map_on ?_ (List.Nodup.of_map _ hkeys)
    intro e he e' he' heq
    obtain ⟨a, n⟩ := e
    obtain ⟨a', n'⟩ := e'
    cases heq
    rw [LruCache.Inverse.key_unique h.inverse (LruCache.mem_iter.mp he) (LruCache.mem_iter.mp he')]
  funext a
  apply Option.ext
  intro n
  rw [Replay.replay_eq_some_of_nodup hkeys hvalues, LruCache.mem_iter]

theorem VirtualDns.restored_eq_self (hr : ∀ m ∈ mappings, v.restorable m = true)
    (hcanon : ∀ m ∈ mappings, v.canonicalName m.2 = m.2) : v.restored mappings = mappings := by
  unfold VirtualDns.restored
  rw [List.filter_eq_self.mpr hr]
  refine (List.map_congr_left fun m hm => ?_).trans (List.map_id mappings)
  rw [hcanon m hm]
  rfl

theorem FakeIpTable.restored_iter (h : FakeIpTable pool v) (hs : v.Storable) :
    v.restored v.lruCache.iter = v.lruCache.iter :=
  VirtualDns.restored_eq_self (fun m hm => hs m.1 m.2 (LruCache.mem_iter.mp hm))
    fun m hm => h.canonical m.1 m.2 (LruCache.mem_iter.mp hm)

/-- Replaying what is read from the file at `path` gives the live table. -/
structure World.Represents (codec : RecordCodec) (path : Str) (w : World) (cursor : IpAddr)
    (mappings : List (IpAddr × Str)) (repair : Bool) : Prop where
  file : ∃ bytes, w.disk.files path = some bytes ∧
    Readable codec w.dns bytes cursor mappings repair
  table : Replay.replay (w.dns.restored mappings) = w.dns.lruCache.peek

/-- The file at `path` is the journal of these mappings. -/
def World.Holds (codec : RecordCodec) (path : Str) (w : World) (cursor : IpAddr)
    (mappings : List (IpAddr × Str)) : Prop :=
  w.disk.files path =
    some (journalText codec w.dns.networkAddr w.dns.broadcastAddr cursor mappings)

theorem journalText_concat (network broadcast cursor : IpAddr) (mappings : List (IpAddr × Str))
    (ip : IpAddr) (name : Str) :
    journalText codec network broadcast cursor (mappings ++ [(ip, name)]) =
      journalText codec network broadcast cursor mappings ++
        recordLine codec (.mapping ip name) := by
  unfold journalText
  rw [mappingLines_concat, List.append_assoc]

variable {w : World}

/-- **A rewritten file represents the table**, with the live cursor and no repair. -/
theorem World.Rewritten.represents (hc : codec.Lawful) {path : Str} {w' : World}
    (hr : Rewritten codec path w w') (h : FakeIpTable pool w'.dns) (hs : w'.dns.Storable) :
    w'.Represents codec path w'.dns.nextAddr w'.dns.lruCache.iter false := by
  have hcur := (h.contains_iff _).mp h.cursor
  refine ⟨⟨_, ?_, readable_journalText hc hcur _⟩, ?_⟩
  · rw [hr.file, hr.dns]
  · rw [h.restored_iter hs]
    exact h.replay_iter

/-- **An append keeps a file representing the table**, when the table changes by the appended
    assignment. -/
theorem World.Represents.append (hc : codec.Lawful) {path : Str} {w' : World} {ip : IpAddr}
    {name : Str} (h : w.Represents codec path cursor mappings repair)
    (hset : w.dns.SameSettings w'.dns) (hbytes : w.disk.files path = some bytes)
    (hfile : w'.disk.files path = some (bytes ++ recordLine codec (.mapping ip name)))
    (hrest : w.dns.restorable (ip, name) = true) (hcanon : w.dns.canonicalName name = name)
    (hpeek : w'.dns.lruCache.peek = Replay.assign w.dns.lruCache.peek ip name) :
    w'.Represents codec path cursor (mappings ++ [(ip, name)]) repair := by
  obtain ⟨⟨bytes', hb', hread⟩, htable⟩ := h
  cases hbytes.symm.trans hb'
  have hrestored : w.dns.restored (mappings ++ [(ip, name)]) =
      w.dns.restored mappings ++ [(ip, name)] := by
    unfold VirtualDns.restored
    rw [List.filter_append, List.map_append, List.filter_cons_of_pos hrest, List.filter_nil,
      List.map_singleton, hcanon]
  refine ⟨⟨_, hfile, (hread.append hc ip name).of_settings hset⟩, ?_⟩
  rw [hset.restored, hrestored, Replay.replay_concat, htable, hpeek]

/-! ## 3. What an allocation does to the journal -/

/-- The journal after an allocation for `name`: untouched by a hit on a clean cache, rewritten,
    longer by one record, or dirty. -/
inductive JournalStep (codec : RecordCodec) (p : PersistentCache) (ip : IpAddr) (name : Str)
    (w w' : World) : Prop
  | idle (hclean : p.dirty = false) (hp : w'.dns.persistence = some p)
      (hdisk : w'.disk = w.disk) (hpeek : w'.dns.lruCache.peek = w.dns.lruCache.peek)
  | rewritten {w₁ : World} (hdisk : w₁.disk = w.disk) (hr : World.Rewritten codec p.path w₁ w')
  | appended {records : Nat} {bytes : List UInt8} (hnew : w.dns.nameToIp.lookup name = none)
      (hclean : p.dirty = false) (hp : w'.dns.persistence = some ⟨p.path, records, false⟩)
      (hbytes : w.disk.files p.path = some bytes) (hne : bytes ≠ [])
      (hfile : w'.disk.files p.path = some (bytes ++ recordLine codec (.mapping ip name)))
      (hquiet : w.disk.Quiet → w'.disk.Quiet)
  | dirty {records : Nat} (hplanned : ¬ w.disk.Quiet)
      (hp : w'.dns.persistence = some ⟨p.path, records, true⟩)

section Outcome

variable {pool : IpCidr} {w w' : World} {name : Str} {ip : IpAddr}

/-- Persisting the mapping of a world that differs from `w` in its table only. -/
theorem journalStep_persistMapping {p : PersistentCache} {w₁ : World}
    (hp : w.dns.persistence = some p) (hnew : w.dns.nameToIp.lookup name = none)
    (hdisk : w₁.disk = w.disk) (hp₁ : w₁.dns.persistence = w.dns.persistence) :
    JournalStep codec p ip name w (w₁.persistMapping codec ip name) := by
  rcases World.persistMapping_cases codec ip name w₁ with ⟨hnone, -⟩ | ⟨q, hq, h⟩
  · cases hnone.symm.trans (hp₁.trans hp)
  · cases hq.symm.trans (hp₁.trans hp)
    rcases h with h | h | h
    · exact .rewritten hdisk h
    · obtain ⟨bytes, hbytes, hne, hfile⟩ := h.file
      exact .appended hnew h.clean (by rw [h.dns]) (hdisk ▸ hbytes) hne hfile fun h0 =>
        h.quiet (hdisk ▸ h0)
    · obtain ⟨records, hdns⟩ := h.dns
      exact .dirty (fun h0 => h.planned (hdisk ▸ h0)) (by rw [hdns])

theorem World.Allocated.journal {p : PersistentCache} (ha : Allocated codec name w ip w')
    (hp : w.dns.persistence = some p) : JournalStep codec p ip name w w' := by
  cases ha with
  | hit hname =>
    rcases retryDirtyPersistence_cases codec { w with dns := w.dns.touchIp ip } with
      ⟨h, hclean⟩ | ⟨q, hq, hdirty, h | h⟩
    · rw [h]
      exact .idle (hclean p hp) hp rfl (funext fun x => LruCache.peek_touch _ _ _)
    · cases hq.symm.trans hp
      refine .rewritten ?_ h
      rfl
    · cases hq.symm.trans hp
      obtain ⟨records, hdns⟩ := h.dns
      exact .dirty h.planned (by rw [hdns])
  | fresh hname | recycled hname => exact journalStep_persistMapping hp hname rfl rfl

theorem World.Allocated.settings (ha : Allocated codec name w ip w') :
    w.dns.SameSettings w'.dns := by
  cases ha with
  | hit hname =>
    rw [retryDirtyPersistence_sameTable codec]
    exact ⟨rfl, rfl, rfl⟩
  | fresh | recycled =>
    rw [persistMapping_sameTable codec]
    exact ⟨rfl, rfl, rfl⟩

/-- For a new name, an allocation is an assignment. -/
theorem World.Allocated.peek_assign (h : FakeIpTable pool w.dns)
    (ha : Allocated codec name w ip w') (hnew : w.dns.nameToIp.lookup name = none) :
    w'.dns.lruCache.peek = Replay.assign w.dns.lruCache.peek ip name := by
  rw [Replay.assign_of_fresh (LruCache.Inverse.fresh h.inverse hnew)]
  exact funext (ha.peek codec h)

/-- An allocation of a storable name keeps the table storable. -/
theorem World.Allocated.storable (h : FakeIpTable pool w.dns) (ha : Allocated codec name w ip w')
    (hs : w.dns.Storable) (hrest : w.dns.restorable (ip, name) = true) : w'.dns.Storable := by
  intro x n hx
  rw [ha.settings.restorable]
  rw [ha.peek codec h] at hx
  split_ifs at hx with hxip
  · cases hx
    exact hxip ▸ hrest
  · exact hs x n hx

/-- The address of an allocation lies in the pool. -/
theorem World.Allocated.contains (h : FakeIpTable pool w.dns)
    (ha : Allocated codec name w ip w') : pool.Contains ip := by
  cases ha with
  | hit hname => exact h.inPool ip name ((h.inverse ip name).mpr hname)
  | fresh hname hk hused hfree => exact World.scan_contains h _
  | recycled hname hfull hvictim =>
    obtain ⟨-, hold, -⟩ := LruCache.removeLru_eq_some hvictim
    exact h.inPool ip _ hold

/-! ## 4. The cursor of the header -/

/-- The live cursor is ahead of `cursor` over addresses that are all taken. -/
def World.Lags (cursor : IpAddr) (w : World) : Prop :=
  ∃ k, w.dns.nextAddr = circular w.dns.networkAddr w.dns.broadcastAddr cursor k ∧
    ∀ j < k, ¬ w.Free (circular w.dns.networkAddr w.dns.broadcastAddr cursor j)

/-- The scan from the live cursor goes on where the one from `cursor` is. -/
theorem World.scan_of_cursor (h : FakeIpTable pool w.dns) {cursor : IpAddr} {k : Nat}
    (hk : w.dns.nextAddr = circular w.dns.networkAddr w.dns.broadcastAddr cursor k) (j : Nat) :
    w.scan j = circular w.dns.networkAddr w.dns.broadcastAddr cursor (k + j) := by
  unfold World.scan
  rw [hk]
  exact circular_circular h.family h.network_le cursor k j

theorem World.Allocated.not_free (h : FakeIpTable pool w.dns)
    (ha : Allocated codec name w ip w') {x : IpAddr} (hx : ¬ w.Free x) : ¬ w'.Free x := by
  unfold Free at *
  rw [ha.peek codec h]
  split
  · exact Option.some_ne_none _
  · exact hx

/-- **Allocations let the header's cursor lag over taken addresses only**, until the pool is
    full, which it then stays. -/
theorem World.Allocated.lags (h : FakeIpTable pool w.dns) (ha : Allocated codec name w ip w')
    {cursor : IpAddr} (hl : w.Full pool ∨ w.Lags cursor) : w'.Full pool ∨ w'.Lags cursor := by
  have hset := ha.settings
  have hkeep : ∀ {x}, ¬ w.Free x → ¬ w'.Free x := fun hx => ha.not_free h hx
  rcases hl with hfull | ⟨k, hk, hused⟩
  · exact Or.inl fun x hx => hkeep (hfull x hx)
  · have hstay : w'.dns.nextAddr = w.dns.nextAddr → w'.Lags cursor := by
      intro e
      rw [Lags, e, hset.network, hset.broadcast]
      exact ⟨k, hk, fun j hj => hkeep (hused j hj)⟩
    cases ha with
    | hit hname =>
      refine Or.inr (hstay ?_)
      rw [retryDirtyPersistence_sameTable codec]
      rfl
    | recycled hname hfull hvictim =>
      refine Or.inr (hstay ?_)
      rw [persistMapping_sameTable codec]
      rfl
    | @fresh i hname hi hscan hfree =>
      -- the scan went on from the live cursor, over taken addresses
      have hcomp := w.scan_of_cursor h hk
      refine Or.inr ⟨k + i, ?_, fun j hj => ?_⟩
      · rw [hset.network, hset.broadcast, ← hcomp i, persistMapping_sameTable codec]
        rfl
      · rw [hset.network, hset.broadcast]
        apply hkeep
        by_cases hjk : j < k
        · exact hused j hjk
        · have e : j = k + (j - k) := by omega
          rw [e, ← hcomp]
          exact hscan _ (by omega)

/-- **A lagging cursor finds the same free address.** -/
theorem first_free_of_lags (h : FakeIpTable pool w.dns) {cursor : IpAddr} (hl : w.Lags cursor)
    {i j : Nat} (hi : w.Free (w.scan i)) (hi' : ∀ t < i, ¬ w.Free (w.scan t))
    (hj : w.Free (circular w.dns.networkAddr w.dns.broadcastAddr cursor j))
    (hj' : ∀ t < j, ¬ w.Free (circular w.dns.networkAddr w.dns.broadcastAddr cursor t)) :
    circular w.dns.networkAddr w.dns.broadcastAddr cursor j = w.scan i := by
  obtain ⟨k, hk, hused⟩ := hl
  have hcomp := w.scan_of_cursor h hk
  have hle : k ≤ j := by
    by_contra hlt
    exact hused j (by omega) hj
  have hij : j = k + i := by
    rcases Nat.lt_trichotomy j (k + i) with hlt | heq | hgt
    · have e : j = k + (j - k) := by omega
      rw [e, ← hcomp] at hj
      exact absurd hj (hi' _ (by omega))
    · exact heq
    · rw [hcomp] at hi
      exact absurd hi (hj' _ hgt)
  rw [hcomp, hij]

end Outcome

/-- A new name of a pool that is not full receives the first free address of the scan. -/
theorem findOrAllocateIp_fresh (h : FakeIpTable pool w.dns) (hfull : ¬ w.Full pool) {name : Str}
    (hnew : ∀ a, w.dns.lruCache.peek a ≠ some (w.dns.canonicalName name)) {fuel : Nat}
    (hfuel : w.size ≤ fuel) :
    ∃ i w', World.findOrAllocateIp codec fuel name w = some (.ok (w.scan i) w') ∧
      w.Free (w.scan i) ∧ ∀ j < i, ¬ w.Free (w.scan j) := by
  rcases World.findOrAllocateIp_cases codec h fuel name with ⟨-, hlt⟩ | ⟨ip, w', hok, hal⟩
  · omega
  cases hal with
  | hit hname => exact absurd ((h.inverse _ _).mpr hname) (hnew _)
  | @fresh k hname hk hused hfree => exact ⟨k, _, hok, hfree, hused⟩
  | recycled hname hscan hvictim => exact absurd (World.full_of_scan h hscan) hfull

/-! ## 5. Starting up on a journal -/

/-- A restored mapping is restorable again. -/
theorem VirtualDns.restorable_of_mem_restored {m : IpAddr × Str} (h : m ∈ v.restored mappings) :
    v.restorable m = true := by
  obtain ⟨r, hr, rfl⟩ := List.mem_map.mp h
  have hrest := (List.mem_filter.mp hr).2
  unfold VirtualDns.restorable at hrest ⊢
  simp only [v.canonicalName_idem]
  exact hrest

/-- **Loading a journal**: the table is the replay of its records, and a repair is called for when
    a line or a record was not taken. -/
theorem restoreMappings_loaded (h : FakeIpTable pool w.dns) {ls : List (Option (List UInt8))}
    {records : Nat}
    (hload : PersistentCache.loadLines codec w.dns.networkAddr w.dns.broadcastAddr ls =
      (.loaded cursor mappings repair, records)) :
    let r := { w.dns.clearMappings with nextAddr := cursor }.restoreMappings mappings repair
    FakeIpTable pool r.1 ∧ r.1.Storable ∧ w.dns.SameSettings r.1 ∧ r.1.nextAddr = cursor ∧
      r.1.lruCache.peek = Replay.replay (w.dns.restored mappings) ∧
      r.2 = (repair || !mappings.all w.dns.restorable) := by
  have hspec := VirtualDns.restoreMappings_spec mappings repair
    (h.cleared.withCursor (loadLines_cursor codec hload))
  intro r
  obtain ⟨h1, h2, h3, h4, -⟩ := hspec
  have hset : w.dns.SameSettings r.1 := ⟨h2.settings.trailingDot, h2.settings.network,
    h2.settings.broadcast⟩
  have hpeek : r.1.lruCache.peek = Replay.replay (w.dns.restored mappings) := h4
  refine ⟨h1, ?_, hset, ?_, hpeek, h3⟩
  · intro ip name hm
    rw [hpeek] at hm
    rw [hset.restorable]
    exact VirtualDns.restorable_of_mem_restored (Replay.mem_of_replay hm)
  · show r.1.nextAddr = cursor
    rw [show r.1 = _ from h2]

/-- **A start-up without a failure on a journal of the pool**: it has the table that the records
    give, and writes the file only to repair it. -/
theorem enablePersistence_loaded {path : Str} (h : FakeIpTable pool w.dns) (hq : w.disk.Quiet)
    {records : Nat} (hfile : w.disk.files path = some bytes)
    (hload : PersistentCache.loadLines codec w.dns.networkAddr w.dns.broadcastAddr (lines bytes) =
      (.loaded cursor mappings repair, records)) :
    ∃ dns d, World.StartUp codec path w mappings dns (repair || !mappings.all w.dns.restorable) ∧
      d.files = w.disk.files ∧ d.Quiet ∧ FakeIpTable pool dns ∧ dns.Storable ∧
      w.dns.SameSettings dns ∧ dns.nextAddr = cursor ∧
      dns.lruCache.peek = Replay.replay (w.dns.restored mappings) ∧
      dns.persistence = some ⟨path, records, false⟩ ∧
      (((repair || !mappings.all w.dns.restorable) = false ∧
          World.enablePersistence codec path w = .ok dns.lruCache.len ⟨dns, d⟩) ∨
        ((repair || !mappings.all w.dns.restorable) = true ∧
          ∃ w', World.enablePersistence codec path w = .ok w'.dns.lruCache.len w' ∧
            World.Rewritten codec path ⟨dns, d⟩ w')) := by
  obtain ⟨h1, h2, h3, h4, h5, h6⟩ := restoreMappings_loaded h hload
  have hsu : World.StartUp codec path w mappings _ _ := .loaded hfile hload
  rw [show _ = (repair || !mappings.all w.dns.restorable) from h6] at hsu
  rcases World.enablePersistence_cases codec path w with ⟨_, _, _, _, _, hnq, _⟩ |
    ⟨dns, repair', d, hs, hf, hq', hres⟩
  · exact absurd hq hnq
  generalize w.loadedMappings codec path = ms at hs
  cases hs with
  | missing hf' => cases hfile.symm.trans hf'
  | incompatible hf' hl' =>
    cases hfile.symm.trans hf'
    cases hload.symm.trans hl'
  | loaded hf' hl' =>
    cases hfile.symm.trans hf'
    cases hload.symm.trans hl'
    refine ⟨_, d, hsu, hf, hq' hq, h1.journaled _, h2,
      ⟨h3.trailingDot, h3.network, h3.broadcast⟩, h4, h5, rfl, ?_⟩
    rcases hres with ⟨hr, hok⟩ | ⟨hr, hok⟩ | ⟨-, _, _, -, hn⟩
    · exact Or.inl ⟨h6.symm.trans hr, hok⟩
    · exact Or.inr ⟨h6.symm.trans hr, hok⟩
    · exact absurd (hq' hq) hn.planned

/-- On a journal whose records are all restorable, it writes nothing. -/
theorem enablePersistence_readable {path : Str} (h : FakeIpTable pool w.dns) (hq : w.disk.Quiet)
    (hfile : w.disk.files path = some bytes)
    (hread : Readable codec w.dns bytes cursor mappings false)
    (hms : ∀ m ∈ mappings, w.dns.restorable m = true) :
    ∃ dns d records, World.enablePersistence codec path w = .ok dns.lruCache.len ⟨dns, d⟩ ∧
      World.StartUp codec path w mappings dns false ∧ d.files = w.disk.files ∧ d.Quiet ∧
      FakeIpTable pool dns ∧ dns.Storable ∧ w.dns.SameSettings dns ∧ dns.nextAddr = cursor ∧
      dns.lruCache.peek = Replay.replay (w.dns.restored mappings) ∧
      dns.persistence = some ⟨path, records, false⟩ := by
  obtain ⟨records, hload⟩ := hread.loads
  have hnone : (false || !mappings.all w.dns.restorable) = false := by
    rw [List.all_eq_true.mpr hms]
    rfl
  obtain ⟨dns, d, hsu, hf, hq', ht, hs, hset, hcur, hpeek, hp, hres⟩ :=
    enablePersistence_loaded h hq hfile hload
  rw [hnone] at hsu hres
  rcases hres with ⟨-, hok⟩ | ⟨e, -⟩
  · exact ⟨dns, d, records, hok, hsu, hf, hq', ht, hs, hset, hcur, hpeek, hp⟩
  · cases e

/-! ## 6. A resolver at work on its journal -/

/-- A call on the resolver for a name the journal can hold, or a use of an address. -/
inductive ServeNamed (codec : RecordCodec) : World → World → Prop
  | allocate {w w' : World} {fuel : Nat} {name : Str} {ip : IpAddr}
      (hne : w.dns.canonicalName name ≠ []) (hlen : (w.dns.canonicalName name).len ≤ 253)
      (h : World.findOrAllocateIp codec fuel name w = some (.ok ip w')) : ServeNamed codec w w'
  | touch (w : World) (ip : IpAddr) : ServeNamed codec w { w with dns := w.dns.touchIp ip }
  | resolve (w : World) (ip : IpAddr) :
      ServeNamed codec w { w with dns := (w.dns.resolveIp ip).2 }

/-- What a call on a name the journal can hold does. -/
theorem serveNamed_cases {w' : World} (h : FakeIpTable pool w.dns) (hs : ServeNamed codec w w') :
    (∃ ip, w' = { w with dns := w.dns.touchIp ip }) ∨
    ∃ name ip, World.Allocated codec name w ip w' ∧ w.dns.canonicalName name = name ∧
      w.dns.restorable (ip, name) = true := by
  cases hs with
  | @allocate _ fuel name ip hne hlen ha =>
    rcases World.findOrAllocateIp_cases codec h fuel name with ⟨hn, -⟩ | ⟨ip', w'', hok, hal⟩
    · cases hn.symm.trans ha
    · cases hok.symm.trans ha
      have hcanon := w.dns.canonicalName_idem name
      have hin : w.dns.addressInPool ip = true := (h.contains_iff ip).mp (hal.contains h)
      refine Or.inr ⟨_, ip, hal, hcanon, VirtualDns.restorable_iff.mpr ⟨?_, hin⟩⟩
      rw [hcanon]
      exact ⟨hne, hlen⟩
  | touch ip | resolve ip => exact Or.inl ⟨ip, rfl⟩

/-- The invariant of a resolver whose journal never failed: the file represents the table, needs
    no repair, and its cursor lags over taken addresses only. -/
structure Live (codec : RecordCodec) (pool : IpCidr) (path : Str) (w : World) : Prop where
  table : FakeIpTable pool w.dns
  storable : w.dns.Storable
  quiet : w.disk.Quiet
  clean : ∃ p, w.dns.persistence = some p ∧ p.path = path ∧ p.dirty = false
  file : ∃ cursor mappings, w.Holds codec path cursor mappings ∧
    w.Represents codec path cursor mappings false ∧
    (∀ m ∈ mappings, w.dns.restorable m = true) ∧ pool.Contains cursor ∧
    (w.Full pool ∨ w.Lags cursor)

section Run

variable {pool : IpCidr} {path : Str} {w w' : World}

/-- Right after a rewrite the cursor of the header is the live one. -/
theorem live_of_rewritten (hc : codec.Lawful) {w₁ : World}
    (hr : World.Rewritten codec path w₁ w') (h : FakeIpTable pool w'.dns) (hs : w'.dns.Storable)
    (hq : w₁.disk.Quiet) : Live codec pool path w' := by
  have hcur := (h.contains_iff _).mp h.cursor
  refine ⟨h, hs, hr.quiet hq, ⟨_, by rw [hr.dns], rfl, rfl⟩, w'.dns.nextAddr,
    w'.dns.lruCache.iter, ?_, hr.represents hc h hs, ?_, h.cursor,
    Or.inr ⟨0, ?_, fun j hj => ?_⟩⟩
  · unfold World.Holds
    rw [hr.file, hr.dns]
  · exact fun m hm => hs m.1 m.2 (LruCache.mem_iter.mp hm)
  · exact (circular_zero h.family h.network_le hcur).symm
  · omega

/-- Using an address leaves the journal and the table alone. -/
theorem live_touch (h : Live codec pool path w) (ip : IpAddr) :
    Live codec pool path { w with dns := w.dns.touchIp ip } := by
  have hpeek : (w.dns.touchIp ip).lruCache.peek = w.dns.lruCache.peek :=
    funext fun x => LruCache.peek_touch _ _ _
  have hfree : ∀ x, World.Free { w with dns := w.dns.touchIp ip } x ↔ w.Free x := fun x => by
    rw [World.Free, hpeek, World.Free]
  obtain ⟨cursor, mappings, htext, hrep, hms, hcur, hlag⟩ := h.file
  obtain ⟨⟨bytes, hb, hread⟩, htable⟩ := hrep
  refine ⟨h.table.touched ip, ?_, h.quiet, h.clean, cursor, mappings, htext,
    ⟨⟨bytes, hb, hread.terminated, hread.text, hread.loads⟩, ?_⟩, hms, hcur, ?_⟩
  · exact fun x n hx => h.storable x n (hpeek ▸ hx)
  · exact hpeek ▸ htable
  · rcases hlag with hfull | ⟨k, hk, hused⟩
    · exact Or.inl fun x hx hfx => hfull x hx ((hfree x).mp hfx)
    · exact Or.inr ⟨k, hk, fun j hj hfx => hused j hj ((hfree _).mp hfx)⟩

/-- **One call keeps the journal representing the table.** -/
theorem live_serveNamed (hc : codec.Lawful) (h : Live codec pool path w)
    (hs : ServeNamed codec w w') : Live codec pool path w' := by
  rcases serveNamed_cases h.table hs with ⟨ip, rfl⟩ | ⟨name, ip, hal, hcanon, hrest⟩
  · exact live_touch h ip
  have htable := hal.fakeIpTable codec h.table hcanon
  have hstorable := hal.storable h.table h.storable hrest
  obtain ⟨p, hp, rfl, hclean⟩ := h.clean
  obtain ⟨cursor, mappings, htext, hrep, hms, hcur, hlag⟩ := h.file
  have hlag' := hal.lags h.table hlag
  have hset := hal.settings
  unfold World.Holds at htext
  cases hal.journal hp with
  | idle _ hp' hdisk hpeek =>
    obtain ⟨⟨bytes, hb, hread⟩, hreplay⟩ := hrep
    refine ⟨htable, hstorable, hdisk ▸ h.quiet, ⟨p, hp', rfl, hclean⟩, cursor, mappings, ?_,
      ⟨⟨bytes, hdisk ▸ hb, hread.of_settings hset⟩, ?_⟩, hset.restorable ▸ hms, hcur, hlag'⟩
    · rw [World.Holds, hdisk, hset.network, hset.broadcast]
      exact htext
    · rw [hset.restored, hpeek]
      exact hreplay
  | rewritten hdisk hr =>
    exact live_of_rewritten hc hr htable hstorable (hdisk ▸ h.quiet)
  | appended hnew _ hp' hbytes hne hfile hquiet =>
    refine ⟨htable, hstorable, hquiet h.quiet, ⟨_, hp', rfl, rfl⟩, cursor,
      mappings ++ [(ip, name)], ?_, hrep.append hc hset hbytes hfile hrest hcanon
        (hal.peek_assign h.table hnew), ?_, hcur, hlag'⟩
    · cases hbytes.symm.trans htext
      rw [World.Holds, hfile, hset.network, hset.broadcast, journalText_concat]
    · rw [hset.restorable]
      exact fun m hm => (List.mem_append.mp hm).elim (hms m) fun hm =>
        List.mem_singleton.mp hm ▸ hrest
  | dirty hplanned _ => exact absurd h.quiet hplanned

/-- A resolver before its journal: the file is missing, or a readable journal of the pool. -/
structure Unjournaled (codec : RecordCodec) (pool : IpCidr) (path : Str) (w : World) : Prop where
  table : FakeIpTable pool w.dns
  storable : w.dns.Storable
  quiet : w.disk.Quiet
  noJournal : w.dns.persistence = none
  file : w.disk.files path = none ∨ ∃ cursor mappings, w.Holds codec path cursor mappings ∧
    (∀ m ∈ mappings, w.dns.restorable m = true) ∧ pool.Contains cursor

/-- Without a journal an allocation leaves the disk alone. -/
theorem World.Allocated.unjournaled {name : Str} {ip : IpAddr} (ha : Allocated codec name w ip w')
    (hp : w.dns.persistence = none) : w'.disk = w.disk ∧ w'.dns.persistence = none := by
  have hpersist : ∀ {w₁ : World}, w₁.disk = w.disk → w₁.dns.persistence = none →
      (w₁.persistMapping codec ip name).disk = w.disk ∧
        (w₁.persistMapping codec ip name).dns.persistence = none := by
    intro w₁ hd hp₁
    rcases persistMapping_cases codec ip name w₁ with ⟨-, e⟩ | ⟨p, hp', -⟩
    · rw [e]
      exact ⟨hd, hp₁⟩
    · cases hp'.symm.trans hp₁
  cases ha with
  | hit hname =>
    rcases retryDirtyPersistence_cases codec { w with dns := w.dns.touchIp ip } with
      ⟨e, -⟩ | ⟨p, hp', -⟩
    · rw [e]
      exact ⟨rfl, hp⟩
    · cases hp'.symm.trans hp
  | fresh | recycled => exact hpersist rfl hp

theorem unjournaled_serveNamed (h : Unjournaled codec pool path w) (hs : ServeNamed codec w w') :
    Unjournaled codec pool path w' := by
  have hkeep : ∀ {v : World}, w.dns.SameSettings v.dns → v.disk = w.disk →
      (v.disk.files path = none ∨ ∃ cursor mappings, v.Holds codec path cursor mappings ∧
        (∀ m ∈ mappings, v.dns.restorable m = true) ∧ pool.Contains cursor) := by
    intro v hset hd
    unfold World.Holds
    rw [hd, hset.restorable, hset.network, hset.broadcast]
    exact h.file
  rcases serveNamed_cases h.table hs with ⟨ip, rfl⟩ | ⟨name, ip, hal, hcanon, hrest⟩
  · exact ⟨h.table.touched ip, fun x n hx => h.storable x n (by rwa [VirtualDns.touchIp,
      LruCache.peek_touch] at hx), h.quiet, h.noJournal, hkeep ⟨rfl, rfl, rfl⟩ rfl⟩
  · obtain ⟨hdisk, hnone⟩ := hal.unjournaled h.noJournal
    exact ⟨hal.fakeIpTable codec h.table hcanon, hal.storable h.table h.storable hrest,
      hdisk ▸ h.quiet, hnone, hkeep hal.settings hdisk⟩

/-- **Start-up without a failure** gives a journal that represents the table. -/
theorem enablePersistence_live (hc : codec.Lawful) (h : Unjournaled codec pool path w) :
    Live codec pool path (finalState (World.enablePersistence codec path w)) := by
  rcases h.file with hfile | ⟨cursor, mappings, hfile, hms, hcursor⟩
  · -- a missing file is written from the live table
    rcases World.enablePersistence_cases codec path w with ⟨_, _, _, _, _, hnq, _⟩ |
      ⟨dns, repair, d, hs, hf, hq', hres⟩
    · exact absurd h.quiet hnq
    have htable := hs.fakeIpTable codec h.table
    generalize w.loadedMappings codec path = ms at hs
    cases hs with
    | incompatible hf' _ => cases hfile.symm.trans hf'
    | loaded hf' _ => cases hfile.symm.trans hf'
    | missing hf' =>
      rcases hres with ⟨hr, -⟩ | ⟨-, w', hok, hrw⟩ | ⟨-, e, w', -, hn⟩
      · cases hr
      · rw [hok]
        exact live_of_rewritten hc hrw (hrw.dns ▸ htable.journaled _) (hrw.dns ▸ h.storable)
          (hq' h.quiet)
      · exact absurd (hq' h.quiet) hn.planned
  · have hin := (h.table.contains_iff _).mp hcursor
    have hread := readable_journalText hc hin mappings
    obtain ⟨dns, d, records, hok, -, hf, hq, ht, hst, hset, hcur, hpeek, hp⟩ :=
      enablePersistence_readable h.table h.quiet hfile hread hms
    rw [hok]
    refine ⟨ht, hst, hq, ⟨_, hp, rfl, rfl⟩, cursor, mappings, ?_,
      ⟨⟨_, hf ▸ hfile, hread.of_settings hset⟩, ?_⟩, hset.restorable ▸ hms, hcursor,
      Or.inr ⟨0, ?_, nofun⟩⟩
    · show d.files path = some (journalText codec dns.networkAddr dns.broadcastAddr _ _)
      rw [hf, hset.network, hset.broadcast]
      exact hfile
    · show Replay.replay (dns.restored mappings) = dns.lruCache.peek
      rw [hset.restored, hpeek]
    · show dns.nextAddr = circular dns.networkAddr dns.broadcastAddr cursor 0
      rw [hcur, hset.network, hset.broadcast]
      exact (circular_zero h.table.family h.table.network_le hin).symm

end Run

/-! ## 7. Every run without failures -/

/-- The runs of processes over one journal, none of whose file operations fails. A process starts
    on a missing file or on the journal another one left (`false`), may serve names before it
    enables persistence, and serves names after it (`true`). -/
inductive JournalRun (codec : RecordCodec) (pool : IpCidr) (path : Str) : Bool → World → Prop
  | onMissing (d : Disk) (hq : d.Quiet) (hfile : d.files path = none) :
      JournalRun codec pool path false ⟨VirtualDns.new pool, d⟩
  | onJournal {w : World} (hw : JournalRun codec pool path true w) (d : Disk) (hq : d.Quiet)
      (hfile : d.files path = w.disk.files path) :
      JournalRun codec pool path false ⟨VirtualDns.new pool, d⟩
  | enable {w : World} (hw : JournalRun codec pool path false w) :
      JournalRun codec pool path true (finalState (World.enablePersistence codec path w))
  | serve {journal : Bool} {w w' : World} (hw : JournalRun codec pool path journal w)
      (hs : ServeNamed codec w w') : JournalRun codec pool path journal w'

section Results

variable {pool : IpCidr} {path : Str} {w : World}

/-- A new process on the journal of a live one. -/
theorem unjournaled_onJournal (h : Live codec pool path w)
    {d : Disk} (hq : d.Quiet) (hfile : d.files path = w.disk.files path) :
    Unjournaled codec pool path ⟨VirtualDns.new pool, d⟩ := by
  obtain ⟨cursor, mappings, htext, -, hms, hcur, -⟩ := h.file
  unfold World.Holds at htext
  rw [h.table.network, h.table.broadcast] at htext
  exact ⟨FakeIpTable.new pool, nofun, hq, rfl,
    Or.inr ⟨cursor, mappings, hfile.trans htext, h.table.settings.restorable ▸ hms, hcur⟩⟩

theorem journalRun_invariant (hc : codec.Lawful) {journal : Bool}
    (h : JournalRun codec pool path journal w) :
    if journal then Live codec pool path w else Unjournaled codec pool path w := by
  induction h with
  | onMissing d hq hfile => exact ⟨FakeIpTable.new pool, nofun, hq, rfl, Or.inl hfile⟩
  | onJournal _ d hq hfile ih => exact unjournaled_onJournal ih hq hfile
  | enable _ ih => exact enablePersistence_live hc ih
  | @serve journal w w' _ hs ih =>
    cases journal with
    | true => exact live_serveNamed hc ih hs
    | false => exact unjournaled_serveNamed ih hs

/-- A new process on the file of a live one has its table, and writes nothing. -/
theorem Live.reload (h : Live codec pool path w) {d : Disk} (hq : d.Quiet)
    (hfile : d.files path = w.disk.files path) :
    ∃ cursor mappings dns d',
      World.enablePersistence codec path ⟨VirtualDns.new pool, d⟩ =
        .ok dns.lruCache.len ⟨dns, d'⟩ ∧
      World.StartUp codec path ⟨VirtualDns.new pool, d⟩ mappings dns false ∧
      d'.files = d.files ∧ FakeIpTable pool dns ∧ w.dns.SameSettings dns ∧
      dns.nextAddr = cursor ∧ dns.lruCache.peek = w.dns.lruCache.peek ∧
      (w.Full pool ∨ w.Lags cursor) := by
  have hset := h.table.settings
  obtain ⟨cursor, mappings, -, ⟨⟨bytes, hb, hread⟩, hreplay⟩, hms, -, hlag⟩ := h.file
  have hms' : ∀ m ∈ mappings, (VirtualDns.new pool).restorable m = true := hset.restorable ▸ hms
  obtain ⟨dns, d', records, hok, hsu, hf, -, ht, -, hset', hcur, hpeek, -⟩ :=
    enablePersistence_readable (w := ⟨VirtualDns.new pool, d⟩) (FakeIpTable.new pool) hq
      (hfile.trans hb) (hread.of_settings hset) hms'
  refine ⟨cursor, mappings, dns, d', hok, hsu, hf, ht, ⟨hset'.trailingDot.trans hset.trailingDot,
    hset'.network.trans hset.network, hset'.broadcast.trans hset.broadcast⟩, hcur, ?_, hlag⟩
  rw [hpeek, ← hreplay]
  show Replay.replay ((VirtualDns.new pool).restored mappings) = _
  rw [hset.restored]

/-- **Replaying the journal gives the live state.** In every run without failures, a new process
    that loads the file reads a journal that needs no repair and leaves it alone, has the live
    address-to-name table, and, while the pool is not full, gives the next new name the address
    the live process would give it. -/
theorem journal_replay_eq_live (hc : codec.Lawful) (h : JournalRun codec pool path true w)
    {d : Disk} (hq : d.Quiet) (hfile : d.files path = w.disk.files path) :
    ∃ mappings dns d',
      World.enablePersistence codec path ⟨VirtualDns.new pool, d⟩ =
        .ok dns.lruCache.len ⟨dns, d'⟩ ∧
      World.StartUp codec path ⟨VirtualDns.new pool, d⟩ mappings dns false ∧
      d'.files = d.files ∧
      (∀ ip, dns.lruCache.peek ip = w.dns.lruCache.peek ip) ∧
      (¬ w.Full pool → ∀ name, (∀ a, w.dns.lruCache.peek a ≠ some (w.dns.canonicalName name)) →
        ∀ fuel, w.size ≤ fuel → ∃ ip w₁ w₂,
          World.findOrAllocateIp codec fuel name w = some (.ok ip w₁) ∧
          World.findOrAllocateIp codec fuel name ⟨dns, d'⟩ = some (.ok ip w₂)) := by
  have hlive : Live codec pool path w := journalRun_invariant hc h
  obtain ⟨cursor, mappings, dns, d', hok, hsu, hf, ht, hset, hcur, htable, hlag⟩ :=
    hlive.reload hq hfile
  refine ⟨mappings, dns, d', hok, hsu, hf, congrFun htable, ?_⟩
  intro hfull name hnew fuel hfuel
  have hlag : w.Lags cursor := hlag.resolve_left hfull
  have hsize : World.size ⟨dns, d'⟩ = w.size := by
    show poolSize dns.networkAddr dns.broadcastAddr = _
    rw [hset.network, hset.broadcast]
    rfl
  have hscan : ∀ k, World.scan ⟨dns, d'⟩ k =
      circular w.dns.networkAddr w.dns.broadcastAddr cursor k := by
    intro k
    show circular dns.networkAddr dns.broadcastAddr dns.nextAddr k = _
    rw [hset.network, hset.broadcast, hcur]
  have hfree : ∀ x, World.Free ⟨dns, d'⟩ x ↔ w.Free x := by
    intro x
    show dns.lruCache.peek x = none ↔ w.dns.lruCache.peek x = none
    rw [htable]
  -- both allocations end at a free address, the first one of their scans
  obtain ⟨i, w₁, h1, hi, hi'⟩ := findOrAllocateIp_fresh hlive.table hfull hnew hfuel
  have hnew_alloc : ∃ i w₂, World.findOrAllocateIp codec fuel name ⟨dns, d'⟩ =
      some (.ok (World.scan ⟨dns, d'⟩ i) w₂) ∧ World.Free ⟨dns, d'⟩ (World.scan ⟨dns, d'⟩ i) ∧
        ∀ j < i, ¬ World.Free ⟨dns, d'⟩ (World.scan ⟨dns, d'⟩ j) := by
    refine findOrAllocateIp_fresh (w := ⟨dns, d'⟩) ht ?_ ?_ (by rw [hsize]; exact hfuel)
    · exact fun hf' => hfull fun x hx hfx => hf' x hx ((hfree x).mpr hfx)
    · intro a
      show dns.lruCache.peek a ≠ some (dns.canonicalName name)
      rw [htable, hset.canonicalName]
      exact hnew a
  obtain ⟨j, w₂, h2, hj, hj'⟩ := hnew_alloc
  refine ⟨w.scan i, w₁, w₂, h1, ?_⟩
  rw [h2, hscan, first_free_of_lags hlive.table hlag hi hi']
  · rw [← hscan]
    exact (hfree _).mp hj
  · intro t ht' hft
    rw [← hscan] at hft
    exact hj' t ht' ((hfree _).mpr hft)

end Results

end Codec

theorem sampleStart_journalRun : JournalRun Json.jsonCodec samplePool samplePath true sampleStart :=
  .enable (.onMissing sampleDisk rfl rfl)

/-- The journal of the sample resolver brings its first mapping back. -/
theorem sample_journal_replay_eq_live :
    ∃ w, JournalRun Json.jsonCodec samplePool samplePath true w ∧
      ∃ dns d', World.enablePersistence Json.jsonCodec samplePath
          ⟨VirtualDns.new samplePool, w.disk⟩ = .ok dns.lruCache.len ⟨dns, d'⟩ ∧
        dns.lruCache.peek (.v4 0xC6120001#32) = some "a.example".toList := by
  obtain ⟨w, hw, hp⟩ := sampleStart_allocates
  have hrun := sampleStart_journalRun.serve (.allocate (by decide) (by decide) hw)
  have hlive : Live Json.jsonCodec samplePool samplePath w :=
    journalRun_invariant Json.jsonCodec_lawful hrun
  obtain ⟨_, dns, d', hok, -, -, htable, -⟩ :=
    journal_replay_eq_live Json.jsonCodec_lawful hrun hlive.quiet rfl
  exact ⟨w, hrun, dns, d', hok, (htable _).trans hp⟩

end Tun2Proxy
