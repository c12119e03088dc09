/-
  File:      Tun2Proxy/VirtualDns/Faults.lean
  Subject:   The dirty flag when file operations fail.

  Any file operation may fail, at start-up and at every later call. The cache is marked dirty
  when a mapping could not be written, and a dirty cache is rewritten instead of appended to. So
  a clean cache should mean that the file can be appended to: it is absent or empty, or it
  represents the live table (`Faithful`).

  Every later call keeps this (`faithful_serveNamed`). Start-up does not: `enable_persistence`
  returns the error of its rewrite and leaves the cache clean. A file that it could not read, and
  could not replace, is then appended to (`dirtyFlag_misses_startUp`). When the start-up leaves a
  file that can be appended to, the flag is right in every later state (`dirtyFlag_sound`).
-/
import Mathlib.Logic.Relation
import Tun2Proxy.VirtualDns.Journal

namespace Tun2Proxy

open Lines

section Codec

variable {codec : RecordCodec}

/-! ## 1. What a clean cache stands for -/

/-- A line that is not text makes the load repair the file. -/
theorem loadMappings_repair {ls : List (Option (List UInt8))} (h : none ∈ ls) :
    ∀ (records : Nat) (mappings : List (IpAddr × Str)) (repair : Bool),
      (loadMappings codec ls records mappings repair).2.2 = true := by
  induction ls with
  | nil => cases h
  | cons l ls ih =>
    intro records mappings repair
    cases l with
    | none => rfl
    | some line =>
      have ih := ih (by simpa using h)
      simp only [loadMappings]
      split
      · exact ih _ _ _
      · split <;> exact ih _ _ _

/-- A journal that needs no repair is all text. -/
theorem text_of_no_repair {network broadcast cursor : IpAddr} {ls : List (Option (List UInt8))}
    {mappings : List (IpAddr × Str)} {records : Nat}
    (h : PersistentCache.loadLines codec network broadcast ls =
      (.loaded cursor mappings false, records)) : none ∉ ls := by
  intro hn
  unfold PersistentCache.loadLines at h
  cases ls with
  | nil => cases hn
  | cons l ls =>
    cases l with
    | none => simp at h
    | some line =>
      have hrepair : (loadMappings codec ls 0 [] false).2.2 = true :=
        loadMappings_repair (by simpa using hn) _ _ _
      cases hh : headerCursor codec network broadcast line with
      | none => simp [hh] at h
      | some c =>
        simp only [hh, Prod.mk.injEq, LoadResult.loaded.injEq] at h
        rw [h.1.2.2] at hrepair
        cases hrepair

/-- The file at `path` can take the next record: there is none yet, or it represents the table. -/
def World.Appendable (codec : RecordCodec) (path : Str) (w : World) : Prop :=
  w.disk.files path = none ∨ w.disk.files path = some [] ∨
    ∃ cursor mappings repair, w.Represents codec path cursor mappings repair

/-- The invariant of a resolver whose file operations may fail: a clean cache has a file that can
    be appended to. -/
structure Faithful (codec : RecordCodec) (pool : IpCidr) (path : Str) (w : World) : Prop where
  table : FakeIpTable pool w.dns
  storable : w.dns.Storable
  journal : ∀ p, w.dns.persistence = some p → p.path = path ∧
    (p.dirty = false → w.Appendable codec path)

section Run

variable {pool : IpCidr} {path : Str} {w w' : World}

/-- Being appendable depends on the file, the settings and the mappings. -/
theorem World.Appendable.of_same (h : w.Appendable codec path) (hdisk : w'.disk = w.disk)
    (hset : w.dns.SameSettings w'.dns) (hpeek : w'.dns.lruCache.peek = w.dns.lruCache.peek) :
    w'.Appendable codec path := by
  unfold World.Appendable
  rw [hdisk]
  rcases h with h | h | ⟨cursor, mappings, repair, ⟨bytes, hb, hread⟩, htable⟩
  · exact Or.inl h
  · exact Or.inr (Or.inl h)
  · refine Or.inr (Or.inr ⟨cursor, mappings, repair,
      ⟨bytes, hdisk ▸ hb, hread.of_settings hset⟩, ?_⟩)
    rw [hset.restored, hpeek]
    exact htable

/-- **One call keeps the flag right**, whatever fails. -/
theorem faithful_serveNamed (hc : codec.Lawful) (h : Faithful codec pool path w)
    (hs : ServeNamed codec w w') : Faithful codec pool path w' := by
  rcases serveNamed_cases h.table hs with ⟨ip, rfl⟩ | ⟨name, ip, hal, hcanon, hrest⟩
  · have hpeek : (w.dns.touchIp ip).lruCache.peek = w.dns.lruCache.peek :=
      funext fun x => LruCache.peek_touch _ _ _
    refine ⟨h.table.touched ip, fun x n hx => h.storable x n (hpeek ▸ hx), fun p hp => ?_⟩
    obtain ⟨hpath, hclean⟩ := h.journal p hp
    exact ⟨hpath, fun hd => (hclean hd).of_same rfl ⟨rfl, rfl, rfl⟩ hpeek⟩
  have htable := hal.fakeIpTable codec h.table hcanon
  have hstorable := hal.storable h.table h.storable hrest
  refine ⟨htable, hstorable, fun p' hp' => ?_⟩
  cases hp : w.dns.persistence with
  | none => cases (hal.unjournaled hp).2.symm.trans hp'
  | some p =>
    obtain ⟨rfl, hclean⟩ := h.journal p hp
    cases hal.journal hp with
    | idle hd hp₁ hdisk hpeek =>
      cases hp₁.symm.trans hp'
      exact ⟨rfl, fun _ => (hclean hd).of_same hdisk hal.settings hpeek⟩
    | rewritten hdisk hr =>
      rw [hr.dns] at hp'
      cases hp'
      exact ⟨rfl, fun _ => Or.inr (Or.inr ⟨_, _, _, hr.represents hc htable hstorable⟩)⟩
    | appended hnew hd hp₁ hbytes hne hfile _ =>
      cases hp₁.symm.trans hp'
      refine ⟨rfl, fun _ => Or.inr (Or.inr ?_)⟩
      -- an append is made to a file that is there and not empty only
      rcases hclean hd with hnone | hempty | ⟨cursor, mappings, repair, hrep⟩
      · cases hbytes.symm.trans hnone
      · cases hbytes.symm.trans hempty
        exact absurd rfl hne
      · exact ⟨_, _, _, hrep.append hc hal.settings hbytes hfile hrest hcanon
          (hal.peek_assign h.table hnew)⟩
    | dirty _ hp₁ =>
      cases hp₁.symm.trans hp'
      exact ⟨rfl, nofun⟩

theorem faithful_run (hc : codec.Lawful) (h : Faithful codec pool path w)
    (hr : Relation.ReflTransGen (ServeNamed codec) w w') : Faithful codec pool path w' := by
  induction hr with
  | refl => exact h
  | tail _ hs ih => exact faithful_serveNamed hc ih hs

end Run

/-! ## 2. Start-up -/

/-- What a start-up that returned an error leaves: no journal, or a file that can be appended to,
    because there is none yet or because it is a journal of the pool and all text. -/
def StartUpRecovers (codec : RecordCodec) (path : Str) : EStateM.Result Error World Nat → Prop
  | .ok _ _ => True
  | .error _ w => w.dns.persistence = none ∨ w.disk.files path = none ∨
      w.disk.files path = some [] ∨
      ∃ bytes cursor mappings repair records, w.disk.files path = some bytes ∧
        none ∉ lines bytes ∧
        PersistentCache.loadLines codec w.dns.networkAddr w.dns.broadcastAddr (lines bytes) =
          (.loaded cursor mappings repair, records)

section StartUp

variable {pool : IpCidr} {path : Str} {w w' : World} {dns : VirtualDns} {repair : Bool}
  {mappings : List (IpAddr × Str)}

theorem World.StartUp.storable (hsu : StartUp codec path w mappings dns repair)
    (h : FakeIpTable pool w.dns) (hs : w.dns.Storable) : dns.Storable := by
  cases hsu with
  | missing hfile => exact hs
  | incompatible hfile hload => exact nofun
  | loaded hfile hload => exact (restoreMappings_loaded h hload).2.1

theorem World.StartUp.persistence (hsu : StartUp codec path w mappings dns repair) :
    ∃ records, dns.persistence = some ⟨path, records, false⟩ := by
  cases hsu with
  | missing | incompatible | loaded => exact ⟨_, rfl⟩

theorem World.StartUp.settings (hsu : StartUp codec path w mappings dns repair)
    (h : FakeIpTable pool w.dns) : w.dns.SameSettings dns := by
  cases hsu with
  | missing | incompatible => exact ⟨rfl, rfl, rfl⟩
  | loaded hfile hload =>
    have hset := (restoreMappings_loaded h hload).2.2.1
    exact ⟨hset.trailingDot, hset.network, hset.broadcast⟩

/-- **A start-up that reads a journal of the pool, all text, has the table of the file**, whether
    or not the file is repaired. -/
theorem World.StartUp.represents (hsu : StartUp codec path w mappings dns repair)
    (h : FakeIpTable pool w.dns) {bytes : List UInt8} {cursor : IpAddr}
    {mappings' : List (IpAddr × Str)} {repair' : Bool} {records : Nat}
    (hfile : w.disk.files path = some bytes) (hterm : Terminated bytes)
    (htext : none ∉ lines bytes)
    (hload : PersistentCache.loadLines codec w.dns.networkAddr w.dns.broadcastAddr (lines bytes) =
      (.loaded cursor mappings' repair', records)) {d : Disk} (hd : d.files path = some bytes) :
    World.Represents codec path ⟨dns, d⟩ cursor mappings' repair' := by
  have hset := hsu.settings h
  refine ⟨⟨bytes, hd, Readable.of_settings hset ⟨hterm, htext, _, hload⟩⟩, ?_⟩
  show Replay.replay (dns.restored mappings') = dns.lruCache.peek
  rw [hset.restored]
  cases hsu with
  | missing hfile' => cases hfile.symm.trans hfile'
  | incompatible hfile' hload' =>
    cases hfile.symm.trans hfile'
    cases hload.symm.trans hload'
  | loaded hfile' hload' =>
    cases hfile.symm.trans hfile'
    cases hload.symm.trans hload'
    exact (restoreMappings_loaded h hload).2.2.2.2.1.symm

/-- A start-up that finds nothing to repair found a journal of the pool, all text. -/
theorem World.StartUp.readable (hsu : StartUp codec path w mappings dns false)
    (h : FakeIpTable pool w.dns) :
    ∃ bytes cursor mappings' repair' records, w.disk.files path = some bytes ∧
      none ∉ lines bytes ∧
      PersistentCache.loadLines codec w.dns.networkAddr w.dns.broadcastAddr (lines bytes) =
        (.loaded cursor mappings' repair', records) := by
  generalize hrep : false = r at hsu
  cases hsu with
  | missing | incompatible => cases hrep
  | @loaded bytes cursor _ repair records hfile hload =>
    have hnone := (restoreMappings_loaded h hload).2.2.2.2.2
    rw [← hrep] at hnone
    obtain ⟨rfl, -⟩ := Bool.or_eq_false_iff.mp hnone.symm
    exact ⟨bytes, cursor, _, false, records, hfile, text_of_no_repair hload, hload⟩

/-- What a start-up leaves, if one that failed left a file that can be appended to. -/
inductive Started (codec : RecordCodec) (path : Str) (w : World) : World → Prop
  /-- The file could not be opened: there is still no journal. -/
  | closed {w' : World} (hdns : w'.dns = w.dns) : Started codec path w w'
  /-- A journal of the pool, all text, is still there. -/
  | kept {ms dns repair d bytes cursor ms' repair' records : _}
      (hsu : World.StartUp codec path w ms dns repair) (hold : w.disk.files path = some bytes)
      (hfile : d.files path = some bytes) (htext : none ∉ lines bytes)
      (hload : PersistentCache.loadLines codec w.dns.networkAddr w.dns.broadcastAddr
        (lines bytes) = (.loaded cursor ms' repair', records)) : Started codec path w ⟨dns, d⟩
  /-- The rewrite failed, and the cache is clean all the same. -/
  | bare {ms dns repair d : _} (hsu : World.StartUp codec path w ms dns repair)
      (hfile : d.files path = none ∨ d.files path = some []) : Started codec path w ⟨dns, d⟩
  | rewritten {ms dns repair d w' : _} (hsu : World.StartUp codec path w ms dns repair)
      (hrw : World.Rewritten codec path ⟨dns, d⟩ w') : Started codec path w w'

theorem started_enablePersistence (h : FakeIpTable pool w.dns)
    (hleft : StartUpRecovers codec path (World.enablePersistence codec path w)) :
    Started codec path w (finalState (World.enablePersistence codec path w)) := by
  rcases World.enablePersistence_cases codec path w with ⟨e, w', he, hdns, -, -, -⟩ |
    ⟨dns, repair, d, hsu, hf, -, hres⟩
  · rw [he]
    exact .closed hdns
  rcases hres with ⟨rfl, hok⟩ | ⟨-, w', hok, hrw⟩ | ⟨-, e, w', he, hn⟩
  · rw [hok]
    obtain ⟨bytes, cursor, ms, repair, records, hfile, htext, hload⟩ := hsu.readable h
    exact .kept hsu hfile (hf ▸ hfile) htext hload
  · rw [hok]
    exact .rewritten hsu hrw
  · rw [he] at hleft ⊢
    obtain ⟨dns', d'⟩ := w'
    obtain rfl : dns' = dns := hn.dns
    obtain ⟨n, hpers⟩ := hsu.persistence
    have hset := hsu.settings h
    rcases hleft with hnone | hnone | hempty | ⟨bytes, cursor, ms, repair, records, hfile, htext,
      hload⟩
    · cases hpers.symm.trans hnone
    · exact .bare hsu (Or.inl hnone)
    · exact .bare hsu (Or.inr hempty)
    · have hold : w.disk.files path = some bytes := by
        rcases hn.old with hkept | hgone
        · rw [← hfile, ← hf]
          exact hkept.symm
        · cases hfile.symm.trans hgone
      rw [show World.dns ⟨dns', d'⟩ = dns' from rfl, hset.network, hset.broadcast] at hload
      exact .kept hsu hold hfile htext hload

/-- **The flag is right after a start-up** on a file of whole lines, if a start-up that failed left
    a file that can be appended to. -/
theorem faithful_enablePersistence (hc : codec.Lawful) (h : FakeIpTable pool w.dns)
    (hs : w.dns.Storable) (hp : w.dns.persistence = none)
    (hterm : ∀ bytes, w.disk.files path = some bytes → Terminated bytes)
    (hleft : StartUpRecovers codec path (World.enablePersistence codec path w)) :
    Faithful codec pool path (finalState (World.enablePersistence codec path w)) := by
  have hstarted := started_enablePersistence h hleft
  generalize finalState _ = w' at hstarted ⊢
  cases hstarted with
  | closed hdns =>
    refine ⟨hdns ▸ h, hdns ▸ hs, fun p hp' => ?_⟩
    cases hp'.symm.trans ((congrArg VirtualDns.persistence hdns).trans hp)
  | kept hsu hold hfile htext hload =>
    refine ⟨hsu.fakeIpTable codec h, hsu.storable h hs, fun p hp' => ?_⟩
    obtain ⟨n, hpers⟩ := hsu.persistence
    cases hpers.symm.trans hp'
    exact ⟨rfl, fun _ => Or.inr (Or.inr ⟨_, _, _,
      hsu.represents h hold (hterm _ hold) htext hload hfile⟩)⟩
  | bare hsu hfile =>
    refine ⟨hsu.fakeIpTable codec h, hsu.storable h hs, fun p hp' => ?_⟩
    obtain ⟨n, hpers⟩ := hsu.persistence
    cases hpers.symm.trans hp'
    exact ⟨rfl, fun _ => hfile.imp_right Or.inl⟩
  | rewritten hsu hrw =>
    have ht' : FakeIpTable pool w'.dns := hrw.dns ▸ (hsu.fakeIpTable codec h).journaled _
    have hs' : w'.dns.Storable := by rw [hrw.dns]; exact hsu.storable h hs
    refine ⟨ht', hs', fun p hp' => ?_⟩
    rw [hrw.dns] at hp'
    cases hp'
    exact ⟨rfl, fun _ => Or.inr (Or.inr ⟨_, _, _, hrw.represents hc ht' hs'⟩)⟩

end StartUp

/-! ## 3. Every run with failures -/

/-- A new process of the pool that loads the file at `path` has the table of `w`. -/
def World.Reloads (codec : RecordCodec) (pool : IpCidr) (path : Str) (w : World) : Prop :=
  ∀ d : Disk, d.Quiet → d.files path = w.disk.files path →
    ∃ n w', World.enablePersistence codec path ⟨VirtualDns.new pool, d⟩ = .ok n w' ∧
      ∀ ip, w'.dns.lruCache.peek ip = w.dns.lruCache.peek ip

section Results

variable {pool : IpCidr} {path : Str} {w : World}

theorem World.Represents.reloads {cursor : IpAddr} {mappings : List (IpAddr × Str)}
    {repair : Bool} (h : w.Represents codec path cursor mappings repair)
    (ht : FakeIpTable pool w.dns) : w.Reloads codec pool path := by
  intro d hq hd
  obtain ⟨⟨bytes, hb, hread⟩, htable⟩ := h
  obtain ⟨records, hload⟩ := (hread.of_settings ht.settings).loads
  obtain ⟨dns, d', -, -, -, -, -, -, -, hpeek, -, hres⟩ :=
    enablePersistence_loaded (w := ⟨VirtualDns.new pool, d⟩) (FakeIpTable.new pool) hq
      (hd.trans hb) hload
  have hsame : dns.lruCache.peek = w.dns.lruCache.peek := by
    rw [hpeek, ← htable, ← ht.settings.restored]
  rcases hres with ⟨-, hok⟩ | ⟨-, w', hok, hrw⟩
  · exact ⟨_, _, hok, congrFun hsame⟩
  · exact ⟨_, w', hok, hrw.dns ▸ congrFun hsame⟩

/-- **The dirty flag is sound when file operations fail.** A process starts on a file that is
    missing or made of whole lines, any of its file operations may fail, and a start-up that
    failed left a file that can be appended to. Then in every later state a clean cache has no
    file, an empty one, or one that reloads to the live table; and an append is chosen only for
    a file that reloads to the live table. -/
theorem dirtyFlag_sound (hc : codec.Lawful) {d : Disk}
    (hterm : ∀ bytes, d.files path = some bytes → Terminated bytes)
    (hstart : StartUpRecovers codec path
      (World.enablePersistence codec path ⟨VirtualDns.new pool, d⟩))
    (hrun : Relation.ReflTransGen (ServeNamed codec)
      (finalState (World.enablePersistence codec path ⟨VirtualDns.new pool, d⟩)) w)
    {p : PersistentCache} (hp : w.dns.persistence = some p) :
    p.path = path ∧
      (p.dirty = false → w.disk.files path = none ∨ w.disk.files path = some [] ∨
        w.Reloads codec pool path) ∧
      ∀ d', p.needsRewrite w.disk = .ok false d' → w.Reloads codec pool path := by
  have hnew : (VirtualDns.new pool).Storable := nofun
  have hfaithful := faithful_run hc
    (faithful_enablePersistence hc (FakeIpTable.new pool) hnew rfl hterm hstart) hrun
  obtain ⟨rfl, hclean⟩ := hfaithful.journal p hp
  have hflag : p.dirty = false → w.disk.files p.path = none ∨ w.disk.files p.path = some [] ∨
      w.Reloads codec pool p.path := fun hd =>
    (hclean hd).imp_right (Or.imp_right fun ⟨_, _, _, hrep⟩ => hrep.reloads hfaithful.table)
  refine ⟨rfl, hflag, fun d' hneeds => ?_⟩
  obtain ⟨-, -, -, hiff⟩ := (p.needsRewrite_spec w.disk).ok hneeds
  obtain ⟨hd, bytes, hbytes, hne⟩ := hiff.mp rfl
  rcases hflag hd with hnone | hempty | hreloads
  · cases hbytes.symm.trans hnone
  · cases hbytes.symm.trans hempty
    exact absurd rfl hne
  · exact hreloads

end Results

end Codec

/-! ## 4. A start-up that fails on an unreadable file -/

/-- A line that is no record. -/
def brokenText : List UInt8 := [120, newline]

/-- The file can be opened, and the temporary file that is to replace it cannot be created. -/
def refusingDisk (text : List UInt8) : Disk :=
  { sampleDisk.setFile samplePath (some text) with plan := [.ok, .ok, .fail 0] }

def brokenDisk : Disk := refusingDisk brokenText

/-- Whatever is appended to it, the text is not a journal. -/
theorem loadLines_brokenText (rest : List UInt8) :
    PersistentCache.loadLines Json.jsonCodec samplePool.firstAddress samplePool.lastAddress
      (lines (brokenText ++ rest)) = (.incompatible, 0) := by
  have hvalid : validUtf8 [120] = true := by
    rw [validUtf8_iff]
    exact ⟨['x'], rfl⟩
  have hdecode : Json.jsonCodec.decode [120] = none := by
    have h := Json.decode_asBytes ['x']
    rw [show Json.readRecord ['x'] = none by decide] at h
    exact h
  have hlines : lines (brokenText ++ rest) = some [120] :: lines rest :=
    lines_cons (by decide) (by decide) hvalid rest
  rw [hlines]
  simp only [PersistentCache.loadLines, headerCursor, hdecode]

/-- The state after the failed start-up: the file is as it was, and the cache is clean. -/
def brokenStart : World :=
  ⟨{ VirtualDns.new samplePool with
      nextAddr := sampleIp
      persistence := some ⟨samplePath, 0, false⟩ },
    sampleDisk.setFile samplePath (some brokenText)⟩

/-- A start-up that takes the file for no journal and cannot replace it. -/
theorem enablePersistence_refused {text : List UInt8}
    (hload : PersistentCache.loadLines Json.jsonCodec samplePool.firstAddress
      samplePool.lastAddress (lines text) = (.incompatible, 0)) :
    World.enablePersistence Json.jsonCodec samplePath
        ⟨VirtualDns.new samplePool, refusingDisk text⟩ =
      .error (.ofKind .other) ⟨brokenStart.dns, sampleDisk.setFile samplePath (some text)⟩ := by
  have hopen : Disk.openFile samplePath (refusingDisk text) =
      .ok text { refusingDisk text with plan := [.ok, .fail 0] } := rfl
  have hread : (PersistentCache.new samplePath).load Json.jsonCodec samplePool.firstAddress
      samplePool.lastAddress (refusingDisk text) = .ok (.incompatible, ⟨samplePath, 0, false⟩)
        { refusingDisk text with plan := [.ok, .fail 0] } := by
    simp only [PersistentCache.load, PersistentCache.new, hopen, hload]
  unfold World.enablePersistence
  simp only [show (VirtualDns.new samplePool).networkAddr = samplePool.firstAddress from rfl,
    show (VirtualDns.new samplePool).broadcastAddr = samplePool.lastAddress from rfl, hread]
  rfl

theorem enablePersistence_brokenDisk :
    World.enablePersistence Json.jsonCodec samplePath ⟨VirtualDns.new samplePool, brokenDisk⟩ =
      .error (.ofKind .other) brokenStart := by
  have hload := loadLines_brokenText []
  rw [List.append_nil] at hload
  exact enablePersistence_refused hload

/-- After it, the next name is appended to the file. -/
theorem refused_appends {text : List UInt8} (hne : text ≠ []) :
    ∃ w, World.findOrAllocateIp Json.jsonCodec 2 sampleName
        ⟨brokenStart.dns, sampleDisk.setFile samplePath (some text)⟩ = some (.ok sampleIp w) ∧
      w.dns.persistence = some ⟨samplePath, 1, false⟩ ∧
      w.dns.lruCache.peek sampleIp = some sampleName ∧ w.dns.lruCache.len = 1 ∧
      w.disk.files samplePath = some (text ++
        recordLine Json.jsonCodec (.mapping sampleIp sampleName)) := by
  have happ := World.persistMapping_appends Json.jsonCodec
    (w := ⟨brokenStart.dns.bindMapping sampleIp sampleName,
      sampleDisk.setFile samplePath (some text)⟩)
    (p := ⟨samplePath, 0, false⟩) rfl rfl rfl (Disk.setFile_self _ _ _) hne sampleIp sampleName
    (PersistentCache.shouldCompact_of_lt Json.jsonCodec (by decide) _)
  obtain ⟨bytes, hbytes, -, hfile⟩ := happ.file
  cases hbytes.symm.trans (Disk.setFile_self _ _ _)
  refine ⟨World.persistMapping Json.jsonCodec sampleIp sampleName
    ⟨brokenStart.dns.bindMapping sampleIp sampleName, sampleDisk.setFile samplePath (some text)⟩,
    rfl, happ.dns ▸ rfl, happ.dns ▸ rfl, happ.dns ▸ rfl, hfile⟩

/-- **A start-up that cannot replace an unreadable file leaves the flag wrong.** The file is a line
    that is no record, and the rewrite of the start-up fails. The next allocation is appended
    behind the unreadable line; the cache is clean, and a new process restores nothing. -/
theorem dirtyFlag_misses_startUp :
    ∃ w, Terminated brokenText ∧ brokenDisk.files samplePath = some brokenText ∧
      ServeNamed Json.jsonCodec (finalState (World.enablePersistence Json.jsonCodec samplePath
        ⟨VirtualDns.new samplePool, brokenDisk⟩)) w ∧
      (∃ p, w.dns.persistence = some p ∧ p.dirty = false) ∧
      w.disk.files samplePath ≠ none ∧ w.disk.files samplePath ≠ some [] ∧
      ¬ w.Reloads Json.jsonCodec samplePool samplePath := by
  obtain ⟨w, hok, hp, hpeek, -, hfile⟩ := refused_appends (show brokenText ≠ [] from nofun)
  refine ⟨w, Or.inr ⟨[120], rfl⟩, rfl, ?_, ⟨_, hp, rfl⟩, ?_, ?_, ?_⟩
  · rw [enablePersistence_brokenDisk]
    exact .allocate (by decide) (by decide) hok
  · rw [hfile]
    exact Option.some_ne_none _
  · rw [hfile]
    simp [brokenText]
  · intro hreloads
    -- a new process finds no journal and starts with an empty table
    let d : Disk := sampleDisk.setFile samplePath (w.disk.files samplePath)
    have hd : d.files samplePath = w.disk.files samplePath := Disk.setFile_self _ _ _
    obtain ⟨n, w', hok', htable⟩ := hreloads d rfl hd
    have hempty : w'.dns.lruCache.peek sampleIp = none := by
      rcases World.enablePersistence_sameTable Json.jsonCodec samplePath
        ⟨VirtualDns.new samplePool, d⟩ with ⟨hdns, -⟩ | ⟨dns, repair, hsu, hsame⟩
      · rw [hok'] at hdns
        rw [show w'.dns = VirtualDns.new samplePool from hdns]
        rfl
      · rw [hok'] at hsame
        have hdns : dns.lruCache.peek sampleIp = none := by
          generalize World.loadedMappings _ _ _ = ms at hsu
          cases hsu with
          | missing _ => rfl
          | incompatible _ _ => rfl
          | loaded hf hload =>
            cases (hd.trans hfile).symm.trans hf
            cases (loadLines_brokenText _).symm.trans hload
        rw [show w'.dns = _ from hsame]
        exact hdns
    rw [htable, hpeek] at hempty
    cases hempty

/-- No file, and the start-up cannot create the temporary one. -/
def faultyDisk : Disk := { sampleDisk with plan := [.ok, .ok, .fail 0] }

set_option maxRecDepth 8000 in
/-- The first name makes a journal, and the second one is appended to it. -/
theorem faultyDisk_start :
    ∃ e w₁ w w₂, World.enablePersistence Json.jsonCodec samplePath
        ⟨VirtualDns.new samplePool, faultyDisk⟩ = .error e w₁ ∧
      w₁.disk.files samplePath = none ∧ w₁.dns.canonicalName sampleName = sampleName ∧
      World.findOrAllocateIp Json.jsonCodec 2 sampleName w₁ = some (.ok sampleIp w) ∧
      w.dns.persistence = some ⟨samplePath, 1, false⟩ ∧
      w.disk.files samplePath = some (journalText Json.jsonCodec samplePool.firstAddress
        samplePool.lastAddress sampleIp [(sampleIp, sampleName)]) ∧
      w.dns.nameToIp.lookup (w.dns.canonicalName "b.example".toList) = none ∧
      World.findOrAllocateIp Json.jsonCodec 2 "b.example".toList w =
        some (.ok samplePool.firstAddress w₂) ∧
      w₂.dns.persistence = some ⟨samplePath, 2, false⟩ :=
  ⟨_, _, _, _, rfl, rfl, by decide, rfl, rfl, rfl, rfl, rfl, rfl⟩

/-- After a start-up that failed on a missing file, the first name is in a journal that reloads. -/
theorem sample_dirtyFlag_sound :
    ∃ w, ServeNamed Json.jsonCodec (finalState (World.enablePersistence Json.jsonCodec samplePath
        ⟨VirtualDns.new samplePool, faultyDisk⟩)) w ∧
      w.dns.persistence = some ⟨samplePath, 1, false⟩ ∧
      w.Reloads Json.jsonCodec samplePool samplePath := by
  obtain ⟨e, w₁, w, -, he, hnone, hcanon, hok, hp, hfile, -⟩ := faultyDisk_start
  have hserve : ServeNamed Json.jsonCodec (finalState (World.enablePersistence Json.jsonCodec
      samplePath ⟨VirtualDns.new samplePool, faultyDisk⟩)) w := by
    rw [he]
    exact ServeNamed.allocate (w := w₁) (by rw [hcanon]; decide) (by rw [hcanon]; decide) hok
  have hstart : StartUpRecovers Json.jsonCodec samplePath (World.enablePersistence Json.jsonCodec
      samplePath ⟨VirtualDns.new samplePool, faultyDisk⟩) := by
    rw [he]
    exact Or.inr (Or.inl hnone)
  obtain ⟨-, hflag, -⟩ := dirtyFlag_sound Json.jsonCodec_lawful
    (fun bytes hb => by cases hb) hstart (.single hserve) hp
  refine ⟨w, hserve, hp, ?_⟩
  rcases hflag rfl with h | h | h
  · cases hfile.symm.trans h
  · exact absurd (Option.some.inj (hfile.symm.trans h)) (journalText_ne_nil _ _ _ _)
  · exact h

end Tun2Proxy
