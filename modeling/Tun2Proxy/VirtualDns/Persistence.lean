/-
  File:      Tun2Proxy/VirtualDns/Persistence.lean
  Subject:   The journal file of the fake-IP table (src/virtual_dns/persistence.rs).

  The journal is a text file of one JSON record a line: a header, then mappings. `load` reads it,
  `append_mapping` adds a record at its end, `rewrite` replaces the whole file through a temporary
  one. Every call goes through the operating system, which may refuse it at any point:

  * `Disk` is the file system with the answers it will give: `plan` holds the outcome of every
    coming file operation, and an operation after the end of the plan succeeds. A statement about
    every plan is a statement about every pattern of failures; a run without failures has the
    empty plan (`Quiet`).
  * A failed write leaves any prefix of what was written (`kept`), a failed replacement leaves
    the destination as it was, or absent on Windows, where it is removed first.
  * `RecordCodec` stands for `serde_json` on the two record types; `Lawful` names what the code
    relies on.

  `rewrite_spec`, `appendMapping_spec` and `needsRewrite_spec` say, for every disk, what each
  operation can do; nothing later looks into them again.
-/
import Mathlib.Logic.Function.Basic
import Tun2Proxy.Lib.Fallible
import Tun2Proxy.Lib.Lines
import Tun2Proxy.Net.IpAddr
import Tun2Proxy.Str

namespace Tun2Proxy

open Fallible Lines

/-! ## 1. The file system -/

/-- What the operating system answers to one file operation. A failed write keeps `kept` bytes
    of what was to be written; other operations ignore the number. -/
inductive IoOutcome where
  | ok
  | fail (kept : Nat)
  deriving DecidableEq, Repr

structure Disk where
  /-- `cfg(target_os = "windows")`. -/
  windows : Bool
  files : Str → Option (List UInt8)
  plan : List IoOutcome

abbrev Fs := EStateM Error Disk

namespace Disk

/-- No operation is going to fail. -/
def Quiet (d : Disk) : Prop := d.plan = []

/-- The answer to the next operation. -/
def poll (d : Disk) : IoOutcome × Disk :=
  match d.plan with
  | [] => (.ok, d)
  | o :: os => (o, { d with plan := os })

def setFile (d : Disk) (path : Str) (content : Option (List UInt8)) : Disk :=
  { d with files := Function.update d.files path content }

/-- `File::open`, with the bytes the reader is going to deliver. -/
def openFile (path : Str) : Fs (List UInt8) := fun d =>
  match d.poll with
  | (.fail _, d) => .error (.ofKind .other) d
  | (.ok, d) =>
    match d.files path with
    | some bytes => .ok bytes d
    | none => .error (.ofKind .notFound) d

/-- The length of `Path::metadata`. -/
def metadataLen (path : Str) : Fs Nat := fun d =>
  match d.poll with
  | (.fail _, d) => .error (.ofKind .other) d
  | (.ok, d) =>
    match d.files path with
    | some bytes => .ok bytes.length d
    | none => .error (.ofKind .notFound) d

/-- `Path::exists`: an error counts as absent. -/
def pathExists (path : Str) : Fs Bool := fun d =>
  match d.poll with
  | (.fail _, d) => .ok false d
  | (.ok, d) => .ok (d.files path).isSome d

/-- `OpenOptions::new().create(true).append(true).open`. -/
def openAppend (path : Str) : Fs Unit := fun d =>
  match d.poll with
  | (.fail _, d) => .error (.ofKind .other) d
  | (.ok, d) => .ok () (d.setFile path (some ((d.files path).getD [])))

/-- `fs::create_dir_all`; directories are not modelled. -/
def createDirAll : Fs Unit := fun d =>
  match d.poll with
  | (.fail _, d) => .error (.ofKind .other) d
  | (.ok, d) => .ok () d

/-- `File::create`: the file is empty afterwards. -/
def createFile (path : Str) : Fs Unit := fun d =>
  match d.poll with
  | (.fail _, d) => .error (.ofKind .other) d
  | (.ok, d) => .ok () (d.setFile path (some []))

/-- `write_all` at the end of an open file; a failure leaves any part of the bytes behind. -/
def writeAll (path : Str) (bytes : List UInt8) : Fs Unit := fun d =>
  match d.poll with
  | (.fail kept, d) =>
    .error (.ofKind .other) (d.setFile path (some ((d.files path).getD [] ++ bytes.take kept)))
  | (.ok, d) => .ok () (d.setFile path (some ((d.files path).getD [] ++ bytes)))

def flush : Fs Unit := createDirAll

def removeFile (path : Str) : Fs Unit := fun d =>
  match d.poll with
  | (.fail _, d) => .error (.ofKind .other) d
  | (.ok, d) => .ok () (d.setFile path none)

/-- `fs::rename`: the destination takes the content, the source is gone. -/
def rename (source destination : Str) : Fs Unit := fun d =>
  match d.poll with
  | (.fail _, d) => .error (.ofKind .other) d
  | (.ok, d) => .ok () ((d.setFile destination (d.files source)).setFile source none)

@[simp] theorem setFile_self (d : Disk) (path : Str) (content : Option (List UInt8)) :
    (d.setFile path content).files path = content := Function.update_self ..

theorem setFile_ne (d : Disk) {path q : Str} (content : Option (List UInt8)) (h : q ≠ path) :
    (d.setFile path content).files q = d.files q := Function.update_of_ne h ..

end Disk

/-! ## 2. Records and their encoding -/

/-- `CacheRecord`, in its owned and its borrowed form. -/
inductive CacheRecord where
  | header (version : UInt8) (networkAddr broadcastAddr allocationCursor : IpAddr)
  | mapping (ip : IpAddr) (name : Str)
  deriving DecidableEq

/-- `serde_json` on `CacheRecord`: the text `to_writer` writes and what `from_str` reads; and the
    counters of the target. -/
structure RecordCodec where
  encode : CacheRecord → List UInt8
  decode : List UInt8 → Option CacheRecord
  /-- `usize::MAX`. -/
  usizeMax : Nat

/-- What the journal relies on of `serde_json`: a record is written as one line of UTF-8 text and
    read back as it was. -/
structure RecordCodec.Lawful (codec : RecordCodec) : Prop where
  decode_encode : ∀ r, codec.decode (codec.encode r) = some r
  nonempty : ∀ r, codec.encode r ≠ []
  newline : ∀ r, newline ∉ codec.encode r
  carriageReturn : ∀ r, carriageReturn ∉ codec.encode r
  utf8 : ∀ r, validUtf8 (codec.encode r) = true

def CACHE_VERSION : UInt8 := 1

def COMPACT_STALE_RECORDS : Nat := 1024

def RecordCodec.saturatingAdd (codec : RecordCodec) (a b : Nat) : Nat := min (a + b) codec.usizeMax

def RecordCodec.saturatingMul (codec : RecordCodec) (a b : Nat) : Nat := min (a * b) codec.usizeMax

inductive LoadResult where
  | missing
  | incompatible
  | loaded (allocationCursor : IpAddr) (mappings : List (IpAddr × Str)) (repairNeeded : Bool)
  deriving DecidableEq

structure PersistentCache where
  path : Str
  journalRecords : Nat
  dirty : Bool
  deriving DecidableEq

/-- `temporary_path`: the name with `.tmp` after it. -/
def temporaryPath (path : Str) : Str := path ++ ['.', 't', 'm', 'p']

theorem temporaryPath_ne (path : Str) : path ≠ temporaryPath path := by
  intro h
  have := congrArg List.length h
  simp [temporaryPath] at this

/-- The first statement of `replace_file`, compiled on Windows only. -/
def removeOnWindows (destination : Str) : Fs Unit := fun d =>
  if d.windows then
    match Disk.pathExists destination d with
    | .ok true d => Disk.removeFile destination d
    | .ok false d => .ok () d
    | .error e d => .error e d
  else .ok () d

/-- `replace_file`. -/
def replaceFile (temporary destination : Str) : Fs Unit := do
  removeOnWindows destination
  Disk.rename temporary destination

section Codec

variable (codec : RecordCodec)

/-- `write_cache_record`: the record, then a newline. The text of a `serde_json` error is not
    modelled. -/
def writeCacheRecord (path : Str) (record : CacheRecord) : Fs Unit := fun d =>
  match Disk.writeAll path (codec.encode record) d with
  | .error _ d => .error (.string "") d
  | .ok _ d => Disk.writeAll path [newline] d

/-- The mapping loop of `rewrite`, with the count of the records it wrote. -/
def writeMappings (path : Str) : List (IpAddr × Str) → Nat → Fs Nat
  | [], records => pure records
  | (ip, name) :: mappings, records => do
      writeCacheRecord codec path (.mapping ip name)
      writeMappings path mappings (codec.saturatingAdd records 1)

/-- The line loop of `load` after the header: the count, the mappings and `repair_needed`. -/
def loadMappings : List (Option (List UInt8)) → Nat → List (IpAddr × Str) → Bool →
    Nat × List (IpAddr × Str) × Bool
  | [], records, mappings, repairNeeded => (records, mappings, repairNeeded)
  | none :: _, records, mappings, _ => (records, mappings, true)
  | some line :: rest, records, mappings, repairNeeded =>
    if line.isEmpty then loadMappings rest records mappings true
    else
      match codec.decode line with
      | some (.mapping ip name) =>
        loadMappings rest (codec.saturatingAdd records 1) (mappings ++ [(ip, name)]) repairNeeded
      | _ => loadMappings rest records mappings true

/-- The allocation cursor of a header line that fits the pool. -/
def headerCursor (networkAddr broadcastAddr : IpAddr) (line : List UInt8) : Option IpAddr :=
  match codec.decode line with
  | some (.header version cachedNetwork cachedBroadcast allocationCursor) =>
    if version = CACHE_VERSION ∧ cachedNetwork = networkAddr ∧
        cachedBroadcast = broadcastAddr ∧
        addressInPool allocationCursor networkAddr broadcastAddr = true then
      some allocationCursor
    else none
  | _ => none

namespace PersistentCache

def new (path : Str) : PersistentCache := ⟨path, 0, false⟩

/-- The part of `load` after the file is open: what the lines say, and the record count. -/
def loadLines (networkAddr broadcastAddr : IpAddr) (ls : List (Option (List UInt8))) :
    LoadResult × Nat :=
  match ls with
  | some line :: rest =>
    match headerCursor codec networkAddr broadcastAddr line with
    | some allocationCursor =>
      let (records, mappings, repairNeeded) := loadMappings codec rest 0 [] false
      (.loaded allocationCursor mappings repairNeeded, records)
    | none => (.incompatible, 0)
  | _ => (.incompatible, 0)

/-- `PersistentCache::load`. -/
def load (self : PersistentCache) (networkAddr broadcastAddr : IpAddr) :
    Fs (LoadResult × PersistentCache) := fun d =>
  let self := { self with journalRecords := 0, dirty := false }
  match Disk.openFile self.path d with
  | .ok bytes d =>
    let (result, records) := loadLines codec networkAddr broadcastAddr (lines bytes)
    .ok (result, { self with journalRecords := records }) d
  | .error (.io .notFound _) d => .ok (.missing, self) d
  | .error e d => .error e d

def needsRewrite (self : PersistentCache) : Fs Bool := fun d =>
  if self.dirty then .ok true d
  else
    match Disk.metadataLen self.path d with
    | .ok len d => .ok (len == 0) d
    | .error (.io .notFound _) d => .ok true d
    | .error e d => .error e d

def appendMapping (self : PersistentCache) (ip : IpAddr) (name : Str) : Fs PersistentCache := do
  Disk.openAppend self.path
  writeCacheRecord codec self.path (.mapping ip name)
  Disk.flush
  pure { self with journalRecords := codec.saturatingAdd self.journalRecords 1, dirty := false }

def shouldCompact (self : PersistentCache) (liveMappings : Nat) : Bool :=
  let staleRecords := self.journalRecords - liveMappings
  decide (COMPACT_STALE_RECORDS ≤ staleRecords) &&
    decide (codec.saturatingMul liveMappings 2 ≤ self.journalRecords)

/-- A short journal is not compacted, whatever is live. -/
theorem shouldCompact_of_lt {self : PersistentCache}
    (h : self.journalRecords < COMPACT_STALE_RECORDS) (liveMappings : Nat) :
    self.shouldCompact codec liveMappings = false := by
  have hstale : self.journalRecords - liveMappings < COMPACT_STALE_RECORDS :=
    lt_of_le_of_lt (Nat.sub_le _ _) h
  simp only [shouldCompact, decide_eq_false (Nat.not_le.mpr hstale), Bool.false_and]

def rewrite (self : PersistentCache) (networkAddr broadcastAddr allocationCursor : IpAddr)
    (mappings : List (IpAddr × Str)) : Fs PersistentCache := do
  Disk.createDirAll
  Disk.createFile (temporaryPath self.path)
  writeCacheRecord codec (temporaryPath self.path)
    (.header CACHE_VERSION networkAddr broadcastAddr allocationCursor)
  let records ← writeMappings codec (temporaryPath self.path) mappings 0
  Disk.flush
  replaceFile (temporaryPath self.path) self.path
  pure { self with journalRecords := records, dirty := false }

def markDirty (self : PersistentCache) : PersistentCache := { self with dirty := true }

end PersistentCache

/-! ## 3. The text of a journal -/

/-- A record with its newline. -/
def recordLine (r : CacheRecord) : List UInt8 := codec.encode r ++ [newline]

def mappingLines (mappings : List (IpAddr × Str)) : List UInt8 :=
  mappings.flatMap fun m => recordLine codec (.mapping m.1 m.2)

/-- The bytes `rewrite` puts into the file. -/
def journalText (networkAddr broadcastAddr allocationCursor : IpAddr)
    (mappings : List (IpAddr × Str)) : List UInt8 :=
  recordLine codec (.header CACHE_VERSION networkAddr broadcastAddr allocationCursor) ++
    mappingLines codec mappings

theorem mappingLines_concat (mappings : List (IpAddr × Str)) (ip : IpAddr) (name : Str) :
    mappingLines codec (mappings ++ [(ip, name)]) =
      mappingLines codec mappings ++ recordLine codec (.mapping ip name) := by
  simp [mappingLines]

/-! ## 4. What the operations can do -/

/-- `d` came from `d0` by successful operations that changed the file `target` only, which now
    holds `content`. -/
structure Disk.Wrote (d0 : Disk) (target : Str) (content : List UInt8) (d : Disk) : Prop where
  windows : d.windows = d0.windows
  quiet : d0.Quiet → d.Quiet
  written : d.files target = some content
  others : ∀ q, q ≠ target → d.files q = d0.files q

/-- An operation on `target` failed after `d0`: a failure was planned, and no other file
    changed. -/
structure Disk.Failed (d0 : Disk) (target : Str) (d : Disk) : Prop where
  planned : ¬ d0.Quiet
  others : ∀ q, q ≠ target → d.files q = d0.files q

/-- The two cases of every operation: the plan lets it through, or it names a failure. -/
theorem Disk.poll_cases (d : Disk) :
    (∃ kept d', d.poll = (.fail kept, d') ∧ ¬ d.Quiet ∧ d'.files = d.files ∧
      d'.windows = d.windows) ∨
    (∃ d', d.poll = (.ok, d') ∧ (d.Quiet → d'.Quiet) ∧ d'.files = d.files ∧
      d'.windows = d.windows) := by
  unfold Disk.poll Disk.Quiet
  cases hp : d.plan with
  | nil => exact Or.inr ⟨d, rfl, fun _ => hp, rfl, rfl⟩
  | cons o os =>
    cases o with
    | ok => exact Or.inr ⟨_, rfl, fun h => absurd h (by simp), rfl, rfl⟩
    | fail kept => exact Or.inl ⟨kept, _, rfl, by simp, rfl, rfl⟩

variable {d0 : Disk} {target : Str} {content : List UInt8}

theorem createDirAll_spec {d : Disk} (h : d0.Wrote target content d) :
    Spec Disk.createDirAll d (fun _ d' => d0.Wrote target content d') (d0.Failed target) := by
  unfold Spec Disk.createDirAll
  rcases d.poll_cases with ⟨kept, d', hp, hq, hf, -⟩ | ⟨d', hp, hq, hf, hw⟩ <;> rw [hp]
  · exact ⟨fun h0 => hq (h.quiet h0), fun q hq' => by rw [hf]; exact h.others q hq'⟩
  · exact ⟨hw.trans h.windows, fun h0 => hq (h.quiet h0), by rw [hf]; exact h.written,
      fun q hq' => by rw [hf]; exact h.others q hq'⟩

theorem writeAll_spec {d : Disk} (h : d0.Wrote target content d) (bytes : List UInt8) :
    Spec (Disk.writeAll target bytes) d (fun _ d' => d0.Wrote target (content ++ bytes) d')
      (d0.Failed target) := by
  unfold Spec Disk.writeAll
  rcases d.poll_cases with ⟨kept, d', hp, hq, hf, -⟩ | ⟨d', hp, hq, hf, hw⟩ <;> rw [hp]
  · refine ⟨fun h0 => hq (h.quiet h0), fun q hne => ?_⟩
    rw [Disk.setFile_ne _ _ hne, hf]
    exact h.others q hne
  · refine ⟨hw.trans h.windows, fun h0 => hq (h.quiet h0), ?_, fun q hne => ?_⟩
    · rw [Disk.setFile_self, hf, h.written]
      rfl
    · rw [Disk.setFile_ne _ _ hne, hf]
      exact h.others q hne

theorem writeCacheRecord_spec {d : Disk} (h : d0.Wrote target content d) (r : CacheRecord) :
    Spec (writeCacheRecord codec target r) d
      (fun _ d' => d0.Wrote target (content ++ recordLine codec r) d') (d0.Failed target) := by
  have h1 := writeAll_spec h (codec.encode r)
  unfold Spec writeCacheRecord
  cases hw : Disk.writeAll target (codec.encode r) d with
  | error e d' => exact h1.error hw
  | ok u d' =>
    have h2 := writeAll_spec (h1.ok hw) [newline]
    rw [List.append_assoc] at h2
    exact h2

theorem writeMappings_spec (mappings : List (IpAddr × Str)) :
    ∀ {d : Disk} {content : List UInt8} (records : Nat), d0.Wrote target content d →
      Spec (writeMappings codec target mappings records) d
        (fun n d' => n = mappings.foldl (fun n _ => codec.saturatingAdd n 1) records ∧
          d0.Wrote target (content ++ mappingLines codec mappings) d') (d0.Failed target) := by
  induction mappings with
  | nil =>
    intro d content records h
    refine Spec.pure ⟨rfl, ?_⟩
    rwa [mappingLines, List.flatMap_nil, List.append_nil]
  | cons m mappings ih =>
    intro d content records h
    obtain ⟨ip, name⟩ := m
    refine Spec.bind (writeCacheRecord_spec codec h (.mapping ip name)) fun _ d' h' => ?_
    refine Spec.mono (ih (codec.saturatingAdd records 1) h') ?_ fun _ => id
    rintro n d'' ⟨hn, hw⟩
    refine ⟨hn, ?_⟩
    rwa [List.append_assoc] at hw

/-- `d` came from `d0` on the way to replacing `destination` by `temporary`: the new content is
    ready, and the old file is still there or already gone. -/
structure Disk.Replacing (d0 : Disk) (temporary destination : Str) (content : List UInt8)
    (d : Disk) : Prop where
  windows : d.windows = d0.windows
  quiet : d0.Quiet → d.Quiet
  written : d.files temporary = some content
  old : d.files destination = d0.files destination ∨ d.files destination = none
  others : ∀ q, q ≠ destination → q ≠ temporary → d.files q = d0.files q

/-- The replacement is done: `destination` holds the new content. -/
structure Disk.Replaced (d0 : Disk) (temporary destination : Str) (content : List UInt8)
    (d : Disk) : Prop where
  windows : d.windows = d0.windows
  quiet : d0.Quiet → d.Quiet
  written : d.files destination = some content
  others : ∀ q, q ≠ destination → q ≠ temporary → d.files q = d0.files q

/-- The replacement failed: `destination` is as it was, or absent. -/
structure Disk.NotReplaced (d0 : Disk) (temporary destination : Str) (d : Disk) : Prop where
  planned : ¬ d0.Quiet
  old : d.files destination = d0.files destination ∨ d.files destination = none
  others : ∀ q, q ≠ destination → q ≠ temporary → d.files q = d0.files q

theorem removeOnWindows_spec {d : Disk} {temporary destination : Str}
    (hne : destination ≠ temporary) (h : d0.Wrote temporary content d) :
    Spec (removeOnWindows destination) d
      (fun _ d' => d0.Replacing temporary destination content d')
      (d0.NotReplaced temporary destination) := by
  have hold := h.others destination hne
  have hothers : ∀ q, q ≠ destination → q ≠ temporary → d.files q = d0.files q :=
    fun q _ h2 => h.others q h2
  unfold Spec removeOnWindows
  by_cases hwin : d.windows = true
  · rw [if_pos hwin]
    unfold Disk.pathExists
    rcases d.poll_cases with ⟨kept, d1, hp, hq, hf, hw⟩ | ⟨d1, hp, hq, hf, hw⟩ <;> rw [hp]
    · -- the error of `exists` counts as absent, and the rename goes ahead
      exact ⟨hw.trans h.windows, fun h0 => absurd (h.quiet h0) hq, by rw [hf]; exact h.written,
        Or.inl (by rw [hf]; exact hold), fun q h1 h2 => by rw [hf]; exact hothers q h1 h2⟩
    · cases hs : (d1.files destination).isSome with
      | false =>
        simp only [hs]
        exact ⟨hw.trans h.windows, fun h0 => hq (h.quiet h0), by rw [hf]; exact h.written,
          Or.inl (by rw [hf]; exact hold), fun q h1 h2 => by rw [hf]; exact hothers q h1 h2⟩
      | true =>
        simp only [hs]
        unfold Disk.removeFile
        rcases d1.poll_cases with ⟨kept, d2, hp2, hq2, hf2, -⟩ | ⟨d2, hp2, hq2, hf2, hw2⟩ <;>
          rw [hp2]
        · refine ⟨fun h0 => hq2 (hq (h.quiet h0)), Or.inl ?_, fun q h1 h2 => ?_⟩
          · rw [hf2, hf]; exact hold
          · rw [hf2, hf]; exact hothers q h1 h2
        · refine ⟨(hw2.trans hw).trans h.windows, fun h0 => hq2 (hq (h.quiet h0)), ?_,
            Or.inr (Disk.setFile_self _ _ _), fun q h1 h2 => ?_⟩
          · rw [Disk.setFile_ne _ _ hne.symm, hf2, hf]; exact h.written
          · rw [Disk.setFile_ne _ _ h1, hf2, hf]; exact hothers q h1 h2
  · rw [if_neg hwin]
    exact ⟨h.windows, h.quiet, h.written, Or.inl hold, hothers⟩

theorem rename_spec {d : Disk} {temporary destination : Str} (hne : destination ≠ temporary)
    (h : d0.Replacing temporary destination content d) :
    Spec (Disk.rename temporary destination) d
      (fun _ d' => d0.Replaced temporary destination content d')
      (d0.NotReplaced temporary destination) := by
  unfold Spec Disk.rename
  rcases d.poll_cases with ⟨kept, d', hp, hq, hf, -⟩ | ⟨d', hp, hq, hf, hw⟩ <;> rw [hp]
  · refine ⟨fun h0 => hq (h.quiet h0), by rw [hf]; exact h.old, fun q h1 h2 => ?_⟩
    rw [hf]
    exact h.others q h1 h2
  · refine ⟨hw.trans h.windows, fun h0 => hq (h.quiet h0), ?_, fun q h1 h2 => ?_⟩
    · rw [Disk.setFile_ne _ _ hne, Disk.setFile_self, hf, h.written]
    · rw [Disk.setFile_ne _ _ h2, Disk.setFile_ne _ _ h1, hf]
      exact h.others q h1 h2

namespace PersistentCache

/-- **Rewriting the journal**: the file holds exactly the given records, or the rewrite failed
    and the file is as it was, or absent. -/
theorem rewrite_spec (self : PersistentCache) (network broadcast cursor : IpAddr)
    (mappings : List (IpAddr × Str)) (d : Disk) :
    Spec (self.rewrite codec network broadcast cursor mappings) d
      (fun p d' => p = ⟨self.path, mappings.foldl (fun n _ => codec.saturatingAdd n 1) 0, false⟩ ∧
        d.Replaced (temporaryPath self.path) self.path
          (journalText codec network broadcast cursor mappings) d')
      (d.NotReplaced (temporaryPath self.path) self.path) := by
  have hne := temporaryPath_ne self.path
  -- up to the temporary file, a failure touches that file only
  have hfail : ∀ d', d.Failed (temporaryPath self.path) d' →
      d.NotReplaced (temporaryPath self.path) self.path d' := fun d' h =>
    ⟨h.planned, Or.inl (h.others _ hne), fun q _ h2 => h.others q h2⟩
  have hdir : Spec Disk.createDirAll d
      (fun _ d' => d'.windows = d.windows ∧ (d.Quiet → d'.Quiet) ∧ d'.files = d.files)
      (d.NotReplaced (temporaryPath self.path) self.path) := by
    unfold Spec Disk.createDirAll
    rcases d.poll_cases with ⟨kept, d', hp, hq, hf, -⟩ | ⟨d', hp, hq, hf, hw⟩ <;> rw [hp]
    · exact ⟨hq, Or.inl (by rw [hf]), fun q _ _ => by rw [hf]⟩
    · exact ⟨hw, hq, hf⟩
  refine Spec.bind hdir ?_
  rintro - d1 ⟨hw1, hq1, hf1⟩
  have hcreate : Spec (Disk.createFile (temporaryPath self.path)) d1
      (fun _ d' => d.Wrote (temporaryPath self.path) [] d')
      (d.NotReplaced (temporaryPath self.path) self.path) := by
    unfold Spec Disk.createFile
    rcases d1.poll_cases with ⟨kept, d', hp, hq, hf, -⟩ | ⟨d', hp, hq, hf, hw⟩ <;> rw [hp]
    · exact ⟨fun h0 => hq (hq1 h0), Or.inl (by rw [hf, hf1]), fun q _ _ => by rw [hf, hf1]⟩
    · refine ⟨hw.trans hw1, fun h0 => hq (hq1 h0), Disk.setFile_self _ _ _, fun q h2 => ?_⟩
      rw [Disk.setFile_ne _ _ h2, hf, hf1]
  refine Spec.bind hcreate fun _ d2 h2 => ?_
  refine Spec.bind (Spec.mono (writeCacheRecord_spec codec h2 _) (fun _ _ => id) hfail)
    fun _ d3 h3 => ?_
  refine Spec.bind (Spec.mono (writeMappings_spec codec mappings 0 h3) (fun _ _ => id) hfail) ?_
  rintro n d4 ⟨hn, h4⟩
  refine Spec.bind (Spec.mono (createDirAll_spec h4) (fun _ _ => id) hfail) fun _ d5 h5 => ?_
  refine Spec.bind (Spec.bind (removeOnWindows_spec hne h5) fun _ d6 h6 => rename_spec hne h6)
    fun _ d7 h7 => ?_
  exact Spec.pure ⟨by rw [hn], h7⟩

/-- **Appending a mapping**: the record and its newline stand at the end of the file, or the
    append failed. -/
theorem appendMapping_spec (self : PersistentCache) (ip : IpAddr) (name : Str) (d : Disk) :
    Spec (self.appendMapping codec ip name) d
      (fun p d' => p = ⟨self.path, codec.saturatingAdd self.journalRecords 1, false⟩ ∧
        d.Wrote self.path
          ((d.files self.path).getD [] ++ recordLine codec (.mapping ip name)) d')
      (d.Failed self.path) := by
  have hopen : Spec (Disk.openAppend self.path) d
      (fun _ d' => d.Wrote self.path ((d.files self.path).getD []) d') (d.Failed self.path) := by
    unfold Spec Disk.openAppend
    rcases d.poll_cases with ⟨kept, d', hp, hq, hf, -⟩ | ⟨d', hp, hq, hf, hw⟩ <;> rw [hp]
    · exact ⟨hq, fun q _ => by rw [hf]⟩
    · refine ⟨hw, hq, ?_, fun q h2 => ?_⟩
      · rw [Disk.setFile_self, hf]
      · rw [Disk.setFile_ne _ _ h2, hf]
  refine Spec.bind hopen fun _ d1 h1 => ?_
  refine Spec.bind (writeCacheRecord_spec codec h1 _) fun _ d2 h2 => ?_
  refine Spec.bind (createDirAll_spec h2) fun _ d3 h3 => ?_
  exact Spec.pure ⟨rfl, h3⟩

/-- **What `needs_rewrite` tells**: `false` means a clean cache and a file that is there and not
    empty. No file changes. -/
theorem needsRewrite_spec (self : PersistentCache) (d : Disk) :
    Spec self.needsRewrite d
      (fun b d' => d'.files = d.files ∧ d'.windows = d.windows ∧ (d.Quiet → d'.Quiet) ∧
        (b = false ↔ self.dirty = false ∧
          ∃ bytes, d.files self.path = some bytes ∧ bytes ≠ []))
      (fun d' => d'.files = d.files ∧ d'.windows = d.windows ∧ ¬ d.Quiet) := by
  unfold Spec needsRewrite
  by_cases hd : self.dirty = true
  · rw [if_pos hd]
    exact ⟨rfl, rfl, id, by simp [hd]⟩
  · rw [if_neg hd]
    have hd : self.dirty = false := by simpa using hd
    unfold Disk.metadataLen
    rcases d.poll_cases with ⟨kept, d', hp, hq, hf, hw⟩ | ⟨d', hp, hq, hf, hw⟩ <;> rw [hp]
    · exact ⟨hf, hw, hq⟩
    · cases hb : d'.files self.path with
      | none =>
        simp only [hb]
        rw [hf] at hb
        exact ⟨hf, hw, hq, by simp [hb]⟩
      | some bytes =>
        simp only [hb]
        rw [hf] at hb
        exact ⟨hf, hw, hq, by simp [hb, hd]⟩

end PersistentCache

end Codec

end Tun2Proxy
