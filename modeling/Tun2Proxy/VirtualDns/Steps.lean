/-
  File:      Tun2Proxy/VirtualDns/Steps.lean
  Subject:   What each journal operation of the resolver can do to the resolver and its disk.

  The operations of `Resolver` branch on the answers of the disk. Here every one of them is
  inverted once: its outcomes are named relations between the world before and the world after,
  and the invariants of the later modules are proved by going through these outcomes, never by
  unfolding the operations again.

  * `Rewritten`, `Appended`, `LeftDirty`: the three ends of a persisted mapping.
  * `StartUp`: what `enable_persistence` makes of the file it finds.
-/
import Tun2Proxy.VirtualDns.Resolver

namespace Tun2Proxy

open Fallible Lines

/-- The state a method ends in, whether it succeeds or fails. -/
def finalState {ε σ α : Type} : EStateM.Result ε σ α → σ
  | .ok _ s => s
  | .error _ s => s

def returned {ε σ α : Type} : EStateM.Result ε σ α → Option α
  | .ok a _ => some a
  | .error _ _ => none

theorem eq_ok_of_returned {ε σ α : Type} {r : EStateM.Result ε σ α} {a : α}
    (h : returned r = some a) : r = .ok a (finalState r) := by
  cases r with
  | ok => cases h; rfl
  | error => cases h

/-- Two resolvers that differ in their journal only. -/
def VirtualDns.SameTable (v v' : VirtualDns) : Prop := v' = { v with persistence := v'.persistence }

/-- How many records a rewrite of this table counts. -/
def VirtualDns.recordCount (codec : RecordCodec) (v : VirtualDns) : Nat :=
  v.lruCache.iter.foldl (fun n _ => codec.saturatingAdd n 1) 0

namespace World

section Codec

variable (codec : RecordCodec)

/-! ## 1. Persisting a mapping -/

/-- The journal at `path` was rewritten from the table, and the cache is clean. -/
structure Rewritten (path : Str) (w w' : World) : Prop where
  dns : w'.dns = { w.dns with persistence := some ⟨path, w.dns.recordCount codec, false⟩ }
  file : w'.disk.files path = some (journalText codec w.dns.networkAddr w.dns.broadcastAddr
    w.dns.nextAddr w.dns.lruCache.iter)
  quiet : w.disk.Quiet → w'.disk.Quiet

/-- The record of one mapping was appended to a journal that is there and not empty, the cache
    was clean, and no compaction was due. -/
structure Appended (p : PersistentCache) (ip : IpAddr) (name : Str) (w w' : World) : Prop where
  dns : w'.dns = { w.dns with
    persistence := some ⟨p.path, codec.saturatingAdd p.journalRecords 1, false⟩ }
  clean : p.dirty = false
  file : ∃ bytes, w.disk.files p.path = some bytes ∧ bytes ≠ [] ∧
    w'.disk.files p.path = some (bytes ++ recordLine codec (.mapping ip name))
  small : PersistentCache.shouldCompact codec
    ⟨p.path, codec.saturatingAdd p.journalRecords 1, false⟩ w.dns.lruCache.len = false
  quiet : w.disk.Quiet → w'.disk.Quiet

/-- The journal is not up to date and the cache knows it; some file operation failed. -/
structure LeftDirty (path : Str) (w w' : World) : Prop where
  dns : ∃ records, w'.dns = { w.dns with persistence := some ⟨path, records, true⟩ }
  planned : ¬ w.disk.Quiet

/-- A failed rewrite: the table and the cache are as they were, the file too unless it is gone. -/
structure NotRewritten (path : Str) (w w' : World) : Prop where
  dns : w'.dns = w.dns
  old : w'.disk.files path = w.disk.files path ∨ w'.disk.files path = none
  planned : ¬ w.disk.Quiet

theorem rewritePersistence_spec {w : World} {p : PersistentCache}
    (hp : w.dns.persistence = some p) :
    Spec (rewritePersistence codec) w (fun _ w' => Rewritten codec p.path w w')
      (fun w' => NotRewritten p.path w w') := by
  have h := p.rewrite_spec codec w.dns.networkAddr w.dns.broadcastAddr w.dns.nextAddr
    w.dns.lruCache.iter w.disk
  unfold Spec rewritePersistence
  simp only [hp]
  cases hr : p.rewrite codec w.dns.networkAddr w.dns.broadcastAddr w.dns.nextAddr
      w.dns.lruCache.iter w.disk with
  | ok p' d =>
    obtain ⟨rfl, hd⟩ := h.ok hr
    exact ⟨rfl, hd.written, hd.quiet⟩
  | error e d =>
    have hd := h.error hr
    exact ⟨rfl, hd.old, hd.planned⟩

/-- A rewrite of the same table from a later disk, when the earlier one was not quiet. -/
theorem Rewritten.of_sameTable {path : Str} {w w₁ w' : World}
    (h : Rewritten codec path w₁ w') (hs : w.dns.SameTable w₁.dns) (hq : w.disk.Quiet →
      w₁.disk.Quiet) : Rewritten codec path w w' := by
  unfold VirtualDns.SameTable at hs
  refine ⟨?_, ?_, fun h0 => h.quiet (hq h0)⟩
  · rw [h.dns, hs]
    rfl
  · rw [h.file, hs]

theorem tryPersistMapping_spec {w : World} {p : PersistentCache}
    (hp : w.dns.persistence = some p) (ip : IpAddr) (name : Str) :
    Spec (tryPersistMapping codec p ip name) w
      (fun _ w' => Rewritten codec p.path w w' ∨ Appended codec p ip name w w')
      (fun w' => ¬ w.disk.Quiet ∧
        ∃ records dirty, w'.dns = { w.dns with persistence := some ⟨p.path, records, dirty⟩ }) := by
  have hself : w.dns = { w.dns with persistence := some ⟨p.path, p.journalRecords, p.dirty⟩ } := by
    rw [← hp]
  have hneeds := p.needsRewrite_spec w.disk
  unfold Spec tryPersistMapping
  cases hn : p.needsRewrite w.disk with
  | error e d => exact ⟨(hneeds.error hn).2.2, _, _, hself⟩
  | ok needs d =>
    obtain ⟨hfiles, -, hquiet, hclean⟩ := hneeds.ok hn
    cases needs with
    | true =>
      have hrw := rewritePersistence_spec (w := { w with disk := d }) codec hp
      simp only
      cases hr : rewritePersistence codec { w with disk := d } with
      | ok _ w' => exact Or.inl ((hrw.ok hr).of_sameTable codec rfl hquiet)
      | error e w' =>
        have h' := hrw.error hr
        refine ⟨fun h0 => h'.planned (hquiet h0), p.journalRecords, p.dirty, ?_⟩
        rw [h'.dns]
        exact hself
    | false =>
      obtain ⟨hdirty, bytes, hbytes, hne⟩ := hclean.mp rfl
      have happ := p.appendMapping_spec codec ip name d
      simp only
      cases ha : p.appendMapping codec ip name d with
      | error e d' =>
        exact ⟨fun h0 => (happ.error ha).planned (hquiet h0), _, _, hself⟩
      | ok p' d' =>
        obtain ⟨hp', hd'⟩ := happ.ok ha
        have hpath : p'.path = p.path := by rw [hp']
        have hquiet' : w.disk.Quiet → d'.Quiet := fun h0 => hd'.quiet (hquiet h0)
        simp only
        by_cases hc : p'.shouldCompact codec w.dns.lruCache.len = true
        · -- the append made a compaction due
          have hrw := rewritePersistence_spec
            (w := ⟨{ w.dns with persistence := some p' }, d'⟩) codec rfl
          rw [if_pos hc]
          cases hr : rewritePersistence codec ⟨{ w.dns with persistence := some p' }, d'⟩ with
          | ok _ w' => exact Or.inl (hpath ▸ (hrw.ok hr).of_sameTable codec rfl hquiet')
          | error e w' =>
            have h' := hrw.error hr
            refine ⟨fun h0 => h'.planned (hquiet' h0), p'.journalRecords, p'.dirty, ?_⟩
            rw [h'.dns, ← hpath]
        · rw [if_neg hc]
          subst hp'
          refine Or.inr ⟨rfl, hdirty, ⟨bytes, hbytes, hne, ?_⟩, by simpa using hc, hquiet'⟩
          rw [hd'.written, hfiles, hbytes]
          rfl

/-- **The outcomes of `persist_mapping`**: without a journal nothing happens; with one the file
    is rewritten, or the record appended, or the cache is dirty. -/
theorem persistMapping_cases (ip : IpAddr) (name : Str) (w : World) :
    (w.dns.persistence = none ∧ w.persistMapping codec ip name = w) ∨
    ∃ p, w.dns.persistence = some p ∧
      (Rewritten codec p.path w (w.persistMapping codec ip name) ∨
        Appended codec p ip name w (w.persistMapping codec ip name) ∨
        LeftDirty p.path w (w.persistMapping codec ip name)) := by
  unfold persistMapping
  cases hp : w.dns.persistence with
  | none => exact Or.inl ⟨rfl, rfl⟩
  | some p =>
    refine Or.inr ⟨p, rfl, ?_⟩
    have htry := tryPersistMapping_spec codec hp ip name
    simp only
    cases ht : tryPersistMapping codec p ip name w with
    | ok _ w' => exact (htry.ok ht).imp_right Or.inl
    | error e w₁ =>
      obtain ⟨hplanned, records, dirty, hdns⟩ := htry.error ht
      have hp₁ : w₁.markDirty.dns.persistence = some ⟨p.path, records, true⟩ := by
        unfold markDirty
        simp [hdns, PersistentCache.markDirty]
      have hsame : w.dns.SameTable w₁.markDirty.dns := by
        unfold VirtualDns.SameTable markDirty
        simp [hdns]
      have hrw := rewritePersistence_spec codec hp₁
      simp only
      unfold rewriteOrWarn
      cases hr : rewritePersistence codec w₁.markDirty with
      | ok _ w' =>
        exact Or.inl ((hrw.ok hr).of_sameTable codec hsame fun h0 => absurd h0 hplanned)
      | error e' w' =>
        refine Or.inr (Or.inr ⟨⟨records, ?_⟩, hplanned⟩)
        rw [(hrw.error hr).dns, ← hp₁]
        exact hsame

/-- Without a failure, a clean cache with a file appends, unless a compaction is due. -/
theorem persistMapping_appends {w : World} {p : PersistentCache} {bytes : List UInt8}
    (hp : w.dns.persistence = some p) (hclean : p.dirty = false) (hq : w.disk.Quiet)
    (hbytes : w.disk.files p.path = some bytes) (hne : bytes ≠ []) (ip : IpAddr) (name : Str)
    (hsmall : PersistentCache.shouldCompact codec
      ⟨p.path, codec.saturatingAdd p.journalRecords 1, false⟩ w.dns.lruCache.len = false) :
    Appended codec p ip name w (w.persistMapping codec ip name) := by
  have hneeds := p.needsRewrite_spec w.disk
  unfold persistMapping tryPersistMapping
  simp only [hp]
  cases hn : p.needsRewrite w.disk with
  | error e d => exact absurd hq (hneeds.error hn).2.2
  | ok needs d =>
    obtain ⟨hfiles, -, hquiet, hiff⟩ := hneeds.ok hn
    cases hiff.mpr ⟨hclean, bytes, hbytes, hne⟩
    have happ := p.appendMapping_spec codec ip name d
    simp only
    cases ha : p.appendMapping codec ip name d with
    | error e d' => exact absurd (hquiet hq) (happ.error ha).planned
    | ok p' d' =>
      obtain ⟨rfl, hd'⟩ := happ.ok ha
      simp only [hsmall, Bool.false_eq_true, if_false]
      refine ⟨rfl, hclean, ⟨bytes, hbytes, hne, ?_⟩, hsmall, fun h0 => hd'.quiet (hquiet h0)⟩
      rw [hd'.written, hfiles, hbytes]
      rfl

/-- **The outcomes of `retry_dirty_persistence`**: a clean cache is left alone, a dirty one is
    written again or stays dirty. -/
theorem retryDirtyPersistence_cases (w : World) :
    (w.retryDirtyPersistence codec = w ∧ ∀ p, w.dns.persistence = some p → p.dirty = false) ∨
    ∃ p, w.dns.persistence = some p ∧ p.dirty = true ∧
      (Rewritten codec p.path w (w.retryDirtyPersistence codec) ∨
        LeftDirty p.path w (w.retryDirtyPersistence codec)) := by
  unfold retryDirtyPersistence
  cases hp : w.dns.persistence with
  | none => exact Or.inl ⟨rfl, fun p h => by cases h⟩
  | some p =>
    simp only
    by_cases hd : p.dirty = true
    · refine Or.inr ⟨p, rfl, hd, ?_⟩
      rw [if_pos hd]
      have hrw := rewritePersistence_spec codec hp
      unfold rewriteOrWarn
      cases hr : rewritePersistence codec w with
      | ok _ w' => exact Or.inl (hrw.ok hr)
      | error e w' =>
        have h' := hrw.error hr
        refine Or.inr ⟨⟨p.journalRecords, ?_⟩, h'.planned⟩
        rw [h'.dns, ← hd, ← hp]
    · rw [if_neg hd]
      refine Or.inl ⟨rfl, fun q hq => ?_⟩
      cases hq
      simpa using hd

/-- Persisting changes nothing but the journal. -/
theorem persistMapping_sameTable (ip : IpAddr) (name : Str) (w : World) :
    w.dns.SameTable (w.persistMapping codec ip name).dns := by
  unfold VirtualDns.SameTable
  rcases persistMapping_cases codec ip name w with ⟨-, h⟩ | ⟨p, -, h | h | h⟩
  · rw [h]
  · rw [h.dns]
  · rw [h.dns]
  · obtain ⟨records, hd⟩ := h.dns
    rw [hd]

theorem retryDirtyPersistence_sameTable (w : World) :
    w.dns.SameTable (w.retryDirtyPersistence codec).dns := by
  unfold VirtualDns.SameTable
  rcases retryDirtyPersistence_cases codec w with ⟨h, -⟩ | ⟨p, -, -, h | h⟩
  · rw [h]
  · rw [h.dns]
  · obtain ⟨records, hd⟩ := h.dns
    rw [hd]

/-! ## 2. Starting up on a file -/

/-- The mapping records `enable_persistence` reads. -/
def loadedMappings (path : Str) (w : World) : List (IpAddr × Str) :=
  match (PersistentCache.new path).load codec w.dns.networkAddr w.dns.broadcastAddr w.disk with
  | .ok (.loaded _ mappings _, _) _ => mappings
  | _ => []

/-- What `enable_persistence` makes of the file it finds: the mapping records of the file, the
    resolver it goes on with, and whether the file has to be written. -/
inductive StartUp (path : Str) (w : World) : List (IpAddr × Str) → VirtualDns → Bool → Prop
  | missing (hfile : w.disk.files path = none) :
      StartUp path w []
        { w.dns with
          nextAddr :=
            if w.dns.lruCache.isEmpty then upperHalfStart w.dns.networkAddr w.dns.broadcastAddr
            else w.dns.nextAddr
          persistence := some ⟨path, 0, false⟩ }
        true
  | incompatible {bytes : List UInt8} {records : Nat} (hfile : w.disk.files path = some bytes)
      (hload : PersistentCache.loadLines codec w.dns.networkAddr w.dns.broadcastAddr
        (lines bytes) = (.incompatible, records)) :
      StartUp path w []
        { w.dns.clearMappings with
          nextAddr := upperHalfStart w.dns.networkAddr w.dns.broadcastAddr
          persistence := some ⟨path, records, false⟩ }
        true
  | loaded {bytes : List UInt8} {cursor : IpAddr} {mappings : List (IpAddr × Str)}
      {repair : Bool} {records : Nat} (hfile : w.disk.files path = some bytes)
      (hload : PersistentCache.loadLines codec w.dns.networkAddr w.dns.broadcastAddr
        (lines bytes) = (.loaded cursor mappings repair, records)) :
      StartUp path w mappings
        { ({ w.dns.clearMappings with nextAddr := cursor }.restoreMappings mappings repair).1 with
          persistence := some ⟨path, records, false⟩ }
        ({ w.dns.clearMappings with nextAddr := cursor }.restoreMappings mappings repair).2

/-- What `load` finds: an unreadable file, no file, or what the lines of the file say. -/
theorem load_cases (path : Str) (network broadcast : IpAddr) (d : Disk) :
    (∃ e d', (PersistentCache.new path).load codec network broadcast d = .error e d' ∧
      d'.files = d.files ∧ ¬ d.Quiet) ∨
    ∃ d', d'.files = d.files ∧ (d.Quiet → d'.Quiet) ∧
      ((d.files path = none ∧ (PersistentCache.new path).load codec network broadcast d =
          .ok (.missing, ⟨path, 0, false⟩) d') ∨
        ∃ bytes, d.files path = some bytes ∧
          (PersistentCache.new path).load codec network broadcast d =
            .ok ((PersistentCache.loadLines codec network broadcast (lines bytes)).1,
              ⟨path, (PersistentCache.loadLines codec network broadcast (lines bytes)).2,
                false⟩) d') := by
  unfold PersistentCache.load Disk.openFile PersistentCache.new
  rcases d.poll_cases with ⟨kept, d', hp, hq, hf, -⟩ | ⟨d', hp, hq, hf, -⟩ <;> simp only [hp]
  · exact Or.inl ⟨_, d', rfl, hf, hq⟩
  · refine Or.inr ⟨d', hf, hq, ?_⟩
    rw [hf]
    cases hb : d.files path with
    | none => exact Or.inl ⟨rfl, rfl⟩
    | some bytes => exact Or.inr ⟨bytes, rfl, rfl⟩

/-- A rewrite at the end of `enable_persistence`. -/
theorem rewriteAndCount_cases {w : World} {p : PersistentCache}
    (hp : w.dns.persistence = some p) :
    (∃ w', rewriteAndCount codec w = .ok w'.dns.lruCache.len w' ∧
      Rewritten codec p.path w w') ∨
    ∃ e w', rewriteAndCount codec w = .error e w' ∧ NotRewritten p.path w w' := by
  have hrw := rewritePersistence_spec codec hp
  show (∃ w', EStateM.bind (rewritePersistence codec) _ w = _ ∧ _) ∨
    ∃ e w', EStateM.bind (rewritePersistence codec) _ w = _ ∧ _
  unfold EStateM.bind
  cases hr : rewritePersistence codec w with
  | ok u w' => exact Or.inl ⟨w', rfl, hrw.ok hr⟩
  | error e w' => exact Or.inr ⟨e, w', rfl, hrw.error hr⟩

/-- A start-up on a journal with a fitting header. -/
theorem enablePersistence_restores {codec} {path : Str} {v : VirtualDns} {d d' : Disk}
    {bytes : List UInt8} {cursor : IpAddr} {mappings : List (IpAddr × Str)} {repair : Bool}
    {records : Nat} (hopen : Disk.openFile path d = .ok bytes d')
    (hload : PersistentCache.loadLines codec v.networkAddr v.broadcastAddr (lines bytes) =
      (.loaded cursor mappings repair, records)) :
    enablePersistence codec path ⟨v, d⟩ =
      let restored := { v.clearMappings with nextAddr := cursor }.restoreMappings mappings repair
      let w : World := ⟨{ restored.1 with persistence := some ⟨path, records, false⟩ }, d'⟩
      if restored.2 then rewriteAndCount codec w else .ok restored.1.lruCache.len w := by
  simp only [enablePersistence, PersistentCache.load, PersistentCache.new, hopen, hload]

/-- **The outcomes of `enable_persistence`**: the file cannot be opened and nothing changes; or
    the start-up state is reached, and the file is as wanted, or rewritten, or could not be
    rewritten. -/
theorem enablePersistence_cases (path : Str) (w : World) :
    (∃ e w', enablePersistence codec path w = .error e w' ∧ w'.dns = w.dns ∧
      w'.disk.files = w.disk.files ∧ ¬ w.disk.Quiet ∧ loadedMappings codec path w = []) ∨
    ∃ dns repair d, StartUp codec path w (loadedMappings codec path w) dns repair ∧
      d.files = w.disk.files ∧ (w.disk.Quiet → d.Quiet) ∧
      ((repair = false ∧ enablePersistence codec path w = .ok dns.lruCache.len ⟨dns, d⟩) ∨
        (repair = true ∧ ∃ w', enablePersistence codec path w = .ok w'.dns.lruCache.len w' ∧
          Rewritten codec path ⟨dns, d⟩ w') ∨
        (repair = true ∧ ∃ e w', enablePersistence codec path w = .error e w' ∧
          NotRewritten path ⟨dns, d⟩ w')) := by
  unfold enablePersistence loadedMappings
  rcases load_cases codec path w.dns.networkAddr w.dns.broadcastAddr w.disk with
    ⟨e, d, hl, hf, hq⟩ | ⟨d, hf, hq, ⟨hfile, hl⟩ | ⟨bytes, hfile, hl⟩⟩
  · simp only [hl]
    exact Or.inl ⟨e, _, rfl, rfl, hf, hq, trivial⟩
  · simp only [hl]
    exact Or.inr ⟨_, true, d, .missing hfile, hf, hq, Or.inr
      ((rewriteAndCount_cases (p := ⟨path, 0, false⟩) codec rfl).imp (⟨rfl, ·⟩) (⟨rfl, ·⟩))⟩
  · simp only [hl]
    cases hload : PersistentCache.loadLines codec w.dns.networkAddr w.dns.broadcastAddr
        (lines bytes) with
    | mk result records =>
      cases result with
      | missing =>
        -- `loadLines` never answers that the file is missing
        exfalso
        revert hload
        unfold PersistentCache.loadLines
        split
        · split <;> simp
        · simp
      | incompatible =>
        exact Or.inr ⟨_, true, d, .incompatible hfile hload, hf, hq, Or.inr
          ((rewriteAndCount_cases (p := ⟨path, records, false⟩) codec rfl).imp
            (⟨rfl, ·⟩) (⟨rfl, ·⟩))⟩
      | loaded cursor mappings repair =>
        refine Or.inr ⟨_, _, d, .loaded hfile hload, hf, hq, ?_⟩
        simp only
        split
        · rename_i hrep
          exact Or.inr ((rewriteAndCount_cases (p := ⟨path, records, false⟩) codec rfl).imp
            (⟨hrep, ·⟩) (⟨hrep, ·⟩))
        · rename_i hrep
          exact Or.inl ⟨by simpa using hrep, rfl⟩

/-- Whatever the disk does, `enable_persistence` ends in the old table or in the table of its
    start-up state. -/
theorem enablePersistence_sameTable (path : Str) (w : World) :
    ((finalState (enablePersistence codec path w)).dns = w.dns ∧
      loadedMappings codec path w = []) ∨
    ∃ dns repair, StartUp codec path w (loadedMappings codec path w) dns repair ∧
      dns.SameTable (finalState (enablePersistence codec path w)).dns := by
  rcases enablePersistence_cases codec path w with ⟨e, w', h, hd, -, -, hm⟩ |
    ⟨dns, repair, d, hs, -, -, ⟨-, h⟩ | ⟨-, w', h, hr⟩ | ⟨-, e, w', h, hr⟩⟩
  · exact Or.inl ⟨by rw [h]; exact hd, hm⟩
  all_goals refine Or.inr ⟨dns, repair, hs, ?_⟩; rw [h]
  · rfl
  · unfold VirtualDns.SameTable finalState
    rw [hr.dns]
  · show dns.SameTable w'.dns
    rw [hr.dns]
    rfl

end Codec

end World

end Tun2Proxy
