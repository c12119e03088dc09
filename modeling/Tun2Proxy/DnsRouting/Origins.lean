/-
  File:      Tun2Proxy/DnsRouting/Origins.lean
  Subject:   The table of who asked which question (`State::record` and `State::pid` of
             src/dns_routing/windows.rs).

  A record replaces the one there is for the same question. Records expire after `ORIGIN_TTL`, but
  expired ones are taken out only when the table is full; if it is full of records that have not
  expired, the oldest one goes. Room is made before the record is put in, whether or not it needs
  room.

  * The table is a `HashMap`: `min_by_key` goes through it in an order that nobody knows, and that
    may be another one at every call (`Run.shuffle`).
  * Times are nanoseconds on the monotonic clock; they do not go back from record to record.
-/
import Mathlib.Data.List.MinMax
import Tun2Proxy.DnsRouting.Events
import Tun2Proxy.Lib.Maps

namespace Tun2Proxy.DnsRouting

/-! ## 1. The table -/

def ORIGIN_TTL : Nat := 30 * 10 ^ 9

def MAX_ORIGINS : Nat := 4096

structure Origin where
  pid : UInt32
  /-- `at`, which is a keyword. -/
  recordedAt : Nat
  deriving DecidableEq, Repr

/-- The record has not expired. `saturating_duration_since` of a later time is zero. -/
def Origin.isFresh (self : Origin) (now : Nat) : Bool := now - self.recordedAt < ORIGIN_TTL

/-- `queries`. -/
abbrev Origins := AList fun _ : Question => Origin

namespace Origins

def len (self : Origins) : Nat := self.entries.length

/-- `retain` of the records that have not expired. -/
def retainFresh (self : Origins) (now : Nat) : Origins :=
  ⟨self.entries.filter fun entry => entry.2.isFresh now,
    self.nodupKeys.sublist List.filter_sublist⟩

/-- `iter().min_by_key(at)`: the first of the oldest. -/
def oldest (self : Origins) : Option Question :=
  (self.entries.argmin fun entry => entry.2.recordedAt).map (·.1)

/-- The part of `record` before the insertion. -/
def makeRoom (self : Origins) (now : Nat) : Origins :=
  if self.len ≥ MAX_ORIGINS then
    let entries := self.retainFresh now
    if entries.len ≥ MAX_ORIGINS then
      match entries.oldest with
      | some oldest => entries.erase oldest
      | none => entries
    else entries
  else self

def record (self : Origins) (question : Question) (pid : UInt32) (now : Nat) : Origins :=
  if pid = 0 then self else (self.makeRoom now).insert question ⟨pid, now⟩

def pid (self : Origins) (question : Question) (now : Nat) : Option UInt32 :=
  ((self.lookup question).filter (·.isFresh now)).map (·.pid)

/-- `event`, for an event of the DNS provider. -/
def dnsEvent (self : Origins) (id : UInt16) (version : UInt8) (headerPid : UInt32)
    (data : List UInt8) (now : Nat) : Except Stop Origins :=
  match origin id version headerPid data with
  | .ok (question, pid) => .ok (self.record question pid now)
  | .error .missing => .ok self
  | .error .outOfRange => .error .outOfRange

/-! ## 2. Making room -/

variable {t : Origins} {q : Question}

theorem mem_entries_iff {o : Origin} :
    ⟨q, o⟩ ∈ t.entries ↔ t.lookup q = some o := AList.mem_lookup_iff.symm

variable {now : Nat}

theorem lookup_retainFresh {o : Origin} :
    (t.retainFresh now).lookup q = some o ↔ t.lookup q = some o ∧ o.isFresh now = true := by
  rw [← mem_entries_iff, ← mem_entries_iff]
  exact List.mem_filter

theorem len_retainFresh_le (t : Origins) (now : Nat) : (t.retainFresh now).len ≤ t.len :=
  List.length_filter_le _ _

/-- **The oldest record** is in the table, and none is older. -/
theorem oldest_some (h : t.oldest = some q) :
    ∃ o, t.lookup q = some o ∧ ∀ q' o', t.lookup q' = some o' → o.recordedAt ≤ o'.recordedAt := by
  obtain ⟨⟨q', o⟩, hmin, rfl⟩ := Option.map_eq_some_iff.mp h
  refine ⟨o, mem_entries_iff.mp (List.argmin_mem hmin), fun q' o' hlookup => ?_⟩
  exact List.le_of_mem_argmin (f := fun entry => entry.2.recordedAt)
    (mem_entries_iff.mpr hlookup) hmin

theorem oldest_isSome (h : 0 < t.len) : ∃ q, t.oldest = some q := by
  cases hmin : t.entries.argmin fun entry => entry.2.recordedAt with
  | none =>
    rw [List.argmin_eq_none] at hmin
    rw [len, hmin] at h
    cases h
  | some entry => exact ⟨entry.1, by rw [oldest, hmin]; rfl⟩

/-- `MAX_ORIGINS` records that have not expired. -/
def Full (t : Origins) (now : Nat) : Prop := MAX_ORIGINS ≤ (t.retainFresh now).len

/-- A table of the allowed size that is full has no expired record. -/
theorem Full.retainFresh_eq (h : t.Full now) (hlen : t.len ≤ MAX_ORIGINS) : t.retainFresh now = t :=
  AList.ext (List.filter_sublist.eq_of_length_le (hlen.trans h))

/-- **What making room does**: nothing, or the expired records go and leave room, or the table is
    full and the oldest record goes. -/
theorem makeRoom_cases (hlen : t.len ≤ MAX_ORIGINS) (now : Nat) :
    (t.len < MAX_ORIGINS ∧ t.makeRoom now = t) ∨
    (¬ t.Full now ∧ t.makeRoom now = t.retainFresh now) ∨
    ∃ q, t.Full now ∧ t.oldest = some q ∧ t.makeRoom now = t.erase q := by
  unfold makeRoom
  by_cases hsize : t.len ≥ MAX_ORIGINS
  · rw [if_pos hsize]
    dsimp only
    by_cases hfull : (t.retainFresh now).len ≥ MAX_ORIGINS
    · have hsame := Full.retainFresh_eq hfull hlen
      obtain ⟨q, hq⟩ := oldest_isSome (t := t) (lt_of_lt_of_le (by decide) hsize)
      refine .inr (.inr ⟨q, hfull, hq, ?_⟩)
      rw [if_pos hfull, hsame, hq]
    · refine .inr (.inl ⟨hfull, ?_⟩)
      rw [if_neg hfull]
  · exact .inl ⟨Nat.lt_of_not_le hsize, if_neg hsize⟩

theorem makeRoom_len (hlen : t.len ≤ MAX_ORIGINS) (now : Nat) :
    (t.makeRoom now).len < MAX_ORIGINS := by
  rcases makeRoom_cases hlen now with ⟨hroom, heq⟩ | ⟨hfull, heq⟩ | ⟨q, -, hq, heq⟩
  · rwa [heq]
  · rw [heq]
    exact Nat.lt_of_not_le hfull
  · rw [heq]
    obtain ⟨o, hlookup, -⟩ := oldest_some hq
    exact lt_of_lt_of_le (AList.length_erase_lt (AList.mem_of_lookup hlookup)) hlen

/-- Making room invents nothing. -/
theorem lookup_of_makeRoom (hlen : t.len ≤ MAX_ORIGINS) {o : Origin}
    (h : (t.makeRoom now).lookup q = some o) : t.lookup q = some o := by
  rcases makeRoom_cases hlen now with ⟨-, heq⟩ | ⟨-, heq⟩ | ⟨oldest, -, -, heq⟩
  · rwa [heq] at h
  · rw [heq] at h
    exact (lookup_retainFresh.mp h).1
  · rw [heq] at h
    rcases eq_or_ne q oldest with rfl | hne
    · rw [AList.lookup_erase] at h
      cases h
    · rwa [AList.lookup_erase_ne hne] at h

/-- **What making room loses** of the records that have not expired. -/
theorem makeRoom_loses (hlen : t.len ≤ MAX_ORIGINS) {o : Origin} (h : t.lookup q = some o)
    (hfresh : o.isFresh now = true) (hlost : (t.makeRoom now).lookup q ≠ some o) :
    t.Full now ∧ t.oldest = some q := by
  rcases makeRoom_cases hlen now with ⟨-, heq⟩ | ⟨-, heq⟩ | ⟨oldest, hfull, holdest, heq⟩
  · rw [heq] at hlost
    exact absurd h hlost
  · rw [heq] at hlost
    exact absurd (lookup_retainFresh.mpr ⟨h, hfresh⟩) hlost
  · refine ⟨hfull, ?_⟩
    rcases eq_or_ne q oldest with rfl | hne
    · exact holdest
    · rw [heq, AList.lookup_erase_ne hne] at hlost
      exact absurd h hlost

/-! ## 3. Runs -/

/-- **The tables that calls of `record` lead to**, with the calls that were made, the last one
    first. -/
inductive Run : Origins → List (Question × Origin) → Prop
  | start : Run ∅ []
  | record {t : Origins} {past : List (Question × Origin)} (h : Run t past) (question : Question)
      (pid : UInt32) {now : Nat} (hnow : ∀ call ∈ past, call.2.recordedAt ≤ now) :
      Run (t.record question pid now) ((question, ⟨pid, now⟩) :: past)
  | shuffle {t t' : Origins} {past : List (Question × Origin)} (h : Run t past)
      (hperm : t'.entries.Perm t.entries) : Run t' past

/-- The last record of a question that counts. -/
def latest (q : Question) : List (Question × Origin) → Option Origin
  | [] => none
  | (question, origin) :: past =>
    if question = q ∧ origin.pid ≠ 0 then some origin else latest q past

/-- **The invariant.** -/
structure Tracks (t : Origins) (past : List (Question × Origin)) : Prop where
  bounded : t.len ≤ MAX_ORIGINS
  last : ∀ q o, t.lookup q = some o → latest q past = some o ∧ o.pid ≠ 0

variable {past : List (Question × Origin)}

theorem Tracks.record (h : t.Tracks past) (question : Question) (pid : UInt32) (now : Nat) :
    (t.record question pid now).Tracks ((question, ⟨pid, now⟩) :: past) := by
  unfold Origins.record
  split
  next hzero =>
      refine ⟨h.bounded, fun q o hlookup => ?_⟩
      rw [latest, if_neg fun hcounts => hcounts.2 hzero]
      exact h.last q o hlookup
  next hpid =>
      refine ⟨(AList.length_insert_le _ _ _).trans (makeRoom_len h.bounded now),
        fun q o hlookup => ?_⟩
      rcases eq_or_ne q question with rfl | hne
      · rw [AList.lookup_insert] at hlookup
        cases hlookup
        exact ⟨if_pos ⟨rfl, hpid⟩, hpid⟩
      · rw [AList.lookup_insert_ne hne] at hlookup
        rw [latest, if_neg fun hcounts => hne hcounts.1.symm]
        exact h.last q o (lookup_of_makeRoom h.bounded hlookup)

theorem Run.tracks (h : Run t past) : t.Tracks past := by
  induction h with
  | start => exact ⟨Nat.zero_le _, nofun⟩
  | record _ question pid _ ih => exact ih.record question pid _
  | shuffle _ hperm ih =>
    refine ⟨hperm.length_eq.trans_le ih.bounded, fun q o hlookup => ih.last q o ?_⟩
    rwa [AList.perm_lookup hperm] at hlookup

/-- An event leads to a table of a run, and never out of the range of its data. -/
theorem Run.dnsEvent (h : Run t past) (id : UInt16) (version : UInt8) (headerPid : UInt32)
    (data : List UInt8) (hnow : ∀ call ∈ past, call.2.recordedAt ≤ now) :
    ∃ t' past', t.dnsEvent id version headerPid data now = .ok t' ∧ Run t' past' := by
  unfold Origins.dnsEvent
  cases horigin : origin id version headerPid data with
  | ok out => exact ⟨_, _, rfl, h.record out.1 out.2 hnow⟩
  | error stop =>
    cases stop with
    | missing => exact ⟨t, past, rfl, h⟩
    | outOfRange => exact absurd horigin (origin_in_range id version headerPid data)

/-! ## 4. Who is forgotten -/

/-- A record of a question that is not the oldest one, made when the table is full, takes the oldest
    one out: also if the question has its place in the table. -/
theorem record_evicts (hlen : t.len ≤ MAX_ORIGINS) {question : Question} {pid : UInt32}
    (hpid : pid ≠ 0) (hfull : t.Full now) (holdest : t.oldest = some q) (hne : q ≠ question) :
    (t.record question pid now).lookup q = none := by
  rw [Origins.record, if_neg hpid, AList.lookup_insert_ne hne]
  rcases makeRoom_cases hlen now with ⟨hroom, -⟩ | ⟨hno, -⟩ | ⟨q', -, hq', heq⟩
  · exact absurd (hfull.trans (len_retainFresh_le t now)) (Nat.not_le.mpr hroom)
  · exact absurd hfull hno
  · rw [holdest] at hq'
    cases hq'
    rw [heq, AList.lookup_erase]

/-- **The table of origins.** It never has more than `MAX_ORIGINS` records; `pid` gives the process
    of the last record that counts, within `ORIGIN_TTL` of it; and a record that has not expired is
    lost only to one of a question that the table does not have, when it is full, and it is the
    oldest. The last part is for calls that do not, in a full table, record a question that has its
    place there, unless it is the oldest one itself. -/
theorem origins_kept {t : Origins} {past : List (Question × Origin)} (h : Run t past) :
    t.len ≤ MAX_ORIGINS ∧
    (∀ q now pid, t.pid q now = some pid → ∃ o, latest q past = some o ∧ o.pid = pid ∧ pid ≠ 0 ∧
      now - o.recordedAt < ORIGIN_TTL) ∧
    ∀ question pid now, (t.Full now → question ∈ t → t.oldest = some question) →
      ∀ q o, t.lookup q = some o → o.isFresh now = true → q ≠ question →
        (t.record question pid now).lookup q ≠ some o →
        question ∉ t ∧ t.Full now ∧ t.oldest = some q ∧
          ∀ q' o', t.lookup q' = some o' → o.recordedAt ≤ o'.recordedAt := by
  have htracks := h.tracks
  refine ⟨htracks.bounded, fun q now pid hpid => ?_, ?_⟩
  · obtain ⟨o, hfilter, rfl⟩ := Option.map_eq_some_iff.mp hpid
    obtain ⟨hlookup, hfresh⟩ := Option.filter_eq_some_iff.mp hfilter
    obtain ⟨hlast, hcounts⟩ := htracks.last q o hlookup
    exact ⟨o, hlast, rfl, hcounts, of_decide_eq_true hfresh⟩
  · intro question pid now hspared q o hlookup hfresh hne hlost
    by_cases hpid : pid = 0
    · rw [Origins.record, if_pos hpid] at hlost
      exact absurd hlookup hlost
    · rw [Origins.record, if_neg hpid, AList.lookup_insert_ne hne] at hlost
      obtain ⟨hfull, holdest⟩ := makeRoom_loses htracks.bounded hlookup hfresh hlost
      obtain ⟨o', ho', hleast⟩ := oldest_some holdest
      rw [hlookup] at ho'
      cases ho'
      refine ⟨fun hmem => ?_, hfull, holdest, hleast⟩
      have hself := hspared hfull hmem
      rw [holdest] at hself
      exact hne (Option.some.inj hself)

section Refresh

/-- The question of type `n` for the root. -/
def rootQuestion (n : Nat) : Question := ⟨[], UInt16.ofNat n⟩

/-- `n` questions, one every nanosecond. -/
def filled : Nat → Origins
  | 0 => ∅
  | n + 1 => (filled n).record (rootQuestion n) 1 n

def filledPast : Nat → List (Question × Origin)
  | 0 => []
  | n + 1 => (rootQuestion n, ⟨1, n⟩) :: filledPast n

theorem rootQuestion_inj {m n : Nat} (hm : m < 65536) (hn : n < 65536)
    (h : rootQuestion m = rootQuestion n) : m = n := by
  have hkind := congrArg (fun q => q.kind.toNat) h
  simp only [rootQuestion, UInt16.toNat_ofNat'] at hkind
  omega

theorem rootQuestion_notMem {n : Nat} (hn : n < 65536)
    (hlookup : ∀ q o, t.lookup q = some o ↔ ∃ i < n, q = rootQuestion i ∧ o = ⟨1, i⟩) :
    rootQuestion n ∉ t := by
  intro hmem
  obtain ⟨o, ho⟩ := Option.isSome_iff_exists.mp (AList.lookup_isSome.mpr hmem)
  obtain ⟨i, hi, heq, -⟩ := (hlookup _ _).mp ho
  exact hi.ne (rootQuestion_inj hn (hi.trans hn) heq).symm

/-- The table as long as it has room. -/
theorem filled_spec {n : Nat} (hn : n ≤ MAX_ORIGINS) : (filled n).len = n ∧
    ∀ q o, (filled n).lookup q = some o ↔ ∃ i < n, q = rootQuestion i ∧ o = ⟨1, i⟩ := by
  have hmax : MAX_ORIGINS < 65536 := by decide
  induction n with
  | zero => exact ⟨rfl, fun q o => by simp [filled]⟩
  | succ n ih =>
    obtain ⟨hlen, hlookup⟩ := ih (Nat.le_of_succ_le hn)
    have hnew : rootQuestion n ∉ filled n := rootQuestion_notMem (by omega) hlookup
    have hnext : filled (n + 1) = (filled n).insert (rootQuestion n) ⟨1, n⟩ := by
      rw [filled, Origins.record, if_neg (by decide), makeRoom, if_neg (by omega)]
    refine ⟨?_, fun q o => ?_⟩
    · rw [hnext, len, AList.entries_insert_of_notMem hnew, List.length_cons]
      exact congrArg (· + 1) hlen
    · rw [hnext]
      rcases eq_or_ne q (rootQuestion n) with rfl | hne
      · rw [AList.lookup_insert]
        constructor
        · intro h
          cases h
          exact ⟨n, Nat.lt_succ_self n, rfl, rfl⟩
        · rintro ⟨i, hi, heq, rfl⟩
          rw [rootQuestion_inj (by omega) (by omega) heq]
      · rw [AList.lookup_insert_ne hne, hlookup]
        constructor
        · rintro ⟨i, hi, hrest⟩
          exact ⟨i, Nat.lt_succ_of_lt hi, hrest⟩
        · rintro ⟨i, hi, rfl, rfl⟩
          exact ⟨i, lt_of_le_of_ne (Nat.le_of_lt_succ hi) fun h => hne (by rw [h]), rfl, rfl⟩

theorem filled_run (n : Nat) :
    Run (filled n) (filledPast n) ∧ ∀ call ∈ filledPast n, call.2.recordedAt < n := by
  induction n with
  | zero => exact ⟨.start, nofun⟩
  | succ n ih =>
    refine ⟨ih.1.record (rootQuestion n) 1 fun call h => (ih.2 call h).le, fun call h => ?_⟩
    rcases List.mem_cons.mp h with rfl | h
    · exact Nat.lt_succ_self n
    · exact (ih.2 call h).trans (Nat.lt_succ_self n)

theorem filled_full : (filled MAX_ORIGINS).Full MAX_ORIGINS := by
  obtain ⟨hlen, hlookup⟩ := filled_spec (Nat.le_refl MAX_ORIGINS)
  have hall : (filled MAX_ORIGINS).retainFresh MAX_ORIGINS = filled MAX_ORIGINS := by
    refine AList.ext (List.filter_eq_self.mpr fun entry hentry => decide_eq_true ?_)
    have httl : MAX_ORIGINS < ORIGIN_TTL := by decide
    omega
  rw [Full, hall, hlen]

theorem filled_oldest : (filled MAX_ORIGINS).oldest = some (rootQuestion 0) := by
  obtain ⟨hlen, hlookup⟩ := filled_spec (Nat.le_refl MAX_ORIGINS)
  obtain ⟨q, hq⟩ := oldest_isSome (t := filled MAX_ORIGINS) (by rw [hlen]; decide)
  obtain ⟨o, ho, hleast⟩ := oldest_some hq
  obtain ⟨i, hi, rfl, rfl⟩ := (hlookup q o).mp ho
  have hzero : i ≤ 0 := hleast _ ⟨1, 0⟩ ((hlookup _ _).mpr ⟨0, by decide, rfl, rfl⟩)
  rw [hq, Nat.le_zero.mp hzero]

theorem filled_first : (filled MAX_ORIGINS).lookup (rootQuestion 0) = some ⟨1, 0⟩ :=
  ((filled_spec (Nat.le_refl MAX_ORIGINS)).2 _ _).mpr ⟨0, by decide, rfl, rfl⟩

/-- A new question in the full table: the oldest one goes, whose process was known until then. -/
theorem sample_origins_kept :
    (∃ o, latest (rootQuestion 0) (filledPast MAX_ORIGINS) = some o ∧ o.pid = 1) ∧
    ((filled MAX_ORIGINS).record (rootQuestion MAX_ORIGINS) 1 MAX_ORIGINS).lookup
      (rootQuestion 0) = none ∧
    rootQuestion MAX_ORIGINS ∉ filled MAX_ORIGINS ∧ (filled MAX_ORIGINS).Full MAX_ORIGINS ∧
    (filled MAX_ORIGINS).oldest = some (rootQuestion 0) := by
  obtain ⟨hlen, hlookup⟩ := filled_spec (Nat.le_refl MAX_ORIGINS)
  obtain ⟨-, hpid, hlost⟩ := origins_kept (filled_run MAX_ORIGINS).1
  obtain ⟨o, hlatest, hone, -⟩ := hpid (rootQuestion 0) MAX_ORIGINS 1
    (by rw [Origins.pid, filled_first]; decide)
  have hevicted := record_evicts hlen.le (show (1 : UInt32) ≠ 0 by decide) filled_full
    filled_oldest (show rootQuestion 0 ≠ rootQuestion MAX_ORIGINS by decide)
  obtain ⟨hnew, hfull, holdest, -⟩ := hlost (rootQuestion MAX_ORIGINS) 1 MAX_ORIGINS
    (fun _ hmem => absurd hmem (rootQuestion_notMem (by decide) hlookup)) _ _ filled_first
    (by decide) (by decide) (by rw [hevicted]; exact nofun)
  exact ⟨⟨o, hlatest, hone⟩, hevicted, hnew, hfull, holdest⟩

/-- The table is full of records that have not expired, and the newest of its questions is asked
    again: the oldest one is forgotten. -/
theorem refresh_evicts : ∃ t past question q o, Run t past ∧
    (∀ call ∈ past, call.2.recordedAt ≤ MAX_ORIGINS) ∧ question ∈ t ∧ t.lookup q = some o ∧
    o.isFresh MAX_ORIGINS = true ∧ (t.record question 1 MAX_ORIGINS).lookup q = none := by
  obtain ⟨hlen, hlookup⟩ := filled_spec (Nat.le_refl MAX_ORIGINS)
  obtain ⟨hrun, htimes⟩ := filled_run MAX_ORIGINS
  have hnewest := (hlookup (rootQuestion 4095) ⟨1, 4095⟩).mpr ⟨4095, by decide, rfl, rfl⟩
  refine ⟨filled MAX_ORIGINS, filledPast MAX_ORIGINS, rootQuestion 4095, rootQuestion 0, ⟨1, 0⟩,
    hrun, fun call h => (htimes call h).le, ?_, filled_first, by decide, ?_⟩
  · exact AList.lookup_isSome.mp (by rw [hnewest]; rfl)
  · exact record_evicts hlen.le (by decide) filled_full filled_oldest (by decide)

end Refresh

end Origins

end Tun2Proxy.DnsRouting
