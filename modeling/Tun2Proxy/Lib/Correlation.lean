/-
  File:      Tun2Proxy/Lib/Correlation.lean
  Subject:   Requests that go out under keys, and the answers that bring the keys back.

  A request is issued under a key that no outstanding request has; `probe` searches for one. An
  answer ends the request under its key, and the key may be used again, so a key alone does not
  name a request. The ledger is the history: every request that was ever issued, by its serial
  number, and the serial numbers of those that were answered.

  `Exact l open`: the map `open`, from keys to requests, is what the ledger has outstanding. It is
  kept by issuing a request under a free key (`Exact.issue`) and by answering (`Exact.answer`); an
  answer under a key of the map then ends exactly one request (`Exact.under_eq`).
-/
import Mathlib.Data.List.Nodup
import Mathlib.Data.List.Perm.Subperm
import Mathlib.Logic.Function.Iterate

namespace Correlation

/-! ## 1. The search for a free key -/

section Probe

variable {κ : Type*}

/-- The first free key from `k` on, among the first `tries`. -/
def probe (next : κ → κ) (taken : κ → Bool) : Nat → κ → Option κ
  | 0, _ => none
  | tries + 1, k => if taken k then probe next taken tries (next k) else some k

variable {next : κ → κ} {taken : κ → Bool} {tries : Nat} {k k' : κ}

theorem probe_free (h : probe next taken tries k = some k') : taken k' = false := by
  induction tries generalizing k with
  | zero => cases h
  | succ tries ih =>
    rw [probe] at h
    split at h
    · exact ih h
    · obtain rfl := Option.some.inj h
      exact Bool.eq_false_iff.mpr ‹_›

/-- A search that finds nothing has met taken keys only. -/
theorem probe_eq_none : probe next taken tries k = none ↔
    ∀ n < tries, taken (next^[n] k) = true := by
  induction tries generalizing k with
  | zero => exact ⟨fun _ n hn => absurd hn (Nat.not_lt_zero n), fun _ => rfl⟩
  | succ tries ih =>
    rw [probe]
    split
    · rename_i hk
      rw [ih]
      refine ⟨fun h n hn => ?_, fun h n hn => h (n + 1) (Nat.succ_lt_succ hn)⟩
      cases n with
      | zero => exact hk
      | succ n => exact h n (Nat.lt_of_succ_lt_succ hn)
    · rename_i hk
      exact ⟨nofun, fun h => absurd (h 0 (Nat.succ_pos tries)) hk⟩

/-- **There are more keys than are taken**, so one of the first tries finds a free one. -/
theorem probe_finds {keys : List κ} (hkeys : ∀ k, taken k = true → k ∈ keys)
    (hfresh : ∀ m < tries, ∀ n < tries, next^[m] k = next^[n] k → m = n)
    (hfew : keys.length < tries) : ∃ k', probe next taken tries k = some k' := by
  cases hprobe : probe next taken tries k with
  | some k' => exact ⟨k', rfl⟩
  | none =>
    have htaken := probe_eq_none.mp hprobe
    have hnodup : ((List.range tries).map fun n => next^[n] k).Nodup :=
      List.Nodup.map_on (fun m hm n hn => hfresh m (List.mem_range.mp hm) n
        (List.mem_range.mp hn)) List.nodup_range
    have hsubset : ((List.range tries).map fun n => next^[n] k) ⊆ keys := by
      intro x hx
      obtain ⟨n, hn, rfl⟩ := List.mem_map.mp hx
      exact hkeys _ (htaken n (List.mem_range.mp hn))
    have hle := (List.Nodup.subperm hnodup hsubset).length_le
    rw [List.length_map, List.length_range] at hle
    omega

end Probe

/-! ## 2. The ledger -/

/-- Every request that was issued, with its key, and which of them were answered. -/
structure Ledger (κ β : Type*) where
  log : List (κ × β)
  answered : List Nat

namespace Ledger

variable {κ β : Type*}

def empty : Ledger κ β := ⟨[], []⟩

/-- Request number `n` was issued under the key and is not answered. -/
def Outstanding (l : Ledger κ β) (n : Nat) (k : κ) (b : β) : Prop :=
  n ∉ l.answered ∧ l.log[n]? = some (k, b)

def issue (k : κ) (b : β) (l : Ledger κ β) : Ledger κ β := { l with log := l.log ++ [(k, b)] }

/-- **The map is what is outstanding**, one request under a key. -/
structure Exact (l : Ledger κ β) (table : κ → Option β) : Prop where
  table_iff : ∀ k b, table k = some b ↔ ∃ n, l.Outstanding n k b
  one : ∀ {n m k b b'}, l.Outstanding n k b → l.Outstanding m k b' → n = m
  nodup : l.answered.Nodup
  past : ∀ n ∈ l.answered, n < l.log.length

theorem Exact.empty : Exact (Ledger.empty : Ledger κ β) fun _ => none where
  table_iff k b := ⟨nofun, fun h => by obtain ⟨n, -, hlog⟩ := h; cases hlog⟩
  one h _ := by cases h.2
  nodup := List.nodup_nil
  past n hn := by cases hn

variable [DecidableEq κ]

/-- The requests outstanding under a key. -/
def under (l : Ledger κ β) (k : κ) : List Nat :=
  (List.range l.log.length).filter fun n =>
    decide (n ∉ l.answered) && decide ((l.log[n]?).map Prod.fst = some k)

def answer (k : κ) (l : Ledger κ β) : Ledger κ β :=
  { l with answered := l.under k ++ l.answered }

theorem mem_under {l : Ledger κ β} {k : κ} {n : Nat} :
    n ∈ l.under k ↔ ∃ b, l.Outstanding n k b := by
  unfold under Outstanding
  rw [List.mem_filter, List.mem_range, Bool.and_eq_true, decide_eq_true_iff, decide_eq_true_iff]
  constructor
  · intro h
    obtain ⟨-, hopen, hkey⟩ := h
    obtain ⟨⟨k', b⟩, hlog, rfl⟩ := Option.map_eq_some_iff.mp hkey
    exact ⟨b, hopen, hlog⟩
  · intro h
    obtain ⟨b, hopen, hlog⟩ := h
    exact ⟨(List.getElem?_eq_some_iff.mp hlog).1, hopen, by rw [hlog]; rfl⟩

namespace Exact

variable {l : Ledger κ β} {table table' : κ → Option β} {k : κ} {b : β}

/-- One request is outstanding under a key of the map. -/
theorem under_eq (h : Exact l table) (hk : table k = some b) :
    ∃ n, l.under k = [n] ∧ l.Outstanding n k b := by
  obtain ⟨n, hn⟩ := (h.table_iff k b).mp hk
  refine ⟨n, ?_, hn⟩
  have hnodup : (l.under k).Nodup := List.nodup_range.filter _
  have hmem : n ∈ l.under k := mem_under.mpr ⟨b, hn⟩
  have hall : ∀ m ∈ l.under k, m = n := fun m hm => by
    obtain ⟨b', hb'⟩ := mem_under.mp hm
    exact h.one hb' hn
  rw [List.eq_replicate_of_mem hall] at hnodup hmem ⊢
  have hle := List.nodup_replicate.mp hnodup
  have hpos : (l.under k).length ≠ 0 := fun e => by
    rw [e] at hmem
    cases hmem
  rw [show (l.under k).length = 1 by omega]
  rfl

/-- A request under a free key. -/
theorem issue (h : Exact l table) (hk : table k = none)
    (htable : ∀ x, table' x = if x = k then some b else table x) : Exact (l.issue k b) table' := by
  have hold : ∀ {n x y}, (l.issue k b).Outstanding n x y →
      l.Outstanding n x y ∨ n = l.log.length ∧ x = k ∧ y = b := by
    intro n x y hn
    obtain ⟨hopen, hlog⟩ := hn
    rcases Nat.lt_or_ge n l.log.length with hlt | hge
    · exact .inl ⟨hopen, (List.getElem?_append_left hlt).symm.trans hlog⟩
    · have hlog : (l.log ++ [(k, b)])[n]? = some (x, y) := hlog
      rw [List.getElem?_append_right hge] at hlog
      obtain ⟨hlt, heq⟩ := List.getElem?_eq_some_iff.mp hlog
      have hn : n - l.log.length = 0 := by simpa using hlt
      rw [List.getElem_singleton] at heq
      exact .inr ⟨by omega, (Prod.mk.inj heq).1.symm, (Prod.mk.inj heq).2.symm⟩
  have hkeep : ∀ {n x y}, l.Outstanding n x y → (l.issue k b).Outstanding n x y := by
    intro n x y hn
    have hlt := (List.getElem?_eq_some_iff.mp hn.2).1
    exact ⟨hn.1, (List.getElem?_append_left hlt).trans hn.2⟩
  have hfree : ∀ {n y}, ¬ l.Outstanding n k y := by
    intro n y hn
    rw [(h.table_iff k y).mpr ⟨n, hn⟩] at hk
    cases hk
  have hnew : (l.issue k b).Outstanding l.log.length k b :=
    ⟨fun hm => absurd (h.past _ hm) (Nat.lt_irrefl _), List.getElem?_concat_length⟩
  refine ⟨fun x y => ?_, fun {n m x y y'} hn hm => ?_, h.nodup, fun n hn => ?_⟩
  · rw [htable]
    split
    · subst x
      refine ⟨fun e => ⟨l.log.length, ?_⟩, fun hx => ?_⟩
      · obtain rfl := Option.some.inj e
        exact hnew
      obtain ⟨n, hn⟩ := hx
      rcases hold hn with hn | ⟨-, -, rfl⟩
      · exact absurd hn hfree
      · rfl
    · rename_i hne
      rw [h.table_iff]
      refine ⟨fun hx => hx.imp fun n hn => hkeep hn, fun hx => hx.imp fun n hn => ?_⟩
      exact (hold hn).resolve_right fun e => hne e.2.1
  · rcases hold hn with hn | ⟨hlast, hx, -⟩
    · rcases hold hm with hm | ⟨-, hx, -⟩
      · exact h.one hn hm
      · exact absurd (hx ▸ hn) hfree
    · rcases hold hm with hm | ⟨hlast', -, -⟩
      · exact absurd (hx ▸ hm) hfree
      · rw [hlast, hlast']
  · have hlt := h.past n hn
    show n < (l.log ++ [(k, b)]).length
    rw [List.length_append]
    omega

/-- An answer. -/
theorem answer (h : Exact l table) (htable : ∀ x, table' x = if x = k then none else table x) :
    Exact (l.answer k) table' := by
  have hiff : ∀ {n x y}, (l.answer k).Outstanding n x y ↔ l.Outstanding n x y ∧ x ≠ k := by
    intro n x y
    constructor
    · intro hn
      obtain ⟨hopen, hlog⟩ := hn
      obtain ⟨hunder, hopen⟩ := not_or.mp (fun e => hopen (List.mem_append.mpr e))
      exact ⟨⟨hopen, hlog⟩, fun e => hunder (mem_under.mpr ⟨y, e ▸ ⟨hopen, hlog⟩⟩)⟩
    · intro hn
      obtain ⟨⟨hopen, hlog⟩, hne⟩ := hn
      refine ⟨fun hm => ?_, hlog⟩
      rcases List.mem_append.mp hm with hm | hm
      · obtain ⟨b', hb'⟩ := mem_under.mp hm
        have heq := Option.some.inj (hlog.symm.trans hb'.2)
        exact hne (Prod.mk.inj heq).1
      · exact hopen hm
  refine ⟨fun x y => ?_, fun {n m x y y'} hn hm => h.one (hiff.mp hn).1 (hiff.mp hm).1, ?_,
    fun n hn => ?_⟩
  · rw [htable]
    split
    · refine ⟨nofun, fun hx => ?_⟩
      obtain ⟨n, hn⟩ := hx
      exact absurd ‹x = k› (hiff.mp hn).2
    · rename_i hne
      rw [h.table_iff]
      exact exists_congr fun n => ⟨fun hn => hiff.mpr ⟨hn, hne⟩, fun hn => (hiff.mp hn).1⟩
  · refine List.nodup_append.mpr ⟨List.nodup_range.filter _, h.nodup, fun n hn m hm e => ?_⟩
    obtain ⟨b', hb'⟩ := mem_under.mp hn
    exact hb'.1 (e ▸ hm)
  · rcases List.mem_append.mp hn with hn | hn
    · exact List.mem_range.mp (List.mem_filter.mp hn).1
    · exact h.past n hn

end Exact

end Ledger

end Correlation
