/-
  File:      Tun2Proxy/Proxy/Permits.lean
  Subject:   The permits of the sessions of a TUN (`SessionCounts` and `SessionPermit` of
             src/lib.rs).

  `try_acquire` counts a session in `total` first and under its protocol second; dropping its permit
  takes it out again in the opposite order. There is no lock, so any number of calls of both kinds
  may stand between the two.

  * A step is one atomic operation of one call. `try_update` is a load and a loop of weak
    compare-exchanges, which may fail without a reason and give the value they found. The snapshot
    for the log is three loads, which change nothing.
  * The calls and the permits have no names: the state has the multiset of where they stand.
  * A counter is a `usize` of `w` bits, whatever the target's `w` is; its operations wrap.

  Each place in a call says in which counters its session is counted, so a counter is the number of
  the calls that stand at the right places (`Counted`).
-/
import Mathlib.Algebra.Group.Nat.Defs
import Mathlib.Data.Multiset.AddSub
import Mathlib.Data.Multiset.Count

namespace Tun2Proxy

/-! ## 1. The counters and the calls -/

/-- The protocols of sessions. `protocol_count` has no counter for the others of `IpProtocol`, and
    nobody asks for one. -/
inductive IpProtocol where
  | Tcp
  | Udp
  deriving DecidableEq, Repr

structure SessionCounts (w : Nat) where
  total : BitVec w
  tcp : BitVec w
  udp : BitVec w
  deriving DecidableEq, Repr

namespace SessionCounts

variable {w : Nat}

def protocolCount (self : SessionCounts w) : IpProtocol → BitVec w
  | .Tcp => self.tcp
  | .Udp => self.udp

def setProtocolCount (self : SessionCounts w) (count : BitVec w) : IpProtocol → SessionCounts w
  | .Tcp => { self with tcp := count }
  | .Udp => { self with udp := count }

@[simp] theorem total_setProtocolCount (self : SessionCounts w) (count : BitVec w)
    (p : IpProtocol) : (self.setProtocolCount count p).total = self.total := by
  cases p <;> rfl

@[simp] theorem protocolCount_setProtocolCount (self : SessionCounts w) (count : BitVec w)
    (p : IpProtocol) : (self.setProtocolCount count p).protocolCount p = count := by
  cases p <;> rfl

theorem protocolCount_setProtocolCount_of_ne (self : SessionCounts w) (count : BitVec w)
    {p q : IpProtocol} (h : q ≠ p) :
    (self.setProtocolCount count p).protocolCount q = self.protocolCount q := by
  cases p <;> cases q <;> first | rfl | exact absurd rfl h

@[simp] theorem protocolCount_mk (self : SessionCounts w) (total : BitVec w) (p : IpProtocol) :
    SessionCounts.protocolCount ⟨total, self.tcp, self.udp⟩ p = self.protocolCount p := by
  cases p <;> rfl

end SessionCounts

/-- Where a call stands, or the permit that it gave. -/
inductive PermitPhase (w : Nat) where
  /-- Before the load of `try_update`. -/
  | loading (protocol : IpProtocol)
  /-- Before a compare-exchange of `count`. -/
  | updating (protocol : IpProtocol) (count : BitVec w)
  /-- Counted in `total`, before the `fetch_add`. -/
  | counting (protocol : IpProtocol)
  /-- Taking the snapshot, with this many loads to go. -/
  | admitted (protocol : IpProtocol) (loads : Nat)
  /-- The permit is there. -/
  | live (protocol : IpProtocol)
  /-- In `drop`, before the first `fetch_sub`. -/
  | dropping (protocol : IpProtocol)
  /-- Before the second one. -/
  | releasing (protocol : IpProtocol)
  | released (loads : Nat)
  deriving DecidableEq, Repr

structure Permits (w : Nat) where
  counts : SessionCounts w
  calls : Multiset (PermitPhase w)

namespace Permits

variable {w : Nat}

/-- `SessionCounts::default`. -/
def start : Permits w := ⟨⟨0, 0, 0⟩, 0⟩

/-- The update of `try_update` on the value it has found: another try, or the end of the call. -/
def offer (maxSessions : BitVec w) (protocol : IpProtocol) (count : BitVec w) :
    Multiset (PermitPhase w) :=
  if count < maxSessions then {.updating protocol count} else 0

/-- **One atomic operation.** -/
inductive Step (maxSessions : BitVec w) : Permits w → Permits w → Prop
  -- `try_acquire`
  | call (counts calls p) : Step maxSessions ⟨counts, calls⟩ ⟨counts, .loading p ::ₘ calls⟩
  | load (counts calls p) : Step maxSessions ⟨counts, .loading p ::ₘ calls⟩
      ⟨counts, offer maxSessions p counts.total + calls⟩
  | exchange (counts calls p) : Step maxSessions ⟨counts, .updating p counts.total ::ₘ calls⟩
      ⟨{ counts with total := counts.total + 1 }, .counting p ::ₘ calls⟩
  | exchangeFails (counts calls p count) : Step maxSessions ⟨counts, .updating p count ::ₘ calls⟩
      ⟨counts, offer maxSessions p counts.total + calls⟩
  | fetchAdd (counts calls p) : Step maxSessions ⟨counts, .counting p ::ₘ calls⟩
      ⟨counts.setProtocolCount (counts.protocolCount p + 1) p, .admitted p 3 ::ₘ calls⟩
  | snapshot (counts calls p loads) : Step maxSessions ⟨counts, .admitted p (loads + 1) ::ₘ calls⟩
      ⟨counts, .admitted p loads ::ₘ calls⟩
  | permit (counts calls p) : Step maxSessions ⟨counts, .admitted p 0 ::ₘ calls⟩
      ⟨counts, .live p ::ₘ calls⟩
  -- `drop`
  | drop (counts calls p) : Step maxSessions ⟨counts, .live p ::ₘ calls⟩
      ⟨counts, .dropping p ::ₘ calls⟩
  | fetchSub (counts calls p) : Step maxSessions ⟨counts, .dropping p ::ₘ calls⟩
      ⟨counts.setProtocolCount (counts.protocolCount p - 1) p, .releasing p ::ₘ calls⟩
  | fetchSubTotal (counts calls p) : Step maxSessions ⟨counts, .releasing p ::ₘ calls⟩
      ⟨{ counts with total := counts.total - 1 }, .released 3 ::ₘ calls⟩
  | snapshotReleased (counts calls loads) :
      Step maxSessions ⟨counts, .released (loads + 1) ::ₘ calls⟩ ⟨counts, .released loads ::ₘ calls⟩
  | gone (counts calls) : Step maxSessions ⟨counts, .released 0 ::ₘ calls⟩ ⟨counts, calls⟩

inductive Reachable (maxSessions : BitVec w) : Permits w → Prop
  | start : Reachable maxSessions start
  | step {s s' : Permits w} (hs : Reachable maxSessions s) (h : Step maxSessions s s') :
      Reachable maxSessions s'

end Permits

/-! ## 2. Who is counted -/

namespace PermitPhase

variable {w : Nat}

/-- The session of the call is counted in `total`. -/
def inTotal : PermitPhase w → Bool
  | .counting _ | .admitted _ _ | .live _ | .dropping _ | .releasing _ => true
  | _ => false

/-- The session of the call is counted under this protocol. -/
def inProtocol (p : IpProtocol) : PermitPhase w → Bool
  | .admitted q _ | .live q | .dropping q => q == p
  | _ => false

theorem inProtocol_of_not_inTotal {phase : PermitPhase w} (h : phase.inTotal = false)
    (p : IpProtocol) : phase.inProtocol p = false := by
  cases phase <;> first | rfl | cases h

end PermitPhase

namespace Permits

variable {w : Nat} {maxSessions : BitVec w} {s s' : Permits w}

/-- The calls that count in `total`. -/
def totalCalls (calls : Multiset (PermitPhase w)) : Nat := calls.countP (·.inTotal = true)

/-- The calls that count under a protocol. -/
def protocolCalls (calls : Multiset (PermitPhase w)) (p : IpProtocol) : Nat :=
  calls.countP (·.inProtocol p = true)

@[simp] theorem totalCalls_cons (phase : PermitPhase w) (calls : Multiset (PermitPhase w)) :
    totalCalls (phase ::ₘ calls) = totalCalls calls + phase.inTotal.toNat := by
  rw [totalCalls, Multiset.countP_cons]
  cases phase.inTotal <;> rfl

@[simp] theorem protocolCalls_cons (phase : PermitPhase w) (calls : Multiset (PermitPhase w))
    (p : IpProtocol) :
    protocolCalls (phase ::ₘ calls) p = protocolCalls calls p + (phase.inProtocol p).toNat := by
  rw [protocolCalls, Multiset.countP_cons]
  cases phase.inProtocol p <;> rfl

/-- No session is counted under two protocols, and one that is counted under a protocol is counted
    in `total`. -/
theorem protocolCalls_le (calls : Multiset (PermitPhase w)) :
    protocolCalls calls .Tcp + protocolCalls calls .Udp ≤ totalCalls calls := by
  induction calls using Multiset.induction_on with
  | empty => exact Nat.le_refl 0
  | cons phase calls ih =>
    have hone : (phase.inProtocol .Tcp).toNat + (phase.inProtocol .Udp).toNat ≤
        phase.inTotal.toNat := by
      cases phase with
      | admitted q | live q | dropping q => cases q <;> exact Nat.le_refl 1
      | loading | updating | counting | releasing | released => exact Nat.zero_le _
    rw [protocolCalls_cons, protocolCalls_cons, totalCalls_cons]
    omega

/-- **The invariant.** -/
structure Counted (maxSessions : BitVec w) (s : Permits w) : Prop where
  total : s.counts.total.toNat = totalCalls s.calls
  protocol : ∀ p, (s.counts.protocolCount p).toNat = protocolCalls s.calls p
  bounded : s.counts.total ≤ maxSessions
  /-- The value of a compare-exchange leaves room. -/
  room : ∀ p count, .updating p count ∈ s.calls → count < maxSessions

theorem Counted.start : Counted maxSessions start where
  total := BitVec.toNat_zero
  protocol p := by cases p <;> exact BitVec.toNat_zero
  bounded := Nat.zero_le _
  room _ _ h := absurd h (Multiset.notMem_zero _)

/-- Any call can be looked at first. -/
theorem Counted.front (h : Counted maxSessions s) {phase : PermitPhase w} (hmem : phase ∈ s.calls) :
    ∃ rest, Counted maxSessions ⟨s.counts, phase ::ₘ rest⟩ := by
  obtain ⟨rest, hrest⟩ := Multiset.exists_cons_of_mem hmem
  refine ⟨rest, ?_⟩
  rw [← hrest]
  exact h

/-! ## 3. The counters keep it -/

/-- A counter below another value can be raised by one. -/
theorem toNat_add_one {x y : BitVec w} (h : x.toNat < y.toNat) :
    (x + 1).toNat = x.toNat + 1 := by
  have hy := y.isLt
  have hw : 1 % 2 ^ w = 1 := Nat.mod_eq_of_lt (by omega)
  rw [BitVec.toNat_add, BitVec.ofNat_eq_ofNat, BitVec.toNat_ofNat, hw]
  exact Nat.mod_eq_of_lt (by omega)

/-- A counter above zero can be lowered by one. -/
theorem toNat_sub_one {x : BitVec w} (h : 0 < x.toNat) : (x - 1).toNat = x.toNat - 1 := by
  have hx := x.isLt
  have hw : 1 % 2 ^ w = 1 := Nat.mod_eq_of_lt (by omega)
  rw [BitVec.toNat_sub, BitVec.ofNat_eq_ofNat, BitVec.toNat_ofNat, hw]
  rw [show 2 ^ w - 1 + x.toNat = x.toNat - 1 + 2 ^ w by omega, Nat.add_mod_right]
  exact Nat.mod_eq_of_lt (by omega)

variable {counts : SessionCounts w} {calls : Multiset (PermitPhase w)} {old new : PermitPhase w}

/-- A call moves on, and the counters change by what its places say. -/
theorem Counted.moved {counts' : SessionCounts w} (h : Counted maxSessions ⟨counts, old ::ₘ calls⟩)
    (htotal : counts'.total.toNat + old.inTotal.toNat = counts.total.toNat + new.inTotal.toNat)
    (hprotocol : ∀ p, (counts'.protocolCount p).toNat + (old.inProtocol p).toNat =
      (counts.protocolCount p).toNat + (new.inProtocol p).toNat)
    (hbounded : counts'.total ≤ maxSessions) (hroom : ∀ p count, new ≠ .updating p count) :
    Counted maxSessions ⟨counts', new ::ₘ calls⟩ where
  total := by
    have hold := h.total
    simp only [totalCalls_cons] at hold ⊢
    omega
  protocol p := by
    have hold := h.protocol p
    have hp := hprotocol p
    simp only [protocolCalls_cons] at hold ⊢
    omega
  bounded := hbounded
  room p count hmem := by
    rcases Multiset.mem_cons.mp hmem with heq | hmem
    · exact absurd heq.symm (hroom p count)
    · exact h.room p count (Multiset.mem_cons_of_mem hmem)

/-- A call that is counted as before. -/
theorem Counted.kept (h : Counted maxSessions ⟨counts, old ::ₘ calls⟩)
    (htotal : new.inTotal = old.inTotal) (hprotocol : ∀ p, new.inProtocol p = old.inProtocol p)
    (hroom : ∀ p count, new ≠ .updating p count) : Counted maxSessions ⟨counts, new ::ₘ calls⟩ :=
  h.moved (by rw [htotal]) (fun p => by rw [hprotocol]) h.bounded hroom

/-- A call that is not counted can go. -/
theorem Counted.removed (h : Counted maxSessions ⟨counts, old ::ₘ calls⟩)
    (hold : old.inTotal = false) : Counted maxSessions ⟨counts, calls⟩ where
  total := by simpa [hold] using h.total
  protocol p := by simpa [PermitPhase.inProtocol_of_not_inTotal hold p] using h.protocol p
  bounded := h.bounded
  room p count hmem := h.room p count (Multiset.mem_cons_of_mem hmem)

/-- And one can come, if its compare-exchange leaves room. -/
theorem Counted.added (h : Counted maxSessions ⟨counts, calls⟩) (hnew : new.inTotal = false)
    (hroom : ∀ p count, new = .updating p count → count < maxSessions) :
    Counted maxSessions ⟨counts, new ::ₘ calls⟩ where
  total := by simpa [hnew] using h.total
  protocol p := by simpa [PermitPhase.inProtocol_of_not_inTotal hnew p] using h.protocol p
  bounded := h.bounded
  room p count hmem := by
    rcases Multiset.mem_cons.mp hmem with heq | hmem
    · exact hroom p count heq.symm
    · exact h.room p count hmem

theorem Counted.offered (h : Counted maxSessions ⟨counts, calls⟩) (p : IpProtocol) :
    Counted maxSessions ⟨counts, offer maxSessions p counts.total + calls⟩ := by
  unfold offer
  split
  next hlt =>
      rw [Multiset.singleton_add]
      refine h.added rfl ?_
      intro q count heq
      cases heq
      exact hlt
  next =>
      rw [Multiset.zero_add]
      exact h

variable {p : IpProtocol}

/-- The compare-exchange succeeds: the value is one that leaves room. -/
theorem Counted.exchanged (h : Counted maxSessions ⟨counts, .updating p counts.total ::ₘ calls⟩) :
    Counted maxSessions ⟨{ counts with total := counts.total + 1 }, .counting p ::ₘ calls⟩ := by
  have hroom : counts.total.toNat < maxSessions.toNat :=
    h.room p counts.total (Multiset.mem_cons_self _ _)
  have hnext := toNat_add_one hroom
  refine h.moved hnext (fun q => ?_) ?_ nofun
  · rw [SessionCounts.protocolCount_mk]
    rfl
  · show (counts.total + 1).toNat ≤ maxSessions.toNat
    omega

/-- A call before its `fetch_add` is counted in `total` and not yet under its protocol, so this
    counter is below `total`. -/
theorem Counted.counting_lt (h : Counted maxSessions ⟨counts, .counting p ::ₘ calls⟩) :
    (counts.protocolCount p).toNat < counts.total.toNat := by
  have htotal := h.total
  have hprotocol := h.protocol p
  have hle := protocolCalls_le calls
  simp only [totalCalls_cons, protocolCalls_cons, PermitPhase.inTotal, PermitPhase.inProtocol,
    Bool.toNat_true, Bool.toNat_false, Nat.add_zero] at htotal hprotocol
  cases p <;> omega

/-- A change of a protocol's counter, for a call of this protocol. -/
theorem Counted.recounted {count : BitVec w} (h : Counted maxSessions ⟨counts, old ::ₘ calls⟩)
    (htotal : new.inTotal = old.inTotal) (hp : count.toNat + (old.inProtocol p).toNat =
      (counts.protocolCount p).toNat + (new.inProtocol p).toNat)
    (hothers : ∀ q ≠ p, new.inProtocol q = old.inProtocol q)
    (hroom : ∀ p count, new ≠ .updating p count) :
    Counted maxSessions ⟨counts.setProtocolCount count p, new ::ₘ calls⟩ := by
  refine h.moved (by rw [htotal, SessionCounts.total_setProtocolCount]) (fun q => ?_) ?_ hroom
  · rcases eq_or_ne q p with rfl | hne
    · rw [SessionCounts.protocolCount_setProtocolCount]
      exact hp
    · rw [SessionCounts.protocolCount_setProtocolCount_of_ne _ _ hne, hothers q hne]
  · rw [SessionCounts.total_setProtocolCount]
    exact h.bounded

theorem Counted.added_to_protocol (h : Counted maxSessions ⟨counts, .counting p ::ₘ calls⟩)
    (loads : Nat) :
    Counted maxSessions
      ⟨counts.setProtocolCount (counts.protocolCount p + 1) p, .admitted p loads ::ₘ calls⟩ := by
  refine h.recounted rfl ?_ (fun q hne => ?_) nofun
  · rw [toNat_add_one h.counting_lt]
    simp [PermitPhase.inProtocol]
  · simp [PermitPhase.inProtocol, hne.symm]

/-- A call before its first `fetch_sub` is counted under its protocol. -/
theorem Counted.dropping_pos (h : Counted maxSessions ⟨counts, .dropping p ::ₘ calls⟩) :
    0 < (counts.protocolCount p).toNat := by
  have hprotocol := h.protocol p
  simp only [protocolCalls_cons, PermitPhase.inProtocol, beq_self_eq_true, Bool.toNat_true]
    at hprotocol
  omega

theorem Counted.removed_from_protocol (h : Counted maxSessions ⟨counts, .dropping p ::ₘ calls⟩) :
    Counted maxSessions
      ⟨counts.setProtocolCount (counts.protocolCount p - 1) p, .releasing p ::ₘ calls⟩ := by
  have hpos := h.dropping_pos
  refine h.recounted rfl ?_ (fun q hne => ?_) nofun
  · rw [toNat_sub_one hpos]
    simp only [PermitPhase.inProtocol, beq_self_eq_true, Bool.toNat_true, Bool.toNat_false]
    omega
  · simp [PermitPhase.inProtocol, hne.symm]

/-- A call before its second `fetch_sub` is counted in `total`. -/
theorem Counted.releasing_pos (h : Counted maxSessions ⟨counts, .releasing p ::ₘ calls⟩) :
    0 < counts.total.toNat := by
  have htotal := h.total
  simp only [totalCalls_cons, PermitPhase.inTotal, Bool.toNat_true] at htotal
  omega

theorem Counted.removed_from_total (h : Counted maxSessions ⟨counts, .releasing p ::ₘ calls⟩)
    (loads : Nat) :
    Counted maxSessions
      ⟨{ counts with total := counts.total - 1 }, .released loads ::ₘ calls⟩ := by
  have hpos := h.releasing_pos
  have hprevious := toNat_sub_one hpos
  have hbounded : counts.total.toNat ≤ maxSessions.toNat := h.bounded
  refine h.moved ?_ (fun q => ?_) ?_ nofun
  · rw [hprevious]
    simp only [PermitPhase.inTotal, Bool.toNat_true, Bool.toNat_false]
    omega
  · rw [SessionCounts.protocolCount_mk]
    rfl
  · show (counts.total - 1).toNat ≤ maxSessions.toNat
    omega

/-- **Every atomic operation keeps the invariant.** -/
theorem Counted.step (h : Counted maxSessions s) (hstep : Step maxSessions s s') :
    Counted maxSessions s' := by
  cases hstep with
  | call => exact h.added rfl nofun
  | load => exact (h.removed rfl).offered _
  | exchange => exact h.exchanged
  | exchangeFails => exact (h.removed rfl).offered _
  | fetchAdd => exact h.added_to_protocol 3
  | snapshot | permit | drop => exact h.kept rfl (fun _ => rfl) nofun
  | fetchSub => exact h.removed_from_protocol
  | fetchSubTotal => exact h.removed_from_total 3
  | snapshotReleased => exact h.kept rfl (fun _ => rfl) nofun
  | gone => exact h.removed rfl

theorem Reachable.counted (h : Reachable maxSessions s) : Counted maxSessions s := by
  induction h with
  | start => exact Counted.start
  | step _ hstep ih => exact ih.step hstep

/-! ## 4. What the counters say -/

/-- No call is in progress: there are only permits. -/
def Quiet (s : Permits w) : Prop := ∀ phase ∈ s.calls, ∃ p, phase = .live p

theorem Quiet.totalCalls_eq (h : ∀ phase ∈ calls, ∃ p, phase = .live p) :
    totalCalls calls = calls.card := by
  refine Multiset.countP_eq_card.mpr fun phase hmem => ?_
  obtain ⟨p, rfl⟩ := h phase hmem
  rfl

theorem Quiet.protocolCalls_eq (h : ∀ phase ∈ calls, ∃ p, phase = .live p) (p : IpProtocol) :
    protocolCalls calls p = calls.count (.live p) := by
  refine Multiset.countP_congr rfl fun phase hmem => propext ?_
  obtain ⟨q, rfl⟩ := h phase hmem
  rw [PermitPhase.inProtocol, beq_iff_eq, PermitPhase.live.injEq]
  exact eq_comm

/-- A permit is one of TCP or of UDP. -/
theorem Quiet.card_eq (h : ∀ phase ∈ calls, ∃ p, phase = .live p) :
    calls.card = calls.count (.live .Tcp) + calls.count (.live .Udp) := by
  induction calls using Multiset.induction_on with
  | empty => rfl
  | cons phase calls ih =>
    obtain ⟨p, rfl⟩ := h phase (Multiset.mem_cons_self _ _)
    have hrest := ih fun phase hmem => h phase (Multiset.mem_cons_of_mem hmem)
    cases p <;> simp [hrest] <;> omega

/-- **The counters are right after every operation.** No protocol's counter passes `total`, which
    never passes the limit; no `fetch_add` of a run overflows and no `fetch_sub` underflows; and
    between the calls the counters are the numbers of permits. -/
theorem permits_counted (maxSessions : BitVec w) (s : Permits w)
    (h : Reachable maxSessions s) :
    s.counts.tcp.toNat + s.counts.udp.toNat ≤ s.counts.total.toNat ∧
      s.counts.total ≤ maxSessions ∧
      (∀ p, .counting p ∈ s.calls → (s.counts.protocolCount p).toNat + 1 < 2 ^ w) ∧
      (∀ p, .dropping p ∈ s.calls → 0 < (s.counts.protocolCount p).toNat) ∧
      (∀ p, .releasing p ∈ s.calls → 0 < s.counts.total.toNat) ∧
      (Quiet s →
        s.counts.total.toNat = s.counts.tcp.toNat + s.counts.udp.toNat ∧
          s.counts.total.toNat = s.calls.card ∧
          ∀ p, (s.counts.protocolCount p).toNat = s.calls.count (.live p)) := by
  have hcounted := h.counted
  have htcp : s.counts.tcp.toNat = protocolCalls s.calls .Tcp := hcounted.protocol .Tcp
  have hudp : s.counts.udp.toNat = protocolCalls s.calls .Udp := hcounted.protocol .Udp
  have htotal := hcounted.total
  refine ⟨?_, hcounted.bounded, fun p hmem => ?_, fun p hmem => ?_, fun p hmem => ?_,
    fun hquiet => ⟨?_, ?_, fun p => ?_⟩⟩
  · have hle := protocolCalls_le s.calls
    omega
  · obtain ⟨_, hfront⟩ := hcounted.front hmem
    have hlt := hfront.counting_lt
    have hmax := s.counts.total.isLt
    omega
  · obtain ⟨_, hfront⟩ := hcounted.front hmem
    exact hfront.dropping_pos
  · obtain ⟨_, hfront⟩ := hcounted.front hmem
    exact hfront.releasing_pos
  · rw [htotal, Quiet.totalCalls_eq hquiet, htcp, hudp, Quiet.protocolCalls_eq hquiet,
      Quiet.protocolCalls_eq hquiet]
    exact Quiet.card_eq hquiet
  · rw [htotal, Quiet.totalCalls_eq hquiet]
  · rw [hcounted.protocol p, Quiet.protocolCalls_eq hquiet]

/-- A call that finds room and is not disturbed. -/
theorem Reachable.acquire {maxSessions : BitVec w} {counts : SessionCounts w}
    {calls : Multiset (PermitPhase w)} (h : Reachable maxSessions ⟨counts, calls⟩)
    (p : IpProtocol) (hroom : counts.total < maxSessions) :
    Reachable maxSessions ⟨SessionCounts.setProtocolCount
      { counts with total := counts.total + 1 } (counts.protocolCount p + 1) p,
      .live p ::ₘ calls⟩ := by
  have hloaded := (h.step (.call _ _ p)).step (.load _ _ _)
  rw [offer, if_pos hroom] at hloaded
  have hadded := (hloaded.step (.exchange _ _ _)).step (.fetchAdd _ _ _)
  exact (((hadded.step (.snapshot _ _ _ _)).step (.snapshot _ _ _ _)).step
    (.snapshot _ _ _ _)).step (.permit _ _ _)

/-- A permit for TCP and two for UDP. -/
def threeSessions : Permits 64 := ⟨⟨3, 1, 2⟩, {.live .Udp, .live .Udp, .live .Tcp}⟩

theorem threeSessions_reachable : Reachable 3 threeSessions :=
  (((Reachable.start.acquire .Tcp (by decide)).acquire .Udp (by decide)).acquire .Udp
    (by decide))

theorem threeSessions_quiet : Quiet threeSessions := by
  simp [Quiet, threeSessions]

/-- Three permits; then one of them is being given back. -/
theorem sample_permits_counted :
    threeSessions.counts.total.toNat = threeSessions.calls.card ∧
      (∀ p, (threeSessions.counts.protocolCount p).toNat =
        threeSessions.calls.count (.live p)) ∧
      ∃ s : Permits 64, Reachable 3 s ∧ .dropping .Udp ∈ s.calls ∧
        0 < (s.counts.protocolCount .Udp).toNat := by
  obtain ⟨-, -, -, -, -, hquiet⟩ := permits_counted 3 threeSessions threeSessions_reachable
  obtain ⟨-, hcard, hlive⟩ := hquiet threeSessions_quiet
  have hdrop := threeSessions_reachable.step (.drop _ _ .Udp)
  have hmem := Multiset.mem_cons_self (PermitPhase.dropping (w := 64) .Udp)
    {.live .Udp, .live .Tcp}
  exact ⟨hcard, hlive, _, hdrop, hmem, (permits_counted 3 _ hdrop).2.2.2.1 .Udp hmem⟩

end Permits

end Tun2Proxy
