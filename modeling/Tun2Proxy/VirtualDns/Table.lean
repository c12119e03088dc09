/-
  File:      Tun2Proxy/VirtualDns/Table.lean
  Subject:   The fake-IP table: its invariant, what every operation does to it, every run.

  `FakeIpTable pool v` is what the rest of the program relies on: the two maps are exact inverses
  of each other, mapped addresses and the cursor lie in the pool, mapped names are canonical. It
  holds in every state a resolver can reach (`reachable_fakeIpTable`), whatever the journal holds
  and whatever the file system answers.

  A restored record is an assignment in the sense of `Replay`: it takes the address from its old
  name and the name from its old address. An allocation has three outcomes (`Allocated`): a hit,
  the first free address of the circular scan, or a recycled one.
-/
import Tun2Proxy.Lib.Replay
import Tun2Proxy.Net.Arithmetic
import Tun2Proxy.VirtualDns.JsonRecords
import Tun2Proxy.VirtualDns.Steps

namespace Tun2Proxy

open Lines

/-! ## 1. The invariant -/

/-- The addresses of a pool. -/
def IpCidr.Contains (pool : IpCidr) (ip : IpAddr) : Prop :=
  ip.SameFamily pool.firstAddress ∧ pool.firstAddress.toNat ≤ ip.toNat ∧
    ip.toNat ≤ pool.lastAddress.toNat

theorem IpCidr.addressInPool_iff_contains (pool : IpCidr) (ip : IpAddr) :
    addressInPool ip pool.firstAddress pool.lastAddress = true ↔ pool.Contains ip :=
  addressInPool_iff pool.sameFamily

/-- The invariant of the fake-IP table of a pool. -/
structure FakeIpTable (pool : IpCidr) (v : VirtualDns) : Prop where
  dot : v.trailingDot = false
  network : v.networkAddr = pool.firstAddress
  broadcast : v.broadcastAddr = pool.lastAddress
  inverse : ∀ ip name, v.lruCache.peek ip = some name ↔ v.nameToIp.lookup name = some ip
  inPool : ∀ ip name, v.lruCache.peek ip = some name → pool.Contains ip
  canonical : ∀ ip name, v.lruCache.peek ip = some name → v.canonicalName name = name
  cursor : pool.Contains v.nextAddr

namespace VirtualDns

theorem canonicalName_idem (v : VirtualDns) (name : Str) :
    v.canonicalName (v.canonicalName name) = v.canonicalName name := by
  unfold canonicalName
  cases v.trailingDot with
  | true => simp
  | false =>
    by_cases h : name.endsWith '.' = true
    · simp [h, Str.endsWith_dot_lowercase, Str.endsWith_trimEndMatches]
    · simp [h, Str.endsWith_dot_lowercase]

end VirtualDns

namespace FakeIpTable

variable {pool : IpCidr} {v : VirtualDns}

theorem new (pool : IpCidr) : FakeIpTable pool (VirtualDns.new pool) where
  dot := rfl
  network := rfl
  broadcast := rfl
  inverse := LruCache.inverse_empty
  inPool := nofun
  canonical := nofun
  cursor := ⟨rfl, le_refl _, pool.first_le_last⟩

theorem family (h : FakeIpTable pool v) : v.networkAddr.SameFamily v.broadcastAddr := by
  rw [h.network, h.broadcast]
  exact pool.sameFamily

theorem network_le (h : FakeIpTable pool v) : v.networkAddr.toNat ≤ v.broadcastAddr.toNat := by
  rw [h.network, h.broadcast]
  exact pool.first_le_last

theorem contains_iff (h : FakeIpTable pool v) (ip : IpAddr) :
    pool.Contains ip ↔ addressInPool ip v.networkAddr v.broadcastAddr = true := by
  rw [h.network, h.broadcast]
  exact (pool.addressInPool_iff_contains ip).symm

theorem withCursor (h : FakeIpTable pool v) {a : IpAddr}
    (ha : addressInPool a v.networkAddr v.broadcastAddr = true) :
    FakeIpTable pool { v with nextAddr := a } :=
  ⟨h.dot, h.network, h.broadcast, h.inverse, h.inPool, h.canonical, (h.contains_iff a).mpr ha⟩

theorem journaled (h : FakeIpTable pool v) (p : Option PersistentCache) :
    FakeIpTable pool { v with persistence := p } :=
  ⟨h.dot, h.network, h.broadcast, h.inverse, h.inPool, h.canonical, h.cursor⟩

theorem sameTable (h : FakeIpTable pool v) {v' : VirtualDns} (hs : v.SameTable v') :
    FakeIpTable pool v' := by
  rw [show v' = _ from hs]
  exact h.journaled _

theorem cleared (h : FakeIpTable pool v) : FakeIpTable pool v.clearMappings where
  dot := h.dot
  network := h.network
  broadcast := h.broadcast
  inverse := LruCache.inverse_empty
  inPool := nofun
  canonical := nofun
  cursor := by
    show pool.Contains v.networkAddr
    rw [h.network]
    exact ⟨rfl, le_refl _, pool.first_le_last⟩

theorem touched (h : FakeIpTable pool v) (ip : IpAddr) : FakeIpTable pool (v.touchIp ip) where
  dot := h.dot
  network := h.network
  broadcast := h.broadcast
  inverse := LruCache.inverse_touch h.inverse ip
  inPool := by grind [VirtualDns.touchIp, h.inPool]
  canonical a n e := h.canonical a n (by grind [VirtualDns.touchIp])
  cursor := h.cursor

/-- Taking one mapping out of both maps. -/
theorem evicted (h : FakeIpTable pool v) {ip : IpAddr} {name : Str}
    (hm : v.lruCache.peek ip = some name) :
    FakeIpTable pool { v with
      lruCache := (v.lruCache.remove ip).2
      nameToIp := v.nameToIp.erase name } where
  dot := h.dot
  network := h.network
  broadcast := h.broadcast
  inverse := LruCache.inverse_remove h.inverse hm
  inPool := by grind [h.inPool]
  canonical a n e := h.canonical a n (by grind)
  cursor := h.cursor

/-- Binding a free address of the pool to a free canonical name. -/
theorem bound (h : FakeIpTable pool v) {ip : IpAddr} {name : Str} (hip : pool.Contains ip)
    (hname : v.canonicalName name = name) (ha : v.lruCache.peek ip = none)
    (hb : v.nameToIp.lookup name = none) :
    FakeIpTable pool (v.bindMapping ip name) where
  dot := h.dot
  network := h.network
  broadcast := h.broadcast
  inverse := LruCache.inverse_insert h.inverse ha hb
  inPool := by grind [VirtualDns.bindMapping, h.inPool]
  canonical a n e := by
    rw [VirtualDns.bindMapping, LruCache.peek_insert] at e
    split at e
    · cases e; exact hname
    · exact h.canonical a n e
  cursor := h.cursor

end FakeIpTable

/-! ## 2. Restoring records -/

namespace VirtualDns

/-- Two resolvers that differ in the two maps only. -/
def OnlyMaps (v v' : VirtualDns) : Prop :=
  v' = { v with lruCache := v'.lruCache, nameToIp := v'.nameToIp }

variable {v v' : VirtualDns}

theorem OnlyMaps.trans {v'' : VirtualDns} (h : v.OnlyMaps v') (h' : v'.OnlyMaps v'') :
    v.OnlyMaps v'' := by
  unfold OnlyMaps at *
  rw [h', h]

/-- A record that `restore_mapping` takes. -/
def restorable (v : VirtualDns) (m : IpAddr × Str) : Bool :=
  !(v.canonicalName m.2).isEmpty && decide ((v.canonicalName m.2).len ≤ 253) &&
    v.addressInPool m.1

theorem restorable_iff {v : VirtualDns} {ip : IpAddr} {name : Str} :
    v.restorable (ip, name) = true ↔
      (v.canonicalName name ≠ [] ∧ (v.canonicalName name).len ≤ 253) ∧
        v.addressInPool ip = true := by
  simp [restorable]

/-- The assignments that restoring the records performs. -/
def restored (v : VirtualDns) (mappings : List (IpAddr × Str)) : List (IpAddr × Str) :=
  (mappings.filter v.restorable).map fun m => (m.1, v.canonicalName m.2)

/-- Two resolvers of one pool that canonicalise names alike. -/
structure SameSettings (v v' : VirtualDns) : Prop where
  trailingDot : v'.trailingDot = v.trailingDot
  network : v'.networkAddr = v.networkAddr
  broadcast : v'.broadcastAddr = v.broadcastAddr

theorem SameSettings.canonicalName (h : v.SameSettings v') :
    v'.canonicalName = v.canonicalName := by
  funext name
  unfold VirtualDns.canonicalName
  rw [h.trailingDot]

theorem SameSettings.restorable (h : v.SameSettings v') : v'.restorable = v.restorable := by
  funext m
  unfold VirtualDns.restorable VirtualDns.addressInPool
  rw [h.canonicalName, h.network, h.broadcast]

theorem SameSettings.restored (h : v.SameSettings v') : v'.restored = v.restored := by
  funext mappings
  unfold VirtualDns.restored
  rw [h.canonicalName, h.restorable]

theorem OnlyMaps.settings (h : v.OnlyMaps v') : v.SameSettings v' := by
  rw [show v' = _ from h]
  exact ⟨rfl, rfl, rfl⟩

variable {pool : IpCidr} {v : VirtualDns}

/-- Removing a name takes the mapping to it away, if there is one. -/
theorem removeName_spec (h : FakeIpTable pool v) (name : Str) :
    FakeIpTable pool (v.removeName name) ∧ v.OnlyMaps (v.removeName name) ∧
      (v.removeName name).nameToIp.lookup name = none ∧
      (v.removeName name).lruCache.order.Sublist v.lruCache.order ∧
      ∀ x, (v.removeName name).lruCache.peek x =
        if v.lruCache.peek x = some name then none else v.lruCache.peek x := by
  unfold removeName
  cases hl : v.nameToIp.lookup name with
  | none =>
    refine ⟨h, rfl, hl, List.Sublist.refl _, fun x => ?_⟩
    rw [if_neg (LruCache.Inverse.fresh h.inverse hl x)]
  | some oldIp =>
    have hm : v.lruCache.peek oldIp = some name := (h.inverse oldIp name).mpr hl
    refine ⟨h.evicted hm, rfl, AList.lookup_erase _ _, ?_, fun x => ?_⟩
    · rw [LruCache.order_remove]
      exact List.erase_sublist
    · have hunique : v.lruCache.peek x = some name → x = oldIp := fun e =>
        LruCache.Inverse.key_unique h.inverse e hm
      grind

/-- Removing an address takes its mapping away, if there is one. -/
theorem removeIp_spec (h : FakeIpTable pool v) (ip : IpAddr) :
    FakeIpTable pool (v.removeIp ip) ∧ v.OnlyMaps (v.removeIp ip) ∧
      (v.removeIp ip).lruCache.order.Sublist v.lruCache.order ∧
      (∀ n, v.nameToIp.lookup n = none → (v.removeIp ip).nameToIp.lookup n = none) ∧
      ∀ x, (v.removeIp ip).lruCache.peek x = if x = ip then none else v.lruCache.peek x := by
  have hcache : (v.removeIp ip).lruCache = (v.lruCache.remove ip).2 := by
    unfold removeIp
    split <;> rename_i he <;> rw [he]
  refine ⟨?_, ?_, ?_, fun n hn => ?_, fun x => ?_⟩
  · cases hp : v.lruCache.peek ip with
    | some oldName =>
      have e : v.removeIp ip = { v with
          lruCache := (v.lruCache.remove ip).2, nameToIp := v.nameToIp.erase oldName } := by
        unfold removeIp LruCache.remove
        rw [hp]
      rw [e]
      exact h.evicted hp
    | none =>
      have hpeek : ∀ x, (v.lruCache.remove ip).2.peek x = v.lruCache.peek x := by grind
      have e : v.removeIp ip = { v with lruCache := (v.lruCache.remove ip).2 } := by
        unfold removeIp LruCache.remove
        rw [hp]
      rw [e]
      exact ⟨h.dot, h.network, h.broadcast, fun a n => by rw [hpeek]; exact h.inverse a n,
        fun a n e => h.inPool a n (by rwa [hpeek] at e),
        fun a n e => h.canonical a n (by rwa [hpeek] at e), h.cursor⟩
  · unfold OnlyMaps removeIp
    split <;> rfl
  · rw [hcache, LruCache.order_remove]
    exact List.erase_sublist
  · unfold removeIp
    split <;> grind
  · rw [hcache, LruCache.peek_remove]

theorem restoreMapping_of_not_restorable {ip : IpAddr} {name : Str}
    (h : v.restorable (ip, name) = false) : v.restoreMapping ip name = (false, v) := by
  unfold restoreMapping
  rw [if_pos]
  unfold restorable at h
  simp only [Bool.and_eq_false_iff, Bool.not_eq_false', decide_eq_false_iff_not, not_le] at h
  simpa [or_assoc] using h

theorem restoreMapping_of_restorable {ip : IpAddr} {name : Str}
    (h : v.restorable (ip, name) = true) :
    v.restoreMapping ip name =
      (true, ((v.removeName (v.canonicalName name)).removeIp ip).bindMapping ip
        (v.canonicalName name)) := by
  unfold restoreMapping
  rw [if_neg]
  unfold restorable at h
  simpa using h

/-- **Restoring a record is an assignment**: the table stays one-to-one, the address and the name
    lose their old partners, and the address is the most recently used one. -/
theorem restoreMapping_spec (h : FakeIpTable pool v) {ip : IpAddr} {name : Str}
    (hr : v.restorable (ip, name) = true) :
    FakeIpTable pool (v.restoreMapping ip name).2 ∧ v.OnlyMaps (v.restoreMapping ip name).2 ∧
      (v.restoreMapping ip name).2.lruCache.peek =
        Replay.assign v.lruCache.peek ip (v.canonicalName name) ∧
      ∀ uses, LruCache.Recency uses v.lruCache →
        LruCache.Recency (ip :: uses) (v.restoreMapping ip name).2.lruCache := by
  rw [restoreMapping_of_restorable hr]
  have hip : pool.Contains ip := by
    rw [h.contains_iff]
    unfold restorable at hr
    simp only [Bool.and_eq_true] at hr
    exact hr.2
  obtain ⟨h1, o1, n1, s1, p1⟩ := removeName_spec h (v.canonicalName name)
  obtain ⟨h2, o2, s2, n2, p2⟩ := removeIp_spec h1 ip
  have hcanon : ((v.removeName (v.canonicalName name)).removeIp ip).canonicalName
      (v.canonicalName name) = v.canonicalName name := by
    rw [(o1.trans o2).settings.canonicalName]
    exact v.canonicalName_idem name
  refine ⟨h2.bound hip hcanon (by rw [p2, if_pos rfl]) (n2 _ n1), (o1.trans o2).trans rfl, ?_,
    fun uses hu => ?_⟩
  · funext x
    rw [VirtualDns.bindMapping, LruCache.peek_insert, p2, p1]
    grind [Replay.assign]
  · exact LruCache.recency_insert (LruCache.recency_of_sublist hu (s2.trans s1)) _ _

/-- **Restoring the records of a journal**: every restorable record is assigned, in order, and a
    repair is called for exactly when one record was not restorable. -/
theorem restoreMappings_spec (mappings : List (IpAddr × Str)) :
    ∀ {v : VirtualDns} (repair : Bool), FakeIpTable pool v →
      FakeIpTable pool (v.restoreMappings mappings repair).1 ∧
      v.OnlyMaps (v.restoreMappings mappings repair).1 ∧
      (v.restoreMappings mappings repair).2 = (repair || !mappings.all v.restorable) ∧
      (v.restoreMappings mappings repair).1.lruCache.peek =
        (v.restored mappings).foldl (fun t e => Replay.assign t e.1 e.2) v.lruCache.peek ∧
      ∀ uses, LruCache.Recency uses v.lruCache →
        LruCache.Recency (((v.restored mappings).map Prod.fst).reverse ++ uses)
          (v.restoreMappings mappings repair).1.lruCache := by
  induction mappings with
  | nil =>
    intro v repair h
    exact ⟨h, rfl, by simp [restoreMappings], rfl, fun uses hu => hu⟩
  | cons m mappings ih =>
    intro v repair h
    obtain ⟨ip, name⟩ := m
    by_cases hr : v.restorable (ip, name) = true
    · obtain ⟨h1, o1, p1, r1⟩ := restoreMapping_spec h hr
      have e : v.restoreMappings ((ip, name) :: mappings) repair =
          (v.restoreMapping ip name).2.restoreMappings mappings repair := by
        rw [restoreMappings, restoreMapping_of_restorable hr]
      have er : v.restored ((ip, name) :: mappings) =
          (ip, v.canonicalName name) :: v.restored mappings := by
        unfold restored
        rw [List.filter_cons_of_pos hr]
        rfl
      obtain ⟨h2, o2, b2, p2, r2⟩ := ih repair h1
      rw [e, er]
      refine ⟨h2, o1.trans o2, ?_, ?_, fun uses hu => ?_⟩
      · rw [b2, o1.settings.restorable, List.all_cons, hr, Bool.true_and]
      · rw [p2, p1, o1.settings.restored]
        rfl
      · have := r2 _ (r1 uses hu)
        rwa [o1.settings.restored, List.append_cons, ← List.reverse_cons] at this
    · have hr : v.restorable (ip, name) = false := by simpa using hr
      have e : v.restoreMappings ((ip, name) :: mappings) repair =
          v.restoreMappings mappings true := by
        rw [restoreMappings, restoreMapping_of_not_restorable hr]
      have er : v.restored ((ip, name) :: mappings) = v.restored mappings := by
        unfold restored
        rw [List.filter_cons_of_neg (by rw [hr]; exact Bool.false_ne_true)]
      obtain ⟨h2, o2, b2, p2, r2⟩ := ih true h
      rw [e, er]
      refine ⟨h2, o2, ?_, p2, r2⟩
      rw [b2, List.all_cons, hr, Bool.false_and, Bool.not_false, Bool.true_or, Bool.or_true]

end VirtualDns

/-! ## 3. Allocating an address -/

namespace World

/-- The world with the allocation cursor at `a`. -/
def withCursor (w : World) (a : IpAddr) : World := { w with dns := { w.dns with nextAddr := a } }

/-- How many addresses the pool has. -/
def size (w : World) : Nat := poolSize w.dns.networkAddr w.dns.broadcastAddr

/-- The address the circular scan from the cursor meets after `k` steps. -/
def scan (w : World) (k : Nat) : IpAddr :=
  circular w.dns.networkAddr w.dns.broadcastAddr w.dns.nextAddr k

/-- An address without a name. -/
def Free (w : World) (ip : IpAddr) : Prop := w.dns.lruCache.peek ip = none

/-- Taking the victim of the cache out of both maps. -/
def evict (w : World) (oldName : Str) (cache : LruCache IpAddr Str) : World :=
  { w with dns := { w.dns with lruCache := cache, nameToIp := w.dns.nameToIp.erase oldName } }

section Codec

variable (codec : RecordCodec)

/-- The three ways an allocation for a canonical name ends. -/
inductive Allocated (name : Str) (w : World) : IpAddr → World → Prop
  | hit {ip : IpAddr} (hname : w.dns.nameToIp.lookup name = some ip) :
      Allocated name w ip ({ w with dns := w.dns.touchIp ip }.retryDirtyPersistence codec)
  | fresh {k : Nat} (hname : w.dns.nameToIp.lookup name = none) (hk : k < w.size)
      (hused : ∀ j < k, ¬ w.Free (w.scan j)) (hfree : w.Free (w.scan k)) :
      Allocated name w (w.scan k)
        (((w.withCursor (w.scan k)).bindMapping (w.scan k) name).persistMapping codec
          (w.scan k) name)
  | recycled {ip : IpAddr} {oldName : Str} {cache : LruCache IpAddr Str}
      (hname : w.dns.nameToIp.lookup name = none) (hfull : ∀ k < w.size, ¬ w.Free (w.scan k))
      (hvictim : w.dns.lruCache.removeLru = some ((ip, oldName), cache)) :
      Allocated name w ip
        (((w.evict oldName cache).bindMapping ip name).persistMapping codec ip name)

variable {pool : IpCidr} {w : World}

/-- With every address taken, the recycling branch finds a victim. -/
theorem recycle_allocated {name : Str}
    (hname : w.dns.nameToIp.lookup name = none) (hfull : ∀ k < w.size, ¬ w.Free (w.scan k)) :
    ∃ ip w', recycle codec name w = .ok ip w' ∧ Allocated codec name w ip w' := by
  have hne : w.dns.lruCache.order ≠ [] := fun e =>
    hfull 0 (Nat.succ_pos _) (LruCache.notMem_order.mp (e ▸ List.not_mem_nil))
  obtain ⟨ip, oldName, cache, hv⟩ := LruCache.removeLru_isSome hne
  refine ⟨ip, _, ?_, Allocated.recycled hname hfull hv⟩
  unfold recycle
  rw [hv]
  rfl

/-- **The loop of the allocator.** It stands at the `k`-th address of the scan, and the addresses
    before it are taken; it ends in one of the outcomes, or its bound is below the rest of the
    round. -/
theorem allocateLoop_spec (h : FakeIpTable pool w.dns) {name : Str}
    (hname : w.dns.nameToIp.lookup name = none) :
    ∀ fuel k, k < w.size → (∀ j < k, ¬ w.Free (w.scan j)) →
      (allocateLoop codec name w.dns.nextAddr fuel (w.withCursor (w.scan k)) = none ∧
        fuel + k < w.size) ∨
      ∃ ip w', allocateLoop codec name w.dns.nextAddr fuel (w.withCursor (w.scan k)) =
        some (.ok ip w') ∧ Allocated codec name w ip w' := by
  have hcursor : addressInPool w.dns.nextAddr w.dns.networkAddr w.dns.broadcastAddr = true :=
    (h.contains_iff _).mp h.cursor
  have hzero : w.scan 0 = w.dns.nextAddr := circular_zero h.family h.network_le hcursor
  intro fuel
  induction fuel with
  | zero =>
    intro k hk _
    exact Or.inl ⟨rfl, by omega⟩
  | succ fuel ih =>
    intro k hk hused
    unfold allocateLoop
    cases hp : (w.withCursor (w.scan k)).dns.lruCache.peek
        (w.withCursor (w.scan k)).dns.nextAddr with
    | none => exact Or.inr ⟨w.scan k, _, rfl, Allocated.fresh hname hk hused hp⟩
    | some old =>
      have hused' : ∀ j < k + 1, ¬ w.Free (w.scan j) := by
        have hmapped : w.dns.lruCache.peek (w.scan k) = some old := hp
        grind [Free]
      have hadv : advance (w.withCursor (w.scan k)).dns.networkAddr
          (w.withCursor (w.scan k)).dns.broadcastAddr
          (w.withCursor (w.scan k)).dns.nextAddr = .ok (w.scan (k + 1)) :=
        advance_circular h.family h.network_le w.dns.nextAddr k
      simp only [hadv]
      by_cases hround : w.scan (k + 1) = w.dns.nextAddr
      · -- the scan is back at its start: the whole pool was taken
        have hk1 : k + 1 = w.size := by
          by_contra hne
          have hlt : k + 1 < w.size := by omega
          rw [← hzero] at hround
          have := circular_inj h.family h.network_le hlt (Nat.succ_pos _) hround
          omega
        rw [hk1] at hused'
        obtain ⟨ip, w', hr, ha⟩ := recycle_allocated codec hname hused'
        refine Or.inr ⟨ip, w', ?_, ha⟩
        rw [if_pos hround, hround]
        exact congrArg some hr
      · have hk1 : k + 1 < w.size := by
          by_contra hge
          apply hround
          have e : k + 1 = w.size := by omega
          rw [e, ← hzero]
          exact circular_poolSize _ _ _
        rw [if_neg hround]
        rcases ih (k + 1) hk1 hused' with ⟨hn, hlt⟩ | hok
        · exact Or.inl ⟨hn, by omega⟩
        · exact Or.inr hok

/-- **The outcomes of `find_or_allocate_ip`.** A bound of the size of the pool is enough. -/
theorem findOrAllocateIp_cases (h : FakeIpTable pool w.dns) (fuel : Nat) (name : Str) :
    (findOrAllocateIp codec fuel name w = none ∧ fuel < w.size) ∨
    ∃ ip w', findOrAllocateIp codec fuel name w = some (.ok ip w') ∧
      Allocated codec (w.dns.canonicalName name) w ip w' := by
  unfold findOrAllocateIp
  simp only
  cases hl : w.dns.nameToIp.lookup (w.dns.canonicalName name) with
  | some ip => exact Or.inr ⟨ip, _, rfl, Allocated.hit hl⟩
  | none =>
    have hcursor : addressInPool w.dns.nextAddr w.dns.networkAddr w.dns.broadcastAddr = true :=
      (h.contains_iff _).mp h.cursor
    have hzero : w.withCursor (w.scan 0) = w :=
      congrArg w.withCursor (circular_zero h.family h.network_le hcursor)
    have hloop := allocateLoop_spec codec h hl fuel 0 (Nat.succ_pos _) fun j hj => by omega
    rw [hzero] at hloop
    exact hloop

/-- An allocation keeps the invariant. -/
theorem Allocated.fakeIpTable {name : Str} {ip : IpAddr} {w' : World}
    (ha : Allocated codec name w ip w') (h : FakeIpTable pool w.dns)
    (hcanon : w.dns.canonicalName name = name) : FakeIpTable pool w'.dns := by
  cases ha with
  | hit hname => exact (h.touched ip).sameTable (retryDirtyPersistence_sameTable codec _)
  | @fresh k hname hk hused hfree =>
    have hscan := circular_inPool h.family h.network_le w.dns.nextAddr k
    exact ((h.withCursor hscan).bound ((h.contains_iff _).mpr hscan) hcanon hfree
      hname).sameTable (persistMapping_sameTable codec _ _ _)
  | @recycled ip oldName cache hname hfull hvictim =>
    obtain ⟨-, hpeek, rfl⟩ := LruCache.removeLru_eq_some hvictim
    have hfree : (w.dns.lruCache.remove ip).2.peek ip = none := by grind
    have hnone : (w.dns.nameToIp.erase oldName).lookup name = none := by grind
    exact ((h.evicted hpeek).bound (h.inPool ip oldName hpeek) hcanon hfree
      hnone).sameTable (persistMapping_sameTable codec _ _ _)

end Codec

end World

/-! ## 4. Every run -/

section Runs

variable (codec : RecordCodec)

/-- The cursor of a loaded journal was checked against the pool. -/
theorem loadLines_cursor {network broadcast cursor : IpAddr} {ls : List (Option (List UInt8))}
    {mappings : List (IpAddr × Str)} {repair : Bool} {records : Nat}
    (h : PersistentCache.loadLines codec network broadcast ls =
      (.loaded cursor mappings repair, records)) :
    addressInPool cursor network broadcast = true := by
  unfold PersistentCache.loadLines at h
  split at h
  · split at h
    · rename_i c hc
      have hcur : c = cursor := by
        simp only [Prod.mk.injEq, LoadResult.loaded.injEq] at h
        exact h.1.1
      subst hcur
      unfold headerCursor at hc
      split at hc
      · split at hc
        · rename_i hfit
          cases hc
          exact hfit.2.2.2
        · cases hc
      · cases hc
    · simp at h
  · simp at h

variable {w : World} {pool : IpCidr}

/-- A start-up state has the invariant, whatever the file held. -/
theorem World.StartUp.fakeIpTable {path : Str} {dns : VirtualDns} {ms : List (IpAddr × Str)}
    {repair : Bool} (hs : World.StartUp codec path w ms dns repair) (h : FakeIpTable pool w.dns) :
    FakeIpTable pool dns := by
  have hupper := upperHalfStart_inPool h.family h.network_le
  cases hs with
  | missing hfile =>
    have hnext : addressInPool (if w.dns.lruCache.isEmpty = true then
        upperHalfStart w.dns.networkAddr w.dns.broadcastAddr else w.dns.nextAddr)
        w.dns.networkAddr w.dns.broadcastAddr = true := by
      split
      · exact hupper
      · exact (h.contains_iff _).mp h.cursor
    exact (h.withCursor hnext).journaled _
  | incompatible hfile hload =>
    exact (h.cleared.withCursor hupper).journaled _
  | @loaded bytes cursor _ r records hfile hload =>
    have hcursor := loadLines_cursor codec hload
    have hspec := VirtualDns.restoreMappings_spec ms r (h.cleared.withCursor hcursor)
    exact hspec.1.journaled _

/-- The addresses a lookup of `ip` uses. -/
def World.used (w : World) (ip : IpAddr) : List IpAddr :=
  if (w.dns.lruCache.peek ip).isSome then [ip] else []

/-- The addresses `enable_persistence` restores, the last one first. -/
def World.restoredIps (path : Str) (w : World) : List IpAddr :=
  ((w.dns.restored (w.loadedMappings codec path)).map Prod.fst).reverse

/-- One call on a resolver at work, or a change of the disk by anyone. The list holds the
    addresses the call used, the newest first. -/
inductive Serve : World → List IpAddr → World → Prop
  | allocate {w w' : World} {fuel : Nat} {name : Str} {ip : IpAddr}
      (h : World.findOrAllocateIp codec fuel name w = some (.ok ip w')) : Serve w [ip] w'
  | allocateFails {w w' : World} {fuel : Nat} {name : Str} {e : Error}
      (h : World.findOrAllocateIp codec fuel name w = some (.error e w')) : Serve w [] w'
  | touch (w : World) (ip : IpAddr) : Serve w (w.used ip) { w with dns := w.dns.touchIp ip }
  | resolve (w : World) (ip : IpAddr) :
      Serve w (w.used ip) { w with dns := (w.dns.resolveIp ip).2 }
  | disk (w : World) (d : Disk) : Serve w [] { w with disk := d }

/-- A call on the resolver, or a start-up on the journal at some path, which replaces the
    table by what the journal holds. -/
inductive Step : World → List IpAddr → World → Prop
  | serve {w w' : World} {us : List IpAddr} (h : Serve codec w us w') : Step w us w'
  | enable (w : World) (path : Str) :
      Step w (w.restoredIps codec path) (finalState (World.enablePersistence codec path w))

/-- The states reachable from a new resolver of the pool on any disk, with the history of the
    used addresses, the newest first. -/
inductive Reachable (pool : IpCidr) : List IpAddr → World → Prop
  | new (d : Disk) : Reachable pool [] ⟨VirtualDns.new pool, d⟩
  | step {uses us : List IpAddr} {w w' : World} (hr : Reachable pool uses w)
      (hs : Step codec w us w') : Reachable pool (us ++ uses) w'

/-- What a serving call does to the table: it uses an address, or it allocates. -/
theorem serve_cases {w' : World} {us : List IpAddr} (h : FakeIpTable pool w.dns)
    (hs : Serve codec w us w') :
    (us = [] ∧ w'.dns = w.dns) ∨ (∃ ip, us = w.used ip ∧ w'.dns = w.dns.touchIp ip) ∨
    ∃ name ip, us = [ip] ∧ World.Allocated codec (w.dns.canonicalName name) w ip w' := by
  cases hs with
  | @allocate _ fuel name ip ha =>
    rcases World.findOrAllocateIp_cases codec h fuel name with ⟨hn, -⟩ | ⟨ip', w'', hok, hal⟩
    · cases hn.symm.trans ha
    · cases hok.symm.trans ha
      exact Or.inr (Or.inr ⟨name, ip, rfl, hal⟩)
  | @allocateFails _ fuel name e ha =>
    rcases World.findOrAllocateIp_cases codec h fuel name with ⟨hn, -⟩ | ⟨ip', w'', hok, -⟩
    · cases hn.symm.trans ha
    · cases hok.symm.trans ha
  | touch ip | resolve ip => exact Or.inr (Or.inl ⟨ip, rfl, rfl⟩)
  | disk d => exact Or.inl ⟨rfl, rfl⟩

theorem serve_fakeIpTable {w' : World} {us : List IpAddr} (h : FakeIpTable pool w.dns)
    (hs : Serve codec w us w') : FakeIpTable pool w'.dns := by
  rcases serve_cases codec h hs with ⟨-, e⟩ | ⟨ip, -, e⟩ | ⟨name, ip, -, hal⟩
  · rw [e]
    exact h
  · rw [e]
    exact h.touched ip
  · exact hal.fakeIpTable codec h (w.dns.canonicalName_idem name)

theorem step_fakeIpTable {w' : World} {us : List IpAddr} (h : FakeIpTable pool w.dns)
    (hs : Step codec w us w') : FakeIpTable pool w'.dns := by
  cases hs with
  | serve hs => exact serve_fakeIpTable codec h hs
  | enable path =>
    rcases World.enablePersistence_sameTable codec path w with ⟨hd, -⟩ | ⟨dns, repair, hsu, hst⟩
    · rw [hd]
      exact h
    · exact (hsu.fakeIpTable codec h).sameTable hst

theorem reachable_fakeIpTable {uses : List IpAddr} (h : Reachable codec pool uses w) :
    FakeIpTable pool w.dns := by
  induction h with
  | new d => exact FakeIpTable.new pool
  | step _ hs ih => exact step_fakeIpTable codec ih hs

/-- A reachable resolver computes the middle of its pool without an overflow. -/
theorem reachable_upperHalfStartChecked {uses : List IpAddr} (h : Reachable codec pool uses w) :
    upperHalfStartChecked w.dns.networkAddr w.dns.broadcastAddr =
      some (upperHalfStart w.dns.networkAddr w.dns.broadcastAddr) := by
  have htable := reachable_fakeIpTable codec h
  exact (upperHalfStart_spec htable.family htable.network_le).1

/-- **The table of every reachable resolver.** Whatever names are asked for, whatever the journal
    holds and whatever the disk answers: the maps are inverses of each other, mapped addresses
    and the cursor are of the pool's family and between its ends, and mapped names are
    canonical. -/
theorem reachable_maps_inverse_in_pool {pool : IpCidr} {uses : List IpAddr} {w : World}
    (h : Reachable codec pool uses w) :
    (∀ ip name, w.dns.lruCache.peek ip = some name ↔ w.dns.nameToIp.lookup name = some ip) ∧
    (∀ ip name, w.dns.lruCache.peek ip = some name →
      ip.SameFamily pool.firstAddress ∧ w.dns.networkAddr.toNat ≤ ip.toNat ∧
        ip.toNat ≤ w.dns.broadcastAddr.toNat) ∧
    (∀ ip name, w.dns.lruCache.peek ip = some name → w.dns.canonicalName name = name) ∧
    (w.dns.networkAddr = pool.firstAddress ∧ w.dns.broadcastAddr = pool.lastAddress) ∧
    (w.dns.nextAddr.SameFamily pool.firstAddress ∧
      w.dns.networkAddr.toNat ≤ w.dns.nextAddr.toNat ∧
      w.dns.nextAddr.toNat ≤ w.dns.broadcastAddr.toNat) := by
  have ht := reachable_fakeIpTable codec h
  refine ⟨ht.inverse, ?_, ht.canonical, ⟨ht.network, ht.broadcast⟩, ?_⟩
  · intro ip name hm
    rw [ht.network, ht.broadcast]
    exact ht.inPool ip name hm
  · rw [ht.network, ht.broadcast]
    exact ht.cursor

end Runs

/-! ## 5. A resolver of two addresses -/

/-- The pool 198.18.0.0/31. -/
def samplePool : IpCidr := .v4 0xC6120000#32 31 (by decide) (by decide)

def sampleDisk : Disk := ⟨false, fun _ => none, []⟩

def samplePath : Str := "tun-virtual-dns-v1.jsonl".toList

/-- The upper address of the sample pool, which its first name receives. -/
def sampleIp : IpAddr := .v4 0xC6120001#32

def sampleName : Str := "a.example".toList

/-- A new resolver that started a journal on an empty disk. -/
def sampleStart : World :=
  finalState (World.enablePersistence Json.jsonCodec samplePath
    ⟨VirtualDns.new samplePool, sampleDisk⟩)

theorem sampleStart_reachable : Reachable Json.jsonCodec samplePool [] sampleStart :=
  .step (.new sampleDisk) (.enable _ samplePath)

set_option maxRecDepth 8000 in
/-- The first name of the sample resolver receives the upper address. -/
theorem sampleStart_allocates :
    ∃ w, World.findOrAllocateIp Json.jsonCodec 2 "A.example.".toList sampleStart =
        some (.ok (.v4 0xC6120001#32) w) ∧
      w.dns.lruCache.peek (.v4 0xC6120001#32) = some "a.example".toList := ⟨_, rfl, rfl⟩

theorem sample_maps_inverse_in_pool :
    ∃ w, World.findOrAllocateIp Json.jsonCodec 2 "A.example.".toList sampleStart =
        some (.ok (.v4 0xC6120001#32) w) ∧
      w.dns.lruCache.peek (.v4 0xC6120001#32) = some "a.example".toList ∧
      w.dns.nameToIp.lookup "a.example".toList = some (.v4 0xC6120001#32) := by
  obtain ⟨w, hw, hp⟩ := sampleStart_allocates
  have hr := sampleStart_reachable.step (.serve (.allocate hw))
  exact ⟨w, hw, hp, ((reachable_maps_inverse_in_pool Json.jsonCodec hr).1 _ _).mp hp⟩

end Tun2Proxy
