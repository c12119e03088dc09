/-
  File:      Tun2Proxy/VirtualDns/Recycling.lean
  Subject:   Which address a name receives, and when an address loses its name.

  An allocation always ends well. A name that has an address keeps it; a new name receives the
  first free address of the circular scan; only a full pool recycles, and it recycles the address
  whose last use is the earliest. The last uses are those of the whole history of the resolver
  (`Reachable` records them), because the order of the cache is the order of the latest uses in
  every reachable state (`reachable_recency`).
-/
import Tun2Proxy.VirtualDns.Table

namespace Tun2Proxy

section Codec

variable (codec : RecordCodec)

/-! ## 1. The cache keeps the order of the latest uses -/

variable {pool : IpCidr} {w w' : World} {uses : List IpAddr}

theorem serve_recency {us : List IpAddr} (h : FakeIpTable pool w.dns)
    (hr : LruCache.Recency uses w.dns.lruCache) (hs : Serve codec w us w') :
    LruCache.Recency (us ++ uses) w'.dns.lruCache := by
  rcases serve_cases codec h hs with ⟨rfl, e⟩ | ⟨ip, rfl, e⟩ | ⟨name, ip, rfl, hal⟩
  · rw [e]
    exact hr
  · rw [e]
    unfold World.used VirtualDns.touchIp
    by_cases hm : ip ∈ w.dns.lruCache.order
    · rw [if_pos (LruCache.mem_order.mp hm)]
      exact LruCache.recency_touch hr hm
    · rw [if_neg (fun e => hm (LruCache.mem_order.mpr e)), LruCache.touch_of_notMem hm]
      exact hr
  · cases hal with
    | hit hname =>
      have hm := LruCache.mem_order_of_peek ((h.inverse _ _).mpr hname)
      rw [World.retryDirtyPersistence_sameTable codec]
      exact LruCache.recency_touch hr hm
    | fresh hname hk hused hfree =>
      rw [World.persistMapping_sameTable codec]
      exact LruCache.recency_insert hr _ _
    | recycled hname hfull hvictim =>
      obtain ⟨-, -, rfl⟩ := LruCache.removeLru_eq_some hvictim
      rw [World.persistMapping_sameTable codec]
      exact LruCache.recency_insert (LruCache.recency_remove hr _) _ _

theorem step_recency {us : List IpAddr} (h : FakeIpTable pool w.dns)
    (hr : LruCache.Recency uses w.dns.lruCache) (hs : Step codec w us w') :
    LruCache.Recency (us ++ uses) w'.dns.lruCache := by
  cases hs with
  | serve hs => exact serve_recency codec h hr hs
  | enable path =>
    unfold World.restoredIps
    rcases World.enablePersistence_sameTable codec path w with
      ⟨hd, hm⟩ | ⟨dns, repair, hsu, hst⟩
    · rw [hd, hm]
      exact hr
    · rw [hst]
      show LruCache.Recency _ dns.lruCache
      generalize w.loadedMappings codec path = ms at hsu ⊢
      cases hsu with
      | missing hfile => exact hr
      | incompatible hfile hload => exact LruCache.recency_empty _
      | @loaded bytes cursor _ r records hfile hload =>
        have hcursor := loadLines_cursor codec hload
        have hspec := VirtualDns.restoreMappings_spec ms r (h.cleared.withCursor hcursor)
        exact hspec.2.2.2.2 uses (LruCache.recency_empty uses)

/-- **The order of the cache is the order of the latest uses, in every reachable state.** -/
theorem reachable_recency (h : Reachable codec pool uses w) :
    LruCache.Recency uses w.dns.lruCache := by
  induction h with
  | new d => exact LruCache.recency_empty _
  | step hr hs ih => exact step_recency codec (reachable_fakeIpTable codec hr) ih hs

/-! ## 2. One allocation -/

/-- Every address of the pool has a name. -/
def World.Full (pool : IpCidr) (w : World) : Prop := ∀ ip, pool.Contains ip → ¬ w.Free ip

/-- Of the addresses that have a name, the one whose latest use is the earliest. -/
def World.LeastRecent (uses : List IpAddr) (w : World) (ip : IpAddr) : Prop :=
  ip ∈ uses ∧ ¬ w.Free ip ∧ ∀ x, ¬ w.Free x → x ≠ ip → uses.idxOf x < uses.idxOf ip

/-- A result of the loop does not depend on its bound. -/
theorem World.allocateLoop_mono (name : Str) (startedAt : IpAddr) :
    ∀ (fuel : Nat) {w : World} {r : EStateM.Result Error World IpAddr},
      allocateLoop codec name startedAt fuel w = some r →
      allocateLoop codec name startedAt (fuel + 1) w = some r := by
  intro fuel
  induction fuel with
  | zero =>
    intro w r h
    cases h
  | succ fuel ih =>
    intro w r h
    unfold allocateLoop at h ⊢
    cases hp : w.dns.lruCache.peek w.dns.nextAddr with
    | none =>
      simp only [hp] at h ⊢
      exact h
    | some old =>
      simp only [hp] at h ⊢
      cases ha : advance w.dns.networkAddr w.dns.broadcastAddr w.dns.nextAddr with
      | error e =>
        simp only [ha] at h ⊢
        exact h
      | ok nextAddr =>
        simp only [ha] at h ⊢
        by_cases hround : nextAddr = startedAt
        · rw [if_pos hround] at h ⊢
          exact h
        · rw [if_neg hround] at h ⊢
          exact ih h

theorem World.findOrAllocateIp_mono {fuel fuel' : Nat} (hle : fuel ≤ fuel') {name : Str}
    {r : EStateM.Result Error World IpAddr} (h : findOrAllocateIp codec fuel name w = some r) :
    findOrAllocateIp codec fuel' name w = some r := by
  induction hle with
  | refl => exact h
  | @step fuel' _ ih =>
    unfold findOrAllocateIp at ih ⊢
    simp only at ih ⊢
    cases hl : w.dns.nameToIp.lookup (w.dns.canonicalName name) with
    | some ip =>
      simp only [hl] at ih ⊢
      exact ih
    | none =>
      simp only [hl] at ih ⊢
      exact allocateLoop_mono codec _ _ fuel' ih

section Outcome

variable {pool : IpCidr} {uses : List IpAddr} {w w' : World} {name : Str} {ip : IpAddr}

/-- **Whatever its outcome, an allocation binds its address and changes no other one.** -/
theorem World.Allocated.peek (h : FakeIpTable pool w.dns) (ha : Allocated codec name w ip w')
    (x : IpAddr) :
    w'.dns.lruCache.peek x = if x = ip then some name else w.dns.lruCache.peek x := by
  cases ha with
  | hit hname =>
    rw [retryDirtyPersistence_sameTable codec]
    show (w.dns.lruCache.touch ip).peek x = _
    rw [LruCache.peek_touch]
    by_cases hx : x = ip
    · rw [if_pos hx, hx]
      exact (h.inverse ip name).mpr hname
    · rw [if_neg hx]
  | fresh hname hk hused hfree =>
    rw [persistMapping_sameTable codec]
    exact LruCache.peek_insert _ _ _ _
  | recycled hname hfull hvictim =>
    obtain ⟨-, -, rfl⟩ := LruCache.removeLru_eq_some hvictim
    rw [persistMapping_sameTable codec]
    show ((w.dns.lruCache.remove ip).2.insert ip name).peek x = _
    rw [LruCache.peek_insert, LruCache.peek_remove]
    by_cases hx : x = ip
    · rw [if_pos hx, if_pos hx]
    · rw [if_neg hx, if_neg hx, if_neg hx]

/-- The scan meets every address of the pool. -/
theorem World.full_of_scan (h : FakeIpTable pool w.dns)
    (hfull : ∀ k < w.size, ¬ w.Free (w.scan k)) : w.Full pool := by
  intro ip hip
  obtain ⟨k, hk, e⟩ := exists_circular h.family h.network_le ((h.contains_iff _).mp h.cursor)
    ((h.contains_iff ip).mp hip)
  rw [← e]
  exact hfull k hk

theorem World.scan_contains (h : FakeIpTable pool w.dns) (k : Nat) : pool.Contains (w.scan k) :=
  (h.contains_iff _).mpr (circular_inPool h.family h.network_le w.dns.nextAddr k)

/-- A recycled address is the least recently used one. -/
theorem World.leastRecent_of_removeLru (hr : LruCache.Recency uses w.dns.lruCache)
    {oldName : Str} {cache : LruCache IpAddr Str}
    (hvictim : w.dns.lruCache.removeLru = some ((ip, oldName), cache)) :
    w.LeastRecent uses ip := by
  obtain ⟨-, hpeek, -⟩ := LruCache.removeLru_eq_some hvictim
  refine ⟨hr.1 ip (LruCache.mem_order_of_peek hpeek), ?_, ?_⟩
  · intro hfree
    cases hpeek.symm.trans hfree
  · intro x hx hne
    apply LruCache.removeLru_earliest hr hvictim x _ hne
    by_contra hnot
    exact hx (LruCache.notMem_order.mp hnot)

/-- **When an allocation takes an address from its name**: the pool is full and the address is
    the least recently used one. -/
theorem World.Allocated.takes (h : FakeIpTable pool w.dns)
    (hr : LruCache.Recency uses w.dns.lruCache) (ha : Allocated codec name w ip w')
    {x : IpAddr} {old : Str} (hx : w.dns.lruCache.peek x = some old)
    (hx' : w'.dns.lruCache.peek x ≠ some old) : w.Full pool ∧ w.LeastRecent uses x := by
  rw [ha.peek codec h] at hx'
  have hxip : x = ip := by
    by_contra hne
    rw [if_neg hne] at hx'
    exact hx' hx
  subst hxip
  rw [if_pos rfl] at hx'
  cases ha with
  | hit hname =>
    exact absurd (((h.inverse x name).mpr hname).symm.trans hx) hx'
  | fresh hname hk hused hfree => cases hx.symm.trans hfree
  | recycled hname hfull hvictim =>
    exact ⟨full_of_scan h hfull, leastRecent_of_removeLru hr hvictim⟩

end Outcome

/-! ## 3. A run of calls -/

/-- A run of serving calls, with the histories of use before and after it. -/
inductive ServeRun (uses : List IpAddr) (w : World) : List IpAddr → World → Prop
  | refl : ServeRun uses w uses w
  | step {uses' us : List IpAddr} {w' w'' : World} (hr : ServeRun uses w uses' w')
      (hs : Serve codec w' us w'') : ServeRun uses w (us ++ uses') w''

theorem ServeRun.reachable {uses' : List IpAddr} (h : Reachable codec pool uses w)
    (hr : ServeRun codec uses w uses' w') : Reachable codec pool uses' w' := by
  induction hr with
  | refl => exact h
  | step _ hs ih => exact ih.step (.serve hs)

/-- A serving call takes an address from its name only when the pool is full and the address is
    the least recently used one. -/
theorem serve_takes {us : List IpAddr} (h : Reachable codec pool uses w) (hs : Serve codec w us w')
    {ip : IpAddr} {name : Str} (hip : w.dns.lruCache.peek ip = some name)
    (hip' : w'.dns.lruCache.peek ip ≠ some name) : w.Full pool ∧ w.LeastRecent uses ip := by
  have ht := reachable_fakeIpTable codec h
  rcases serve_cases codec ht hs with ⟨-, e⟩ | ⟨x, -, e⟩ | ⟨n, x, -, hal⟩
  · rw [e] at hip'
    exact absurd hip hip'
  · rw [e, VirtualDns.touchIp, LruCache.peek_touch] at hip'
    exact absurd hip hip'
  · exact hal.takes codec ht (reachable_recency codec h) hip hip'

/-- An address that lost its name in a run lost it in a state with a full pool, as the least
    recently used address. -/
theorem serveRun_takes {uses' : List IpAddr} (h : Reachable codec pool uses w)
    (hr : ServeRun codec uses w uses' w') {ip : IpAddr} {name : Str}
    (hip : w.dns.lruCache.peek ip = some name) (hip' : w'.dns.lruCache.peek ip ≠ some name) :
    ∃ uses₁ w₁, ServeRun codec uses w uses₁ w₁ ∧ ServeRun codec uses₁ w₁ uses' w' ∧
      w₁.dns.lruCache.peek ip = some name ∧ w₁.Full pool ∧ w₁.LeastRecent uses₁ ip := by
  induction hr with
  | refl => exact absurd hip hip'
  | @step uses' us w' w'' hr hs ih =>
    by_cases hmid : w'.dns.lruCache.peek ip = some name
    · -- the last call took it
      obtain ⟨hfull, hlru⟩ := serve_takes codec (hr.reachable codec h) hs hmid hip'
      exact ⟨uses', w', hr, .step .refl hs, hmid, hfull, hlru⟩
    · obtain ⟨uses₁, w₁, h1, h2, h3⟩ := ih hmid
      exact ⟨uses₁, w₁, h1, .step h2 hs, h3⟩

/-- **Stability and recycling.** From every reachable state an allocation ends well, with the
    name at the returned address. A mapped name keeps its address and nothing changes; a new name
    receives the first free address of the circular scan and nothing else changes; only a full
    pool replaces one mapping, that of the least recently used address. Over a run of calls, an
    address keeps its name until the pool is full and it is the least recently used one. -/
theorem findOrAllocateIp_stable {pool : IpCidr} {uses : List IpAddr} {w : World}
    (h : Reachable codec pool uses w) :
    (∀ name : Str, ∃ ip w',
      (∀ fuel, w.size ≤ fuel →
        World.findOrAllocateIp codec fuel name w = some (.ok ip w')) ∧
      w'.dns.lruCache.peek ip = some (w.dns.canonicalName name) ∧
      (∀ a, w.dns.lruCache.peek a = some (w.dns.canonicalName name) →
        ip = a ∧ ∀ x, w'.dns.lruCache.peek x = w.dns.lruCache.peek x) ∧
      ((∀ a, w.dns.lruCache.peek a ≠ some (w.dns.canonicalName name)) →
        (∃ a, pool.Contains a ∧ w.Free a) →
        ∃ k < w.size, ip = w.scan k ∧ w.Free ip ∧ (∀ j < k, ¬ w.Free (w.scan j)) ∧
          ∀ x, x ≠ ip → w'.dns.lruCache.peek x = w.dns.lruCache.peek x) ∧
      ((∀ a, w.dns.lruCache.peek a ≠ some (w.dns.canonicalName name)) → w.Full pool →
        pool.Contains ip ∧ w.LeastRecent uses ip ∧
          ∀ x, x ≠ ip → w'.dns.lruCache.peek x = w.dns.lruCache.peek x)) ∧
    ∀ uses' w', ServeRun codec uses w uses' w' → ∀ ip name,
      w.dns.lruCache.peek ip = some name → w'.dns.lruCache.peek ip ≠ some name →
      ∃ uses₁ w₁, ServeRun codec uses w uses₁ w₁ ∧ ServeRun codec uses₁ w₁ uses' w' ∧
        w₁.dns.lruCache.peek ip = some name ∧ w₁.Full pool ∧ w₁.LeastRecent uses₁ ip := by
  have ht := reachable_fakeIpTable codec h
  have hrec := reachable_recency codec h
  refine ⟨fun name => ?_, fun uses' w' hr ip name hip hip' =>
    serveRun_takes codec h hr hip hip'⟩
  obtain ⟨ip, w', hfind, hal⟩ : ∃ ip w', World.findOrAllocateIp codec w.size name w =
      some (.ok ip w') ∧ World.Allocated codec (w.dns.canonicalName name) w ip w' := by
    rcases World.findOrAllocateIp_cases codec ht w.size name with ⟨-, hlt⟩ | hok
    · exact absurd hlt (lt_irrefl _)
    · exact hok
  have hpeek := hal.peek codec ht
  have hothers : ∀ x, x ≠ ip → w'.dns.lruCache.peek x = w.dns.lruCache.peek x := by
    intro x hx
    rw [hpeek, if_neg hx]
  refine ⟨ip, w', fun fuel hle => World.findOrAllocateIp_mono codec hle hfind,
    by rw [hpeek, if_pos rfl], ?_, ?_, ?_⟩
  · intro a ha
    cases hal with
    | hit hname =>
      have e : ip = a := Option.some.inj (hname.symm.trans ((ht.inverse a _).mp ha))
      refine ⟨e, fun x => ?_⟩
      by_cases hx : x = ip
      · rw [hpeek, if_pos hx, hx, e, ha]
      · exact hothers x hx
    | fresh hname _ _ _ => cases ((ht.inverse a _).mp ha).symm.trans hname
    | recycled hname _ _ => cases ((ht.inverse a _).mp ha).symm.trans hname
  · intro hnew hsome
    obtain ⟨a, hin, hfree⟩ := hsome
    cases hal with
    | hit hname => exact absurd ((ht.inverse _ _).mpr hname) (hnew _)
    | @fresh k hname hk hused hfree => exact ⟨k, hk, rfl, hfree, hused, hothers⟩
    | recycled hname hfull hvictim => exact absurd hfree (World.full_of_scan ht hfull a hin)
  · intro hnew hfull
    cases hal with
    | hit hname => exact absurd ((ht.inverse _ _).mpr hname) (hnew _)
    | @fresh k hname hk hused hfree =>
      exact absurd hfree (hfull _ (World.scan_contains ht k))
    | recycled hname hscan hvictim =>
      obtain ⟨-, hold, -⟩ := LruCache.removeLru_eq_some hvictim
      exact ⟨ht.inPool ip _ hold, World.leastRecent_of_removeLru hrec hvictim, hothers⟩

end Codec

/-! ## 4. A full pool -/

/-- The state behind an allocation. -/
def allocate (name : Str) (w : World) : World :=
  match World.findOrAllocateIp Json.jsonCodec 4 name w with
  | some (.ok _ w) => w
  | _ => w

theorem findOrAllocateIp_allocate {name : Str} {w : World} {ip : IpAddr}
    (h : (World.findOrAllocateIp Json.jsonCodec 4 name w).bind returned = some ip) :
    World.findOrAllocateIp Json.jsonCodec 4 name w = some (.ok ip (allocate name w)) := by
  obtain ⟨r, hr, hreturned⟩ := Option.bind_eq_some_iff.mp h
  rw [allocate, hr, eq_ok_of_returned hreturned]

/-- Both addresses of the pool are given out, and the first one is asked for again. -/
def sampleFull : World :=
  allocate "a.example".toList (allocate "b.example".toList (allocate "a.example".toList
    ⟨VirtualDns.new samplePool, sampleDisk⟩))

theorem Reachable.allocated {pool : IpCidr} {uses : List IpAddr} {name : Str} {w : World}
    {ip : IpAddr} (hw : Reachable Json.jsonCodec pool uses w)
    (h : (World.findOrAllocateIp Json.jsonCodec 4 name w).bind returned = some ip) :
    Reachable Json.jsonCodec pool (ip :: uses) (allocate name w) :=
  hw.step (.serve (.allocate (findOrAllocateIp_allocate h)))

theorem sampleFull_reachable : Reachable Json.jsonCodec samplePool
    [.v4 0xC6120000#32, .v4 0xC6120001#32, .v4 0xC6120000#32] sampleFull :=
  (((Reachable.new sampleDisk).allocated (by decide +kernel)).allocated
    (by decide +kernel)).allocated (by decide +kernel)

theorem sampleFull_full : sampleFull.Full samplePool := by
  refine World.full_of_scan (reachable_fakeIpTable Json.jsonCodec sampleFull_reachable) ?_
  unfold World.Free
  decide +kernel

/-- A first name is given an address. A name of the full pool is found again; a new one takes the
    place of `b.example`, which was used least recently. -/
theorem sample_findOrAllocateIp_stable :
    (∃ ip w', (∀ fuel, 2 ≤ fuel → World.findOrAllocateIp Json.jsonCodec fuel
        "b.example".toList sampleStart = some (.ok ip w')) ∧
      w'.dns.lruCache.peek ip = some "b.example".toList) ∧
    (∃ ip w', (∀ fuel, 2 ≤ fuel → World.findOrAllocateIp Json.jsonCodec fuel
        "A.Example.".toList sampleFull = some (.ok ip w')) ∧
      ip = .v4 0xC6120000#32 ∧
      ∀ x, w'.dns.lruCache.peek x = sampleFull.dns.lruCache.peek x) ∧
    ∃ ip w', (∀ fuel, 2 ≤ fuel → World.findOrAllocateIp Json.jsonCodec fuel
        "c.example".toList sampleFull = some (.ok ip w')) ∧
      w'.dns.lruCache.peek ip = some "c.example".toList ∧
      sampleFull.LeastRecent [.v4 0xC6120000#32, .v4 0xC6120001#32, .v4 0xC6120000#32] ip ∧
      ∀ x, x ≠ ip → w'.dns.lruCache.peek x = sampleFull.dns.lruCache.peek x := by
  have h := (findOrAllocateIp_stable Json.jsonCodec sampleFull_reachable).1
  refine ⟨?_, ?_, ?_⟩
  · obtain ⟨ip, w', hfind, hpeek, -⟩ :=
      (findOrAllocateIp_stable Json.jsonCodec sampleStart_reachable).1 "b.example".toList
    exact ⟨ip, w', hfind, hpeek⟩
  · obtain ⟨ip, w', hfind, -, hhit, -⟩ := h "A.Example.".toList
    obtain ⟨hip, hsame⟩ := hhit (.v4 0xC6120000#32) (by decide +kernel)
    exact ⟨ip, w', hfind, hip, hsame⟩
  · obtain ⟨ip, w', hfind, hpeek, -, -, hrecycled⟩ := h "c.example".toList
    have ht := reachable_fakeIpTable Json.jsonCodec sampleFull_reachable
    have hnone : sampleFull.dns.nameToIp.lookup "c.example".toList = none := by decide +kernel
    obtain ⟨-, hleast, hothers⟩ := hrecycled
      (fun a ha => nomatch hnone.symm.trans ((ht.inverse a _).mp ha)) sampleFull_full
    exact ⟨ip, w', hfind, hpeek, hleast, hothers⟩

end Tun2Proxy
