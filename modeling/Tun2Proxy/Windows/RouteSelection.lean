/-
  File:      Tun2Proxy/Windows/RouteSelection.lean
  Subject:   Which physical route is selected for a destination (`contains_destination` and
             `select_physical_route` of src/windows_network_config.rs), and the routes that
             `add_upstream_bypasses` creates from it.

  A row is compared with a destination under a mask of its prefix length. The masks are shifted
  words; `and_mask_eq_iff` says for any width that equality under the mask is equality of the first
  bits. The selection is then the first least row under a lexicographic key.
-/
import Mathlib.Data.List.MinMax
import Mathlib.Data.Prod.Lex
import Tun2Proxy.Windows.Transaction

namespace Tun2Proxy.Windows

open Prog

/-! ## 1. Prefixes -/

/-- The mask of a prefix has its first bits set. -/
theorem getMsbD_mask {w len : Nat} (hlen : len ≤ w) (k : Nat) :
    (BitVec.allOnes w <<< (w - len)).getMsbD k = decide (k < len) := by
  rw [BitVec.getMsbD_shiftLeft, BitVec.getMsbD_allOnes, decide_eq_decide]
  omega

/-- **Equal under the mask** means equal in the first bits. -/
theorem and_mask_eq_iff {w len : Nat} (hlen : len ≤ w) (a b : BitVec w) :
    a &&& BitVec.allOnes w <<< (w - len) = b &&& BitVec.allOnes w <<< (w - len) ↔
      ∀ k < len, a.getMsbD k = b.getMsbD k := by
  constructor
  · intro h k hk
    have hbit := congrArg (·.getMsbD k) h
    simpa [BitVec.getMsbD_and, getMsbD_mask hlen, hk] using hbit
  · intro h
    refine BitVec.eq_of_getMsbD_eq fun k _ => ?_
    rw [BitVec.getMsbD_and, BitVec.getMsbD_and, getMsbD_mask hlen]
    by_cases hk : k < len
    · rw [h k hk]
    · rw [decide_eq_false hk, Bool.and_false, Bool.and_false]

/-- Two addresses of one family that agree in their first `len` bits; no family has more bits than
    its addresses. -/
def SamePrefix (len : Nat) : IpAddr → IpAddr → Prop
  | .v4 a, .v4 b => len ≤ 32 ∧ ∀ k < len, a.getMsbD k = b.getMsbD k
  | .v6 a, .v6 b => len ≤ 128 ∧ ∀ k < len, a.getMsbD k = b.getMsbD k
  | _, _ => False

theorem containsDestination_iff (route : RouteSpec) (destination : IpAddr) :
    containsDestination route destination = true ↔
      SamePrefix route.prefixLen route.destination destination := by
  obtain ⟨network, len, nextHop, luid, metric⟩ := route
  -- both families, at their width
  have hmask : ∀ {w : Nat} (a b : BitVec w),
      (decide (len ≤ w) && a &&& BitVec.allOnes w <<< (w - len) ==
        b &&& BitVec.allOnes w <<< (w - len)) = true ↔
        len ≤ w ∧ ∀ k < len, a.getMsbD k = b.getMsbD k := by
    intro w a b
    rw [Bool.and_eq_true, decide_eq_true_iff, beq_iff_eq]
    exact and_congr_right fun hlen => and_mask_eq_iff hlen a b
  cases network <;> cases destination
  · exact hmask _ _
  · exact iff_of_false Bool.false_ne_true not_false
  · exact iff_of_false Bool.false_ne_true not_false
  · exact hmask _ _

/-! ## 2. The selection -/

/-- The key of `min_by_key`: `Reverse` of the prefix length, then both metrics. -/
def selectionKey (row : RouteSpec × Nat) : Natᵒᵈ ×ₗ Nat :=
  toLex (OrderDual.toDual row.1.prefixLen, row.1.metric + row.2)

theorem selectionKey_le {a b : RouteSpec × Nat} :
    selectionKey a ≤ selectionKey b ↔ b.1.prefixLen < a.1.prefixLen ∨
      a.1.prefixLen = b.1.prefixLen ∧ a.1.metric + a.2 ≤ b.1.metric + b.2 := by
  rw [selectionKey, selectionKey, Prod.Lex.toLex_le_toLex]
  rfl

theorem prefers_iff {a b : RouteSpec × Nat} :
    prefers a b = true ↔ selectionKey a < selectionKey b := by
  rw [← not_le, selectionKey_le, prefers]
  simp only [Bool.or_eq_true, Bool.and_eq_true, decide_eq_true_iff, beq_iff_eq]
  omega

/-- The loop of `min_by_key` is the one of `argmin`. -/
theorem firstBest_eq_argmin (rows : List (RouteSpec × Nat)) :
    firstBest rows = rows.argmin selectionKey := by
  have hloop : ∀ (rows : List (RouteSpec × Nat)) (best : RouteSpec × Nat),
      some (rows.foldl (fun best row => if prefers row best then row else best) best) =
        rows.foldl (List.argAux fun b c => selectionKey b < selectionKey c) (some best) := by
    intro rows
    induction rows with
    | nil => exact fun best => rfl
    | cons row rows ih =>
      intro best
      rw [List.foldl_cons, List.foldl_cons, ih]
      congr 1
      simp only [List.argAux, prefers_iff]
      split <;> rfl
  cases rows with
  | nil => rfl
  | cons row rows => exact hloop rows row

/-- **A row that may be selected**: not on the TUN, not one of the session's, and covering the
    destination. -/
structure Eligible (destination : IpAddr) (tunLuid : Luid) (owned : List RouteSpec)
    (route : RouteSpec) : Prop where
  physical : route.interfaceLuid ≠ tunLuid
  foreign : route ∉ owned
  covers : SamePrefix route.prefixLen route.destination destination

section Selection

variable {routes : List (RouteSpec × Nat)} {destination : IpAddr} {tunLuid : Luid}
  {owned : List RouteSpec}

theorem eligible_iff {route : RouteSpec} :
    (route.interfaceLuid != tunLuid && !owned.contains route &&
      containsDestination route destination) = true ↔
      Eligible destination tunLuid owned route := by
  rw [Bool.and_eq_true, Bool.and_eq_true, containsDestination_iff, bne_iff_ne, Bool.not_eq_true',
    List.contains_eq_mem, decide_eq_false_iff_not]
  exact ⟨fun h => ⟨h.1.1, h.1.2, h.2⟩, fun h => ⟨⟨h.physical, h.foreign⟩, h.covers⟩⟩

theorem selectPhysicalRoute_eq_none :
    selectPhysicalRoute routes destination tunLuid owned = none ↔
      ∀ row ∈ routes, ¬ Eligible destination tunLuid owned row.1 := by
  rw [selectPhysicalRoute, Option.map_eq_none_iff, firstBest_eq_argmin, List.argmin_eq_none,
    List.filter_eq_nil_iff]
  simp only [eligible_iff]

/-- A row that is as good as any eligible one. -/
structure Best (routes : List (RouteSpec × Nat)) (destination : IpAddr) (tunLuid : Luid)
    (owned : List RouteSpec) (row : RouteSpec × Nat) : Prop where
  mem : row ∈ routes
  eligible : Eligible destination tunLuid owned row.1
  longest : ∀ other ∈ routes, Eligible destination tunLuid owned other.1 →
    ¬ row.1.prefixLen < other.1.prefixLen
  cheapest : ∀ other ∈ routes, Eligible destination tunLuid owned other.1 →
    ¬ (other.1.prefixLen = row.1.prefixLen ∧ other.1.metric + other.2 < row.1.metric + row.2)

theorem selectPhysicalRoute_best {route : RouteSpec}
    (h : selectPhysicalRoute routes destination tunLuid owned = some route) :
    ∃ metric, Best routes destination tunLuid owned (route, metric) := by
  obtain ⟨⟨route', metric⟩, hbest, rfl⟩ := Option.map_eq_some_iff.mp h
  rw [firstBest_eq_argmin] at hbest
  obtain ⟨hmem, heligible⟩ := List.mem_filter.mp (List.argmin_mem hbest)
  have hleast : ∀ other ∈ routes, Eligible destination tunLuid owned other.1 →
      selectionKey (route', metric) ≤ selectionKey other := by
    intro other hother heligible'
    exact List.le_of_mem_argmin (List.mem_filter.mpr ⟨hother, eligible_iff.mpr heligible'⟩) hbest
  refine ⟨metric, hmem, eligible_iff.mp heligible, fun other hother he hlonger => ?_,
    fun other hother he hcheaper => ?_⟩
  · have hle := selectionKey_le.mp (hleast other hother he)
    simp only at hlonger hle
    omega
  · have hle := selectionKey_le.mp (hleast other hother he)
    simp only at hcheaper hle
    omega

end Selection

/-! ## 3. The routes of an update -/

/-- What a planned row is: a row for the destination alone, over the route that was selected. -/
def Follows (routes : List (RouteSpec × Nat)) (tunLuid : Luid) (owned : List RouteSpec)
    (route : RouteSpec) : Prop :=
  ∃ row, Best routes route.destination tunLuid owned row ∧
    route.interfaceLuid = row.1.interfaceLuid ∧ route.nextHop = row.1.nextHop

theorem planUpstream_follows {tunLuid : Luid} {owned : List RouteSpec}
    {routes : List (RouteSpec × Nat)} {addresses : List IpAddr} {planned planned' : List RouteSpec}
    (h : planUpstream tunLuid owned routes addresses planned = .ok planned')
    (hplanned : ∀ r ∈ planned, Follows routes tunLuid owned r) :
    ∀ r ∈ planned', Follows routes tunLuid owned r := by
  induction addresses generalizing planned with
  | nil =>
    cases h
    exact hplanned
  | cons destination addresses ih =>
    rw [planUpstream] at h
    split at h
    · exact ih h hplanned
    split at h
    · cases h
    · rename_i physical hphysical
      obtain ⟨metric, hbest⟩ := selectPhysicalRoute_best hphysical
      refine ih h fun r hr => ?_
      split at hr
      · exact hplanned r hr
      · rcases List.mem_append.mp hr with hr | hr
        · exact hplanned r hr
        · rw [List.mem_singleton.mp hr]
          exact ⟨(physical, metric), hbest, rfl, rfl⟩

theorem installUpstream_onlyCalls {ok : NetworkOp → Prop} {planned : List RouteSpec}
    (h : ∀ r ∈ planned, ok (.createRoute r)) (owned : List RouteSpec) (update : PreparedBypasses) :
    OnlyCalls ok (installUpstream planned owned update) := by
  induction planned generalizing owned update with
  | nil => trivial
  | cons route planned ih =>
    have hrest := ih fun r hr => h r (List.mem_cons_of_mem _ hr)
    refine OnlyCalls.perform (h route List.mem_cons_self) fun outcome => ?_
    cases outcome with
    | error e => trivial
    | ok outcome =>
      dsimp only
      split
      · exact hrest _ _
      · exact hrest _ _

/-- **Every route that is created follows a selected one**, among the rows that the call has read
    before. -/
theorem addUpstreamBypasses_creates {σ : Type}
    {step : σ → (op : NetworkOp) → op.Result → σ → Prop} {record : InstallRecord}
    {addresses : List IpAddr} {update : PreparedBypasses} {s s' : σ}
    {log : List (Prog.Call σ NetworkOp NetworkOp.Result)}
    {out : Except UpdateError Unit × InstallRecord × PreparedBypasses}
    (h : Traced step (addUpstreamBypasses record addresses update) s log out s')
    {call : Prog.Call σ NetworkOp NetworkOp.Result} (hcall : call ∈ log) {route : RouteSpec}
    (hop : call.op = .createRoute route) :
    ∃ before routes, ⟨before, .physicalRoutes, .ok routes⟩ ∈ log ∧
      Follows routes record.tunLuid record.ownedRoutes route := by
  unfold addUpstreamBypasses at h
  split at h
  · cases h
    cases hcall
  obtain ⟨listed, t, rest, -, hrun, rfl⟩ := traced_perform h
  have hrest : call ∈ rest := by
    rcases List.mem_cons.mp hcall with rfl | hmem
    · cases hop
    · exact hmem
  cases listed with
  | error e =>
    cases hrun
    cases hrest
  | ok routes =>
    refine ⟨s, routes, List.mem_cons_self, ?_⟩
    dsimp only at hrun
    split at hrun
    · cases hrun
      cases hrest
    · rename_i planned hplanned
      have hfollows := planUpstream_follows hplanned nofun
      obtain ⟨out', t', log₁, log₂, hinstall, hend, rfl⟩ := traced_bind hrun
      cases hend
      rw [List.append_nil] at hrest
      have honly : OnlyCalls
          (fun op => ∀ r, op = .createRoute r →
            Follows routes record.tunLuid record.ownedRoutes r)
          (installUpstream planned record.ownedRoutes update) := by
        refine installUpstream_onlyCalls (fun r hr r' heq => ?_) _ _
        cases heq
        exact hfollows r hr
      exact (honly.traced (fun _ => ()) (fun _ _ _ _ _ _ => rfl) hinstall).2 call hrest route hop

/-- The sum of two metrics in 64 bits. -/
theorem metric_sum (metric interfaceMetric : UInt32) :
    (metric.toUInt64 + interfaceMetric.toUInt64).toNat =
      metric.toNat + interfaceMetric.toNat := by
  have hmetric := metric.toNat_lt
  have hinterface := interfaceMetric.toNat_lt
  rw [UInt64.toNat_add, UInt32.toNat_toUInt64, UInt32.toNat_toUInt64]
  exact Nat.mod_eq_of_lt (by omega)

/-- **The selection is the longest match.** There is no route exactly when no row is eligible, and
    the route that is selected is the best of the eligible rows. The metrics have 32 bits each: the
    sum of 64 bits the rows are compared by is the sum of the numbers. So whatever the system
    answers, each route that `add_upstream_bypasses` creates goes over the interface of a row that
    covers its destination and is not on the TUN. -/
theorem physicalRoute_longest_match (routes : List (RouteSpec × Nat)) (destination : IpAddr)
    (tunLuid : Luid) (owned : List RouteSpec) :
    (selectPhysicalRoute routes destination tunLuid owned = none ↔
      ∀ row ∈ routes, ¬ Eligible destination tunLuid owned row.1) ∧
    (∀ route, selectPhysicalRoute routes destination tunLuid owned = some route →
      ∃ metric, Best routes destination tunLuid owned (route, metric)) ∧
    (∀ metric interfaceMetric : UInt32,
      (metric.toUInt64 + interfaceMetric.toUInt64).toNat = metric.toNat + interfaceMetric.toNat) ∧
    (∀ row ∈ routes, row.1.metric < 2 ^ 32 → row.2 < 2 ^ 32 →
      ((UInt32.ofNat row.1.metric).toUInt64 + (UInt32.ofNat row.2).toUInt64).toNat =
        row.1.metric + row.2) ∧
    ∀ (σ : Type) (step : σ → (op : NetworkOp) → op.Result → σ → Prop) (record : InstallRecord)
      (addresses : List IpAddr) (update : PreparedBypasses) (s s' : σ)
      (log : List (Prog.Call σ NetworkOp NetworkOp.Result))
      (out : Except UpdateError Unit × InstallRecord × PreparedBypasses),
      Traced step (addUpstreamBypasses record addresses update) s log out s' →
      ∀ call ∈ log, ∀ route, call.op = .createRoute route →
        route.interfaceLuid ≠ record.tunLuid ∧
        ∃ before routes row, ⟨before, .physicalRoutes, .ok routes⟩ ∈ log ∧ row ∈ routes ∧
          row.1.interfaceLuid = route.interfaceLuid ∧ row.1.nextHop = route.nextHop ∧
          SamePrefix row.1.prefixLen row.1.destination route.destination := by
  refine ⟨selectPhysicalRoute_eq_none, fun route h => selectPhysicalRoute_best h, metric_sum,
    fun row _ hmetric hinterface => ?_, ?_⟩
  · rw [metric_sum, UInt32.toNat_ofNat_of_lt' hmetric, UInt32.toNat_ofNat_of_lt' hinterface]
  · intro σ step record addresses update s s' log out h call hcall route hop
    obtain ⟨before, listed, hread, row, hbest, hluid, hhop⟩ :=
      addUpstreamBypasses_creates h hcall hop
    refine ⟨?_, before, listed, row, hread, hbest.mem, hluid.symm, hhop.symm, ?_⟩
    · rw [hluid]
      exact hbest.eligible.physical
    · exact hbest.eligible.covers

/-- The longest prefix wins over the smaller metric. -/
example : selectPhysicalRoute
    [(⟨.v4 0x0A000000#32, 8, .new (.v4 1#32), 7, 5⟩, 10),
      (⟨.v4 0x0A010000#32, 16, .new (.v4 2#32), 8, 50⟩, 10)] (.v4 0x0A010203#32) 1 [] =
    some ⟨.v4 0x0A010000#32, 16, .new (.v4 2#32), 8, 50⟩ := by
  decide

end Tun2Proxy.Windows
