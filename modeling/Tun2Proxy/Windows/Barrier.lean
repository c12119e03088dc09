/-
  File:      Tun2Proxy/Windows/Barrier.lean
  Subject:   The loop barrier: the rows that keep the proxy's own traffic off the TUN.

  For every bypass the session wants there is a row over a physical interface that is not due to be
  deleted (`Shielded`). A replacement is installed before the old rows are retired, a rolled back
  row was created beside the one that was there, and a committed row is in the table already. So
  the barrier stands in every state, between any two calls, as long as the bypasses are not
  refreshed while a row waits to be rolled back (`barrier_stays`).

  If they are, the row that waits may become the only one for its destination, and its rollback
  takes the barrier away (`barrier_falls`).
-/
import Tun2Proxy.Windows.Monitor
import Tun2Proxy.Windows.RouteSelection

namespace Tun2Proxy.Windows

open Prog (Outcome OnlyCalls Safe Setting Stable Triple)
open Relation

/-! ## 1. Barriers -/

/-- Nobody else deletes a row. -/
def Grows (w w' : World) : Prop := w.os.routes ⊆ w'.os.routes

/-- What `physical_routes` reports are rows of the table. -/
def RowsOfTable (os : Os) (rows : List (RouteSpec × Nat)) : Prop := ∀ row ∈ rows, row.1 ∈ os.routes

/-- The table has a row for the destination that does not lead into the TUN. -/
def Barrier (tunLuid : Luid) (target : IpAddr × Nat) (w : World) : Prop :=
  ∃ r ∈ w.os.routes, r.target = target ∧ r.interfaceLuid ≠ tunLuid

/-- What is to stand throughout: nothing, or the barriers of some destinations, and the capture
    routes. A call may be made when they stand and it is not about to delete a capture route. -/
def Stands (goal : Option (Luid × List (IpAddr × Nat))) (w : World) (op : NetworkOp) : Prop :=
  ∀ g ∈ goal, (∀ target ∈ g.2, Barrier g.1 target w) ∧
    ∀ r, op = .deleteRoute r → r.interfaceLuid ≠ g.1

theorem stands_none {w : World} {op : NetworkOp} : Stands none w op := nofun

/-- The setting of this module: rows of the table are reported, and nobody else deletes one. -/
abbrev standing (goal : Option (Luid × List (IpAddr × Nat))) :
    Setting World NetworkOp NetworkOp.Result :=
  env RowsOfTable Grows (Stands goal)

/-- One bypass for a destination, and for each a row that is not due to be deleted. -/
structure Shielded (tunLuid : Luid) (desired doomed : List RouteSpec) (w : World) : Prop where
  nodup : (desired.map RouteSpec.target).Nodup
  barrier : ∀ target ∈ desired.map RouteSpec.target,
    ∃ r ∈ w.os.routes, r.target = target ∧ r.interfaceLuid ≠ tunLuid ∧ r ∉ doomed
  physical : ∀ r ∈ doomed, r.interfaceLuid ≠ tunLuid

/-- The barriers asked for are among the session's. -/
def Asked (goal : Option (Luid × List (IpAddr × Nat))) (tunLuid : Luid)
    (desired : List RouteSpec) : Prop :=
  ∀ g ∈ goal, g.1 = tunLuid ∧ g.2 ⊆ desired.map RouteSpec.target

variable {goal : Option (Luid × List (IpAddr × Nat))} {w w' : World} {tunLuid : Luid}
  {desired doomed : List RouteSpec} {r : RouteSpec}

theorem grows_reach (h : ReflTransGen Grows w w') : w.os.routes ⊆ w'.os.routes := by
  induction h with
  | refl => exact Finset.Subset.refl _
  | tail _ hsub ih => exact ih.trans hsub

/-- A value is returned: what is said of it holds however the table grows. -/
theorem safe_done {α : Type} {Q : α → World → Prop} {a : α}
    (h : ∀ w', w.os.routes ⊆ w'.os.routes → Q a w') :
    Safe (standing goal) (pure a : Net α) Q w :=
  fun w' hw' => h w' (grows_reach hw')

namespace Shielded

theorem grows (h : Shielded tunLuid desired doomed w) (hsub : w.os.routes ⊆ w'.os.routes) :
    Shielded tunLuid desired doomed w' where
  nodup := h.nodup
  barrier target ht := by
    obtain ⟨r, hr, hrest⟩ := h.barrier target ht
    exact ⟨r, hsub hr, hrest⟩
  physical := h.physical

theorem stable : Stable (standing goal) (Shielded tunLuid desired doomed) :=
  fun _ _ hsub h => h.grows hsub

theorem onRows : OnRows (Shielded tunLuid desired doomed) :=
  fun _ _ hroutes _ h => h.grows hroutes.symm.subset

theorem stands {op : NetworkOp} (h : Shielded tunLuid desired doomed w)
    (hasked : Asked goal tunLuid desired)
    (hop : ∀ r, op = .deleteRoute r → r.interfaceLuid ≠ tunLuid) : Stands goal w op := by
  intro g hg
  obtain ⟨rfl, hsub⟩ := hasked g hg
  refine ⟨fun target ht => ?_, hop⟩
  obtain ⟨r, hr, htarget, hl, -⟩ := h.barrier target (hsub ht)
  exact ⟨r, hr, htarget, hl⟩

theorem spare {doomed' : List RouteSpec} (h : Shielded tunLuid desired doomed w)
    (hsub : doomed' ⊆ doomed) : Shielded tunLuid desired doomed' w where
  nodup := h.nodup
  barrier target ht := by
    obtain ⟨r, hr, htarget, hl, hn⟩ := h.barrier target ht
    exact ⟨r, hr, htarget, hl, fun hm => hn (hsub hm)⟩
  physical r hr := h.physical r (hsub hr)

/-- Only the destinations of the bypasses matter. -/
theorem congr {desired' : List RouteSpec} (h : Shielded tunLuid desired doomed w)
    (htargets : desired'.map RouteSpec.target = desired.map RouteSpec.target) :
    Shielded tunLuid desired' doomed w :=
  ⟨htargets ▸ h.nodup, htargets ▸ h.barrier, h.physical⟩

/-- A row that is due to be deleted is no barrier. -/
theorem delete (h : Shielded tunLuid desired (r :: doomed) w) :
    Shielded tunLuid desired doomed (w.delete r) where
  nodup := h.nodup
  barrier target ht := by
    obtain ⟨b, hb, htarget, hl, hn⟩ := h.barrier target ht
    exact ⟨b, by grind [World.delete], htarget, hl, by grind⟩
  physical := by grind [h.physical]

/-- A row that is created is not the one that was there. -/
theorem doom (h : Shielded tunLuid desired doomed w) (hr : r ∉ w.os.routes)
    (hl : r.interfaceLuid ≠ tunLuid) :
    Shielded tunLuid desired (doomed ++ [r]) (w.create r) where
  nodup := h.nodup
  barrier target ht := by
    obtain ⟨b, hb, htarget, hbl, hn⟩ := h.barrier target ht
    exact ⟨b, Finset.mem_insert_of_mem hb, htarget, hbl, by grind⟩
  physical := by grind [h.physical]

/-- A row is retired beside the one that replaces it. -/
theorem retire {new : RouteSpec} (h : Shielded tunLuid desired [] w) (hnew : new ∈ w.os.routes)
    (hl : new.interfaceLuid ≠ tunLuid) (htarget : r.target = new.target) (hne : r ≠ new) :
    Shielded tunLuid desired [] (w.delete r) where
  nodup := h.nodup
  barrier target ht := by
    by_cases heq : target = new.target
    · exact ⟨new, Finset.mem_erase.mpr ⟨hne.symm, hnew⟩, heq.symm, hl, List.not_mem_nil⟩
    · obtain ⟨b, hb, hbt, hbl, hn⟩ := h.barrier target ht
      exact ⟨b, by grind [World.delete], hbt, hbl, hn⟩
  physical := h.physical

end Shielded

/-! ## 2. Updates -/

theorem rollbackUpstreamBypasses_shielded {record : InstallRecord} {routes : List RouteSpec}
    (keep : List RouteSpec)
    (h : Shielded record.tunLuid record.desiredBypasses (routes ++ keep) w)
    (hasked : Asked goal record.tunLuid record.desiredBypasses) :
    Safe (standing goal) (rollbackUpstreamBypasses record routes)
      (fun out w => Asked goal out.1.tunLuid out.1.desiredBypasses ∧
        Shielded out.1.tunLuid out.1.desiredBypasses (out.2 ++ keep) w) w := by
  induction routes generalizing record keep w with
  | nil => exact safe_done fun _ hsub => ⟨hasked, h.grows hsub⟩
  | cons r routes ih =>
    rw [rollbackUpstreamBypasses]
    refine safe_deleteRoute Shielded.stable Shielded.onRows (fun w h => ?_) (fun w h => ?_)
      (fun w e h => ?_) h
    · refine h.stands hasked fun r' he => ?_
      cases he
      exact h.physical r List.mem_cons_self
    · exact @ih _ { record with ownedRoutes := record.ownedRoutes.filter (· != r) } keep h.delete
        hasked
    · refine (ih (r :: keep) (h.spare (by grind)) hasked).seq fun out w hout => ?_
      exact safe_done fun _ hsub => ⟨hout.1, (hout.2.spare (by grind)).grows hsub⟩

/-- The rows of an update are in the table, and lead to physical interfaces. -/
def Confirmed (tunLuid : Luid) (rows : List RouteSpec) (w : World) : Prop :=
  ∀ r ∈ rows, r ∈ w.os.routes ∧ r.interfaceLuid ≠ tunLuid

theorem Confirmed.grows {rows : List RouteSpec} (h : Confirmed tunLuid rows w)
    (hsub : w.os.routes ⊆ w'.os.routes) : Confirmed tunLuid rows w' :=
  fun r hr => ⟨hsub (h r hr).1, (h r hr).2⟩

/-- The session's bypasses and a provisional update. -/
structure Updating (tunLuid : Luid) (desired : List RouteSpec) (update : PreparedBypasses)
    (w : World) : Prop where
  shielded : Shielded tunLuid desired update.added w
  confirmed : Confirmed tunLuid update.desired w

namespace Updating

variable {update : PreparedBypasses}

theorem grows (h : Updating tunLuid desired update w) (hsub : w.os.routes ⊆ w'.os.routes) :
    Updating tunLuid desired update w' :=
  ⟨h.shielded.grows hsub, h.confirmed.grows hsub⟩

theorem stable : Stable (standing goal) (Updating tunLuid desired update) :=
  fun _ _ hsub h => h.grows hsub

theorem onRows : OnRows (Updating tunLuid desired update) :=
  fun _ _ hroutes _ h => h.grows hroutes.symm.subset

/-- The row is in the table. -/
theorem confirm (h : Updating tunLuid desired update w) (hr : r ∈ w.os.routes)
    (hl : r.interfaceLuid ≠ tunLuid) :
    Updating tunLuid desired { update with desired := update.desired ++ [r] } w where
  shielded := h.shielded
  confirmed x hx := by
    rcases List.mem_append.mp hx with hx | hx
    · exact h.confirmed x hx
    · exact List.mem_singleton.mp hx ▸ ⟨hr, hl⟩

/-- The row was created for the update. -/
theorem add (h : Updating tunLuid desired update w) (hr : r ∉ w.os.routes)
    (hl : r.interfaceLuid ≠ tunLuid) :
    Updating tunLuid desired ⟨update.added ++ [r], update.desired ++ [r]⟩ (w.create r) where
  shielded := h.shielded.doom hr hl
  confirmed := ((h.grows (Finset.subset_insert r w.os.routes)).confirm
    (Finset.mem_insert_self r _) hl).confirmed

end Updating

theorem installUpstream_shielded {planned owned : List RouteSpec} {update : PreparedBypasses}
    (hplanned : ∀ r ∈ planned, r.interfaceLuid ≠ tunLuid)
    (h : Updating tunLuid desired update w) (hasked : Asked goal tunLuid desired) :
    Safe (standing goal) (installUpstream planned owned update)
      (fun out w => Updating tunLuid desired out.2.2 w) w := by
  induction planned generalizing owned update w with
  | nil => exact safe_pure Updating.stable h
  | cons r planned ih =>
    have hr := hplanned r List.mem_cons_self
    have hrest : ∀ x ∈ planned, x.interfaceLuid ≠ tunLuid := fun x hx =>
      hplanned x (List.mem_cons_of_mem r hx)
    rw [installUpstream]
    refine safe_createRoute Updating.stable Updating.onRows
      (fun w h => h.shielded.stands hasked fun _ hop => by cases hop) (fun w h hn => ?_)
      (fun w h hm => ?_) (fun w e h => safe_pure Updating.stable h) h
    · dsimp only
      split
      · exact ih hrest (h.add hn hr)
      · exact ih hrest
          ((h.grows (Finset.subset_insert r _)).confirm (Finset.mem_insert_self r _) hr)
    · dsimp only
      rw [if_neg (by simp)]
      exact ih hrest (h.confirm hm hr)

theorem addUpstreamBypasses_shielded {record : InstallRecord} {addresses : List IpAddr}
    (h : Shielded record.tunLuid record.desiredBypasses [] w)
    (hasked : Asked goal record.tunLuid record.desiredBypasses) :
    Safe (standing goal) (addUpstreamBypasses record addresses {})
      (fun out w => Asked goal out.2.1.tunLuid out.2.1.desiredBypasses ∧
        Updating out.2.1.tunLuid out.2.1.desiredBypasses out.2.2 w) w := by
  have hnone : ∀ {w}, Shielded record.tunLuid record.desiredBypasses [] w →
      Updating record.tunLuid record.desiredBypasses {} w := fun h => ⟨h, nofun⟩
  unfold addUpstreamBypasses
  split
  · exact safe_done fun _ hsub => ⟨hasked, hnone (h.grows hsub)⟩
  refine safe_physicalRoutes Shielded.stable (fun w h => h.stands hasked nofun)
    (fun w rows h _ => ?_)
    (fun w e h => safe_done fun _ hsub => ⟨hasked, hnone (h.grows hsub)⟩) h
  dsimp only
  split
  · exact safe_done fun _ hsub => ⟨hasked, hnone (h.grows hsub)⟩
  · rename_i planned hplanned
    have hphysical : ∀ r ∈ planned, r.interfaceLuid ≠ record.tunLuid := by
      intro r hr
      obtain ⟨row, hbest, hl, -⟩ := planUpstream_follows hplanned nofun r hr
      exact hl ▸ hbest.eligible.physical
    refine (installUpstream_shielded hphysical (hnone h) hasked).seq fun out w h => ?_
    exact safe_done fun _ hsub => ⟨hasked, h.grows hsub⟩

/-! ## 3. Commits -/

/-- A bypass whose row is in the table may be wanted. -/
theorem Shielded.setDesired (h : Shielded tunLuid desired [] w) (hr : r ∈ w.os.routes)
    (hl : r.interfaceLuid ≠ tunLuid) :
    Shielded tunLuid (setDesired r desired) [] w ∧
      desired.map RouteSpec.target ⊆ (Windows.setDesired r desired).map RouteSpec.target := by
  have htargets := setDesired_targets r desired
  by_cases hm : r.target ∈ desired.map RouteSpec.target
  · rw [if_pos hm] at htargets
    exact ⟨⟨htargets ▸ h.nodup, htargets ▸ h.barrier, h.physical⟩, htargets ▸ List.Subset.refl _⟩
  · rw [if_neg hm] at htargets
    refine ⟨⟨?_, fun target ht => ?_, h.physical⟩, htargets ▸ List.subset_append_left _ _⟩
    · rw [htargets, List.nodup_append]
      exact ⟨h.nodup, List.nodup_singleton _, fun x hx y hy hxy =>
        hm (List.mem_singleton.mp hy ▸ hxy ▸ hx)⟩
    · rw [htargets] at ht
      rcases List.mem_append.mp ht with ht | ht
      · exact h.barrier target ht
      · exact ⟨r, hr, (List.mem_singleton.mp ht).symm, hl, List.not_mem_nil⟩

theorem Shielded.commit {rows : List RouteSpec} (h : Shielded tunLuid desired [] w)
    (hrows : Confirmed tunLuid rows w) :
    Shielded tunLuid (rows.foldl (fun desired route => Windows.setDesired route desired) desired) []
        w ∧
      desired.map RouteSpec.target ⊆
        (rows.foldl (fun desired route => Windows.setDesired route desired) desired).map
          RouteSpec.target := by
  induction rows generalizing desired with
  | nil => exact ⟨h, List.Subset.refl _⟩
  | cons r rows ih =>
    obtain ⟨hr, hl⟩ := hrows r List.mem_cons_self
    obtain ⟨h', hsub⟩ := h.setDesired hr hl
    obtain ⟨h'', hsub'⟩ := ih h' fun x hx => hrows x (List.mem_cons_of_mem r hx)
    exact ⟨h'', fun x hx => hsub' (hsub hx)⟩

/-! ## 4. The refresh -/

/-- While the bypasses are refreshed: the barriers stand, and the reported rows for the destinations
    still to be done are in the table. -/
structure Refreshing (tunLuid : Luid) (desired rest : List RouteSpec)
    (reported : List (RouteSpec × Nat)) (w : World) : Prop where
  shielded : Shielded tunLuid desired [] w
  rows : ∀ row ∈ reported, row.1.target ∈ rest.map RouteSpec.target → row.1 ∈ w.os.routes

namespace Refreshing

variable {rest : List RouteSpec} {reported : List (RouteSpec × Nat)}

theorem grows (h : Refreshing tunLuid desired rest reported w)
    (hsub : w.os.routes ⊆ w'.os.routes) : Refreshing tunLuid desired rest reported w' :=
  ⟨h.shielded.grows hsub, fun row hrow ht => hsub (h.rows row hrow ht)⟩

theorem onRows : OnRows (Refreshing tunLuid desired rest reported) :=
  fun _ _ hroutes _ h => h.grows hroutes.symm.subset

theorem done (h : Refreshing tunLuid desired (r :: rest) reported w) :
    Refreshing tunLuid desired rest reported w :=
  ⟨h.shielded, fun row hrow ht => h.rows row hrow (List.mem_cons_of_mem _ ht)⟩

end Refreshing

section Refresh

variable {rest : List RouteSpec} {reported : List (RouteSpec × Nat)} {new : RouteSpec}

/-- The replacement is in the table before anything is retired. -/
theorem installReplacement_shielded {owned : List RouteSpec}
    (htarget : new.target ∈ rest.map RouteSpec.target)
    (h : Refreshing tunLuid desired rest reported w) (hasked : Asked goal tunLuid desired) :
    Safe (standing goal) (installReplacement reported new owned)
      (fun out w => Refreshing tunLuid desired rest reported w ∧
        ∀ owned', out = .ok owned' → new ∈ w.os.routes) w := by
  have hrefreshing : Stable (standing goal)
      (Refreshing tunLuid desired rest reported) := fun _ _ hsub h => h.grows hsub
  unfold installReplacement
  split
  · rename_i hreported
    obtain ⟨row, hrow, rfl⟩ := List.mem_map.mp (List.contains_iff_mem.mp hreported)
    exact safe_done fun _ hsub => ⟨h.grows hsub, fun _ _ => hsub (h.rows row hrow htarget)⟩
  refine safe_createRoute hrefreshing Refreshing.onRows
    (fun w h => h.shielded.stands hasked nofun) (fun w h hn => ?_) (fun w h hm => ?_)
    (fun w e h => safe_done fun _ hsub => ⟨h.grows hsub, nofun⟩) h
  · have h' : Refreshing tunLuid desired rest reported (w.create new) :=
      h.grows (Finset.subset_insert new w.os.routes)
    have hnew : new ∈ (w.create new).os.routes := Finset.mem_insert_self new _
    dsimp only
    split <;> exact safe_done fun _ hsub => ⟨h'.grows hsub, fun _ _ => hsub hnew⟩
  · dsimp only
    rw [if_neg (by simp)]
    exact safe_done fun _ hsub => ⟨h.grows hsub, fun _ _ => hsub hm⟩

/-- The old rows are retired beside the replacement. -/
theorem retireRoutes_shielded {owned : List RouteSpec} (hl : new.interfaceLuid ≠ tunLuid)
    (htarget : new.target ∉ rest.map RouteSpec.target)
    (h : Refreshing tunLuid desired rest reported w) (hnew : new ∈ w.os.routes)
    (hasked : Asked goal tunLuid desired) :
    Safe (standing goal) (retireRoutes tunLuid new owned)
      (fun _ w => Refreshing tunLuid desired rest reported w) w := by
  have hpost : Stable (standing goal)
      (Refreshing tunLuid desired rest reported) := fun _ _ hsub h => h.grows hsub
  have hstable : Stable (standing goal) fun w =>
      Refreshing tunLuid desired rest reported w ∧ new ∈ w.os.routes :=
    fun _ _ hsub h => ⟨h.1.grows hsub, hsub h.2⟩
  have hrows : OnRows fun w => Refreshing tunLuid desired rest reported w ∧ new ∈ w.os.routes :=
    fun _ _ hroutes hcreated h => ⟨Refreshing.onRows hroutes hcreated h.1, hroutes ▸ h.2⟩
  induction owned generalizing w with
  | nil => exact safe_pure hpost h
  | cons old owned ih =>
    rw [retireRoutes]
    split
    · rename_i hcond
      simp only [Bool.and_eq_true, bne_iff_ne, beq_iff_eq] at hcond
      obtain ⟨⟨⟨hphysical, hdest⟩, hlen⟩, hne⟩ := hcond
      have hsame : old.target = new.target := Prod.ext hdest hlen
      refine safe_deleteRoute hstable hrows (fun w h => h.1.shielded.stands hasked fun r he => ?_)
        (fun w h => ih ⟨h.1.shielded.retire h.2 hl hsame hne, fun row hrow ht => ?_⟩
          (Finset.mem_erase.mpr ⟨hne.symm, h.2⟩))
        (fun w e h => safe_pure hpost h.1) ⟨h, hnew⟩
      · cases he
        exact hphysical
      · refine Finset.mem_erase.mpr ⟨fun e => htarget ?_, h.1.rows row hrow ht⟩
        rw [← hsame, ← e]
        exact ht
    · exact (ih h hnew).seq fun _ _ h => safe_pure hpost h

theorem reconcileDesired_shielded {owned : List RouteSpec}
    (hnodup : (rest.map RouteSpec.target).Nodup)
    (h : Refreshing tunLuid desired rest reported w) (hasked : Asked goal tunLuid desired) :
    Safe (standing goal) (reconcileDesired tunLuid reported rest owned)
      (fun out w => out.2.1.map RouteSpec.target = rest.map RouteSpec.target ∧
        Shielded tunLuid desired [] w) w := by
  induction rest generalizing owned w with
  | nil => exact safe_done fun _ hsub => ⟨rfl, h.shielded.grows hsub⟩
  | cons old rest ih =>
    obtain ⟨hold, hrest⟩ := List.nodup_cons.mp hnodup
    rw [reconcileDesired]
    split
    · refine (ih hrest h.done).seq fun out w hout => ?_
      exact safe_done fun _ hsub =>
        ⟨congrArg (old.target :: ·) hout.1, hout.2.grows hsub⟩
    · rename_i physical hphysical
      set new : RouteSpec :=
        { old with interfaceLuid := physical.interfaceLuid, nextHop := physical.nextHop }
      have hl : new.interfaceLuid ≠ tunLuid := (selectPhysicalRoute_some hphysical).2.1
      have htarget : new.target ∈ (old :: rest).map RouteSpec.target := List.mem_cons_self
      refine (installReplacement_shielded htarget h hasked).seq fun installed w hinst => ?_
      obtain ⟨h, hnew⟩ := hinst
      cases installed with
      | error e => exact safe_done fun _ hsub => ⟨rfl, h.shielded.grows hsub⟩
      | ok owned₁ =>
        refine (retireRoutes_shielded hl hold h.done (hnew owned₁ rfl) hasked).seq
          fun out w h => ?_
        obtain ⟨retired, owned₂⟩ := out
        cases retired with
        | error e => exact safe_done fun _ hsub => ⟨rfl, h.shielded.grows hsub⟩
        | ok _ =>
          refine (ih hrest h).seq fun out w hout => ?_
          exact safe_done fun _ hsub =>
            ⟨congrArg (old.target :: ·) hout.1, hout.2.grows hsub⟩

/-- The rows reported at the start are rows of the table. -/
theorem reconcileBypassRoutes_shielded {record : InstallRecord}
    (h : Shielded record.tunLuid record.desiredBypasses [] w)
    (hasked : Asked goal record.tunLuid record.desiredBypasses) :
    Safe (standing goal) (reconcileBypassRoutes record)
      (fun out w => Asked goal out.2.tunLuid out.2.desiredBypasses ∧
        Shielded out.2.tunLuid out.2.desiredBypasses [] w) w := by
  refine safe_physicalRoutes Shielded.stable (fun w h => h.stands hasked nofun)
    (fun w rows h hrows => ?_) (fun w e h => safe_done fun _ hsub => ⟨hasked, h.grows hsub⟩) h
  refine (reconcileDesired_shielded h.nodup ⟨h, fun row hrow _ => hrows row hrow⟩ hasked).seq
    fun out w hout => safe_done fun _ hsub => ?_
  exact ⟨fun g hg => hout.1 ▸ hasked g hg, (hout.2.congr hout.1).grows hsub⟩

end Refresh

/-! ## 5. The machine -/

/-- No row waits to be rolled back while an update is pending. -/
def Worker.Shielded (self : Worker) (w : World) : Prop :=
  match self.pending with
  | some update => self.rollbackRoutes = [] ∧
      Updating self.record.tunLuid self.record.desiredBypasses update w
  | none => Windows.Shielded self.record.tunLuid self.record.desiredBypasses self.rollbackRoutes w

/-- What stands in each phase. -/
def Phase.Shielded (goal : Option (Luid × List (IpAddr × Nat))) : Phase → World → Prop
  | .waiting worker => fun w =>
    worker.Shielded w ∧ Asked goal worker.record.tunLuid worker.record.desiredBypasses
  | .refreshing worker => fun w =>
    worker.Shielded w ∧ Asked goal worker.record.tunLuid worker.record.desiredBypasses
  | .stopped record => fun w =>
    Windows.Shielded record.tunLuid record.desiredBypasses [] w ∧
      Asked goal record.tunLuid record.desiredBypasses
  | .failed => fun _ => goal = none

section Machine

variable {args : TproxyArgs} {worker : Worker}

theorem Worker.Shielded.grows (h : worker.Shielded w) (hsub : w.os.routes ⊆ w'.os.routes) :
    worker.Shielded w' := by
  obtain ⟨record, pending, rollbackRoutes⟩ := worker
  cases pending with
  | some update => exact ⟨h.1, h.2.grows hsub⟩
  | none => exact Windows.Shielded.grows h hsub

/-- The rows to be rolled back are no barriers. -/
theorem Worker.Shielded.abandoned (h : worker.Shielded w) :
    Windows.Shielded worker.record.tunLuid worker.record.desiredBypasses worker.abandoned w := by
  obtain ⟨record, pending, rollbackRoutes⟩ := worker
  cases pending with
  | some update =>
    obtain ⟨rfl, h⟩ := h
    exact h.shielded
  | none =>
    have h : Windows.Shielded record.tunLuid record.desiredBypasses rollbackRoutes w := h
    exact h.spare fun x hx => (List.append_nil rollbackRoutes) ▸ hx

theorem Phase.Shielded.stable {phase : Phase} :
    Stable (standing goal) (phase.Shielded goal) := by
  intro w w' hsub h
  cases phase with
  | waiting | refreshing | stopped => exact ⟨h.1.grows hsub, h.2⟩
  | failed => exact h

theorem Phase.Shielded.barrier {phase : Phase} (h : phase.Shielded goal w) :
    ∀ g ∈ goal, ∀ target ∈ g.2, Barrier g.1 target w := by
  have hstands : ∀ {tunLuid desired doomed}, Windows.Shielded tunLuid desired doomed w →
      Asked goal tunLuid desired → ∀ g ∈ goal, ∀ target ∈ g.2, Barrier g.1 target w := by
    intro tunLuid desired doomed h hasked g hg
    have hs : Stands goal w .physicalRoutes := h.stands hasked nofun
    exact (hs g hg).1
  cases phase with
  | waiting | refreshing => exact hstands h.1.abandoned h.2
  | stopped record => exact hstands h.1 h.2
  | failed =>
    rw [show goal = none from h]
    exact nofun

theorem prepareBypasses_shielded {addresses : List IpAddr} (h : worker.Shielded w)
    (hasked : Asked goal worker.record.tunLuid worker.record.desiredBypasses) :
    Safe (standing goal) (worker.prepareBypasses addresses)
      (fun out => (Phase.waiting out.2).Shielded goal) w := by
  have hrollback : Windows.Shielded worker.record.tunLuid worker.record.desiredBypasses
      (worker.rollbackRoutes ++ []) w := h.abandoned.spare fun x hx =>
    List.mem_append_left _ ((List.append_nil worker.rollbackRoutes) ▸ hx)
  refine (rollbackUpstreamBypasses_shielded [] hrollback hasked).outcome.seq fun out w hout => ?_
  obtain ⟨record, rollbackRoutes⟩ := out
  obtain ⟨⟨hasked, hs⟩, hrolled⟩ := hout
  rw [List.append_nil] at hs
  dsimp only
  split
  · rename_i hempty
    obtain rfl := List.isEmpty_iff.mp hempty
    refine (addUpstreamBypasses_shielded hs hasked).seq fun out w hout => ?_
    exact safe_pure Phase.Shielded.stable ⟨⟨rfl, hout.2⟩, hout.1⟩
  · rename_i hne
    -- the rows were waiting before, so no update is pending
    have hnone : worker.pending = none := by
      obtain ⟨record₀, pending, rollbackRoutes₀⟩ := worker
      cases pending with
      | none => rfl
      | some update =>
        obtain ⟨rfl, -⟩ := h
        exact absurd (List.isEmpty_iff.mpr
          (List.subset_nil.mp (rollbackUpstreamBypasses_outcome hrolled).rest)) hne
    rw [hnone]
    exact safe_pure Phase.Shielded.stable ⟨hs, hasked⟩

theorem rollbackBypasses_shielded (h : worker.Shielded w)
    (hasked : Asked goal worker.record.tunLuid worker.record.desiredBypasses) :
    Safe (standing goal) worker.rollbackBypasses
      (fun worker => (Phase.waiting worker).Shielded goal) w := by
  refine (rollbackUpstreamBypasses_shielded [] ((List.append_nil worker.abandoned).symm ▸
    h.abandoned) hasked).seq fun out w hout => ?_
  exact safe_pure Phase.Shielded.stable ⟨List.append_nil out.2 ▸ hout.2, hout.1⟩

theorem reconcile_shielded {tunTarget : InterfaceTarget} (h : worker.Shielded w)
    (hasked : Asked goal worker.record.tunLuid worker.record.desiredBypasses) :
    Safe (standing goal) (worker.reconcile tunTarget)
      (fun worker => (Phase.refreshing worker).Shielded goal) w := by
  have hstable : Stable (standing goal) worker.Shielded :=
    fun _ _ hsub h => h.grows hsub
  refine (safe_quiet (reconcileInterfaceSettings_quiet _ _) hstable
    (fun _ _ hroutes _ h => h.grows hroutes.symm.subset) (fun w op hq h => ?_) h).seq
    fun out w hout => ?_
  · refine h.abandoned.stands hasked fun r he => ?_
    subst he
    exact hq.elim
  obtain ⟨record, pending, rollbackRoutes⟩ := worker
  have h := hout.1
  cases pending with
  | some update =>
    obtain ⟨rfl, hup⟩ := h
    exact safe_pure Phase.Shielded.stable ⟨⟨rfl, hup⟩, hasked⟩
  | none =>
    refine (@rollbackUpstreamBypasses_shielded goal w { record with interfaceSnapshots := out.2 }
      rollbackRoutes [] ((List.append_nil rollbackRoutes).symm ▸ h) hasked).seq
      fun out w hout => ?_
    exact safe_pure Phase.Shielded.stable ⟨List.append_nil out.2 ▸ hout.2, hout.1⟩

theorem refresh_shielded (h : worker.Shielded w) (hnothing : NothingToRollBack worker)
    (hasked : Asked goal worker.record.tunLuid worker.record.desiredBypasses) :
    Safe (standing goal) worker.refresh
      (fun worker => (Phase.waiting worker).Shielded goal) w := by
  obtain ⟨record, pending, rollbackRoutes⟩ := worker
  cases pending with
  | some update => exact safe_pure Phase.Shielded.stable ⟨h, hasked⟩
  | none =>
    obtain rfl : rollbackRoutes = [] := hnothing
    refine (reconcileBypassRoutes_shielded h hasked).seq fun out w hout => ?_
    exact safe_pure Phase.Shielded.stable ⟨hout.2, hout.1⟩

theorem commitBypasses_shielded (h : worker.Shielded w)
    (hasked : Asked goal worker.record.tunLuid worker.record.desiredBypasses) :
    (Phase.waiting worker.commitBypasses).Shielded goal w := by
  obtain ⟨record, pending, rollbackRoutes⟩ := worker
  cases pending with
  | none => exact ⟨h, hasked⟩
  | some update =>
    obtain ⟨rfl, hup⟩ := h
    obtain ⟨hs, hsub⟩ :=
      (hup.shielded.spare (List.nil_subset _)).commit hup.confirmed
    exact ⟨hs, fun g hg => ⟨(hasked g hg).1, fun t ht => hsub ((hasked g hg).2 ht)⟩⟩

theorem handle_shielded (c : Command) (h : (Phase.waiting worker).Shielded goal w) :
    Safe (standing goal) (worker.handle args c) (Phase.Shielded goal) w := by
  obtain ⟨h, hasked⟩ := h
  cases c with
  | prepare addresses isClosed =>
    dsimp only [Worker.handle]
    split
    · exact safe_pure Phase.Shielded.stable ⟨h, hasked⟩
    · exact (prepareBypasses_shielded h hasked).seq fun _ _ h =>
        safe_pure Phase.Shielded.stable h
  | commit => exact safe_pure Phase.Shielded.stable (commitBypasses_shielded h hasked)
  | rollback =>
    exact (rollbackBypasses_shielded h hasked).seq fun _ _ h =>
      safe_pure Phase.Shielded.stable h
  | timeout =>
    exact (reconcile_shielded h hasked).seq fun _ _ h => safe_pure Phase.Shielded.stable h
  | stop =>
    exact safe_pure Phase.Shielded.stable ⟨h.abandoned.spare (List.nil_subset _), hasked⟩

/-- Every program of the monitor leaves the barrier standing. -/
theorem next_shielded {phase : Phase} {p : Net Phase} (h : Monitor args NothingToRollBack phase p) :
    Triple (standing goal) (phase.Shielded goal) p (Phase.Shielded goal) := by
  intro w hw
  cases h with
  | command worker c => exact handle_shielded c hw
  | refresh hnothing =>
    exact (refresh_shielded hw.1 hnothing hw.2).seq fun _ _ h =>
      safe_pure Phase.Shielded.stable h

end Machine

/-! ## 6. The setup -/

theorem createPlanned_confirms {planned owned : List RouteSpec} (done : List RouteSpec)
    (h : ∀ r ∈ done, r ∈ w.os.routes) :
    Safe (standing none) (createPlanned planned owned)
      (fun out w => out.1 = none → ∀ r ∈ done ++ planned, r ∈ w.os.routes) w := by
  have hstable : ∀ rows : List RouteSpec, Stable (standing none)
      fun w => ∀ r ∈ rows, r ∈ w.os.routes := fun rows _ _ hsub h r hr => hsub (h r hr)
  have hrows : ∀ rows : List RouteSpec, OnRows fun w => ∀ r ∈ rows, r ∈ w.os.routes :=
    fun rows _ _ hroutes _ h r hr => hroutes ▸ h r hr
  induction planned generalizing owned done w with
  | nil => exact safe_done fun _ hsub _ r hr => hsub (h r (List.append_nil done ▸ hr))
  | cons r planned ih =>
    have hdone : ∀ {w : World}, r ∈ w.os.routes → (∀ x ∈ done, x ∈ w.os.routes) →
        ∀ x ∈ done ++ [r], x ∈ w.os.routes := fun hr h x hx =>
      (List.mem_append.mp hx).elim (h x) fun hx => List.mem_singleton.mp hx ▸ hr
    have happend : done ++ r :: planned = (done ++ [r]) ++ planned := by
      rw [List.append_assoc]
      rfl
    rw [createPlanned, happend]
    exact safe_createRoute (hstable done) (hrows done) (fun _ _ => stands_none)
      (fun w h _ => ih (done ++ [r]) (hdone (Finset.mem_insert_self r _) fun x hx =>
        Finset.mem_insert_of_mem (h x hx)))
      (fun w h hm => ih (done ++ [r]) (hdone hm h)) (fun w e _ => safe_done fun _ _ => nofun) h

/-- After the setup every planned row is in the table. -/
theorem applyTransaction_confirms {args : TproxyArgs} {planned : List RouteSpec}
    {record : InstallRecord} :
    Safe (standing none) (applyTransaction args planned record)
      (fun out w => out.1 = .ok () → (out.2.tunLuid = record.tunLuid ∧
        out.2.desiredBypasses = record.desiredBypasses) ∧ ∀ r ∈ planned, r ∈ w.os.routes) w := by
  refine (Safe.of_allowed fun _ _ => stands_none).seq fun out w _ => ?_
  obtain ⟨reconciled, snapshots⟩ := out
  cases reconciled with
  | error e => exact safe_done fun _ _ => nofun
  | ok _ =>
    refine (createPlanned_confirms [] nofun).seq fun out w h => ?_
    obtain ⟨failed, owned⟩ := out
    cases failed with
    | some failed => exact safe_done fun _ _ => nofun
    | none =>
      refine (safe_quiet (P := fun w => ∀ r ∈ planned, r ∈ w.os.routes) (setDns_quiet _ _)
        (fun _ _ hsub h r hr => hsub (h r hr)) (fun _ _ hroutes _ h r hr => hroutes ▸ h r hr)
        (fun _ _ _ _ => stands_none) (h rfl)).seq fun set w hout => ?_
      cases set with
      | error e => exact safe_done fun _ _ => nofun
      | ok _ => exact safe_done fun _ hsub _ => ⟨⟨rfl, rfl⟩, fun r hr => hsub (hout.1 r hr)⟩

theorem setup_shielded {isPrivateIp : IpAddr → Bool} {args : TproxyArgs} :
    Safe (standing none) (setup isPrivateIp args)
      (Phase.Shielded none) w := by
  suffices hinstall : Safe (standing none)
      (installTransaction isPrivateIp args)
      (fun result => (Phase.afterSetup result).Shielded none) w from
    hinstall.seq fun _ _ h => safe_pure Phase.Shielded.stable h
  refine (Safe.of_allowed fun _ _ => stands_none).outcome.seq fun plan w hout => ?_
  cases plan with
  | error e => exact safe_pure Phase.Shielded.stable rfl
  | ok plan =>
    obtain ⟨planned, record⟩ := plan
    obtain ⟨-, hdesired, hnodup⟩ := planTransaction_outcome hout.2
    refine applyTransaction_confirms.seq fun out w h => ?_
    obtain ⟨applied, record'⟩ := out
    cases applied with
    | error e =>
      refine (Safe.of_allowed fun _ _ => stands_none).seq fun _ w _ => ?_
      exact safe_pure Phase.Shielded.stable rfl
    | ok _ =>
      obtain ⟨⟨hluid, hsame⟩, hrows⟩ := h rfl
      refine safe_pure Phase.Shielded.stable ⟨?_, nofun⟩
      show Windows.Shielded record'.tunLuid record'.desiredBypasses [] w
      rw [hluid, hsame]
      refine ⟨hnodup, fun target ht => ?_, nofun⟩
      obtain ⟨r, hr, rfl⟩ := List.mem_map.mp ht
      rw [hdesired] at hr
      obtain ⟨hr, hl⟩ := List.mem_filter.mp hr
      exact ⟨r, hrows r hr, rfl, bne_iff_ne.mp hl, List.not_mem_nil⟩

/-! ## 7. The barrier -/

/-- **The loop barrier never disappears**, in every run after a setup in which the bypasses are
    refreshed only when no row waits to be rolled back. Whenever the worker wants a bypass, every
    later state up to the cleanup, between any two calls, has a row for its destination that does
    not lead into the TUN; and no call deletes a capture route. -/
theorem barrier_stays (isPrivateIp : IpAddr → Bool) (args : TproxyArgs) (os : Os)
    (worker : Worker) {phase : Phase}
    (hphase : phase = .waiting worker ∨ phase = .refreshing worker)
    {w w' : World} {p : Net Phase}
    (hrun : ReflTransGen (Prog.Move (NetworkOp.Step RowsOfTable) Grows
        (Monitor args NothingToRollBack))
      (setup isPrivateIp args, .start os) (.pure phase, w))
    (hlater : ReflTransGen (Prog.Move (NetworkOp.Step RowsOfTable) Grows
        (Monitor args NothingToRollBack)) (.pure phase, w) (p, w')) :
    (∀ d ∈ worker.record.desiredBypasses, Barrier worker.record.tunLuid d.target w') ∧
      ∀ r k, p = .call (.deleteRoute r) k → r.interfaceLuid ≠ worker.record.tunLuid := by
  have hsafe : Safe (standing none) (.pure phase) (Phase.Shielded none) w :=
    Safe.reach (fun _ _ h => next_shielded h) setup_shielded hrun
  have hworker : worker.Shielded w := by
    rcases hphase with rfl | rfl
    · exact hsafe.result.1
    · exact hsafe.result.1
  -- all the bypasses wanted at this point
  let goal := some (worker.record.tunLuid, worker.record.desiredBypasses.map RouteSpec.target)
  have hasked : Asked goal worker.record.tunLuid worker.record.desiredBypasses := by
    intro g hg
    obtain rfl := Option.some.inj hg
    exact ⟨rfl, List.Subset.refl _⟩
  have hstart : Safe (standing goal) (.pure phase)
      (Phase.Shielded goal) w := by
    rcases hphase with rfl | rfl
    · exact safe_pure Phase.Shielded.stable ⟨hworker, hasked⟩
    · exact safe_pure Phase.Shielded.stable ⟨hworker, hasked⟩
  have hsafe := Safe.reach (fun _ _ h => next_shielded h) hstart hlater
  have hall : ∀ {w}, (∀ target ∈ worker.record.desiredBypasses.map RouteSpec.target,
      Barrier worker.record.tunLuid target w) →
      ∀ d ∈ worker.record.desiredBypasses, Barrier worker.record.tunLuid d.target w :=
    fun h d hd => h d.target (List.mem_map_of_mem hd)
  cases p with
  | pure phase' => exact ⟨hall (hsafe.result.barrier _ rfl), nofun⟩
  | call op k =>
    obtain ⟨hbarrier, hcapture⟩ := hsafe.allowed _ rfl
    refine ⟨hall hbarrier, fun r k' he => hcapture r ?_⟩
    cases he
    rfl

section Sample

theorem reported_rowsOfTable (net : Network) (os : Os) : RowsOfTable os (net.reported os) :=
  fun _ hrow => of_decide_eq_true (List.mem_filter.mp hrow).2

theorem grows_addRow (w : World) (r : RouteSpec) : Grows w (w.addRow r) :=
  Finset.subset_insert r w.os.routes

/-- The rollback of an update, about to delete its row: the proxy's bypass stands beside it. -/
theorem sample_barrier_stays :
    Barrier 1 (sampleBypass 0x77).target samplePrepared.2 ∧
      (sampleBypass 0x88).interfaceLuid ≠ 1 := by
  have habandoned : samplePrepared.1.2.abandoned = [sampleBypass 0x88] := by decide +kernel
  obtain ⟨k, hk⟩ := rollback_deletes sampleArgs habandoned
  obtain ⟨hbarrier, hcapture⟩ := barrier_stays (fun _ => false) sampleArgs sampleOs
    ⟨sampleRecord, none, []⟩ (.inl rfl) (sampleSetup_reach reported_rowsOfTable)
    ((samplePrepared_reach reported_rowsOfTable grows_addRow fun _ _ h => h).trans
      (.single (.start (.command _ .rollback))))
  exact ⟨hbarrier _ List.mem_cons_self, hcapture _ k hk⟩

/-- The refresh takes the row that waits to be rolled back for the new bypass. -/
def sampleRetired : Worker × World :=
  (sampleNetwork fun _ => false).run sampleReconciled.1.refresh sampleReconciled.2

theorem sampleRetired_alone :
    sampleRetired.1.rollbackRoutes = [sampleBypass 0x88] ∧
      ∀ r ∈ (sampleRetired.2.delete (sampleBypass 0x88)).os.routes,
        ¬(r.target = (sampleBypass 0x77).target ∧ r.interfaceLuid ≠ 1) := by decide +kernel

/-- **The barrier falls.** The bypass over interface 0x88 was created by an update and could not be
    rolled back. The refresh takes it for the new bypass and retires the one over 0x77; it still
    waits to be rolled back, and the next preparation deletes it. -/
theorem barrier_falls :
    ∃ w p w', sampleBypass 0x77 ∈ sampleRecord.desiredBypasses ∧
      ReflTransGen (Prog.Move (NetworkOp.Step RowsOfTable) Grows
          (Monitor sampleArgs fun _ => True))
        (setup (fun _ => false) sampleArgs, .start sampleOs)
        (.pure (.waiting ⟨sampleRecord, none, []⟩), w) ∧
      ReflTransGen (Prog.Move (NetworkOp.Step RowsOfTable) Grows
          (Monitor sampleArgs fun _ => True))
        (.pure (.waiting ⟨sampleRecord, none, []⟩), w) (p, w') ∧
      Barrier sampleRecord.tunLuid (sampleBypass 0x77).target w ∧
      ¬Barrier sampleRecord.tunLuid (sampleBypass 0x77).target w' := by
  obtain ⟨k, hk⟩ := prepare_deletes sampleArgs sampleRetired_alone.1 [.v4 0xCB007101#32]
  have hdelete : Prog.Move (NetworkOp.Step RowsOfTable) Grows (Monitor sampleArgs fun _ => True)
      (.call (.deleteRoute (sampleBypass 0x88)) k, sampleRetired.2)
      (k (.ok ()), sampleRetired.2.delete (sampleBypass 0x88)) := .call (.deleted _ _)
  refine ⟨sampleSetup.2, k (.ok ()), sampleRetired.2.delete (sampleBypass 0x88),
    List.mem_cons_self, sampleSetup_reach reported_rowsOfTable, ?_, ?_, ?_⟩
  · refine (samplePrepared_reach reported_rowsOfTable grows_addRow fun _ _ h => h).trans ?_
    refine (sampleReconciled_reach reported_rowsOfTable fun _ _ h => h).trans ?_
    refine (reach_run (sampleNetwork fun _ => false) (reported_rowsOfTable _)
      (.refresh trivial)).trans ?_
    exact .head (.start (.command _ (.prepare [.v4 0xCB007101#32] false))) (hk ▸ .single hdelete)
  · exact ⟨sampleBypass 0x77, by decide +kernel, rfl, by decide⟩
  · intro hbarrier
    obtain ⟨r, hr, htarget, hl⟩ := hbarrier
    exact sampleRetired_alone.2 r hr ⟨htarget, hl⟩

end Sample

end Tun2Proxy.Windows
